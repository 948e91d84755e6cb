import FleetCache.Value.Access
import FleetCache.Text.Digit

set_option autoImplicit false

namespace FleetCache

open FleetCache.Text

structure Names where
  group : String
  cluster : String
  app : String
  stack : Option String
  detail : Option String
  sequence : Option Nat
  deriving DecidableEq

namespace Names

def nonEmpty? (text : List Char) : Option String :=
  if text.isEmpty then none else some (String.ofList text)

/-- Splits a name before its push sequence into the cluster and the digits. The digits reach to the end
or to one line feed there; the cluster is neither empty nor has line feeds. -/
def splitPush (name : List Char) : Option (List Char × List Char) :=
  let backward := (dropFinalNewline name).reverse
  let digits := (backward.takeWhile isDigit).reverse
  match backward.dropWhile isDigit with
  | 'v' :: '-' :: front =>
    if 3 ≤ digits.length && !front.isEmpty && !front.contains '\n' then some (front.reverse, digits)
    else none
  | _ => none

def ofCluster (group : String) (cluster : List Char) (sequence : Option Nat) : Names :=
  let (app, rest) := cut '-' cluster
  let (stack, detail) := cut '-' rest
  { group := group
    cluster := String.ofList cluster
    app := String.ofList (if app.isEmpty then cluster else app)
    stack := nonEmpty? stack
    detail := nonEmpty? detail
    sequence := sequence }

def parse (name : String) : Except Fault Names :=
  if name = "" then .error .emptyName
  else
    match splitPush name.toList with
    | none => .ok (ofCluster name name.toList none)
    | some (cluster, digits) =>
      if digits.length > maxDigits then .error (.longInteger digits.length)
      else .ok (ofCluster name cluster (some (digitsValue digits)))

/-- The parts of a name given as any value; an absent name counts as empty. -/
def ofValue (v : Value) : Except Fault Names :=
  match v with
  | .str s => parse s
  | other =>
    if other.truthy then
      .error (.wrongType ("expected string or bytes-like object, got '" ++ other.typeName ++ "'"))
    else .error .emptyName

def toValue (names : Names) : Value :=
  .object [("group", .str names.group), ("cluster", .str names.cluster), ("app", .str names.app),
    ("stack", .ofOption names.stack), ("detail", .ofOption names.detail),
    ("sequence", (names.sequence.map Value.ofNat).getD .null)]

example : (parse "web-prod-canary-v003").toOption
    = some ⟨"web-prod-canary-v003", "web-prod-canary", "web", some "prod", some "canary", some 3⟩ := by
  decide +kernel
example : (parse "-v001").toOption = some ⟨"-v001", "-v001", "-v001", some "v001", none, none⟩ := by
  decide +kernel

end Names

end FleetCache
