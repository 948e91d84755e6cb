import FleetCache.Fault
import FleetCache.Key.Escape
import FleetCache.Key.Namespace

set_option autoImplicit false

namespace FleetCache

open FleetCache.Text

def provider : String := "aws"

structure Key where
  ns : Namespace
  fields : List String
  deriving DecidableEq

namespace Key

def named (key : Key) : List (String × String) :=
  key.ns.fieldNames.zip key.fields

def dropAbsent (required : Nat) (fields : List (Option String)) : List (Option String) :=
  let extra := fields.drop required
  fields.take required ++ (extra.reverse.dropWhile Option.isNone).reverse

def firstEmpty : List String → List (Option String) → Option String
  | name :: names, field :: fields =>
    if field.getD "" = "" then some name else firstEmpty names fields
  | _, _ => none

def assemble (ns : Namespace) (segments : List (List Char)) : List Char :=
  joinWith [delimiter] (provider.toList :: ns.name.toList :: segments)

/-- The key of a namespace with the given fields; optional fields at the end may be absent. -/
def encode (ns : Namespace) (fields : List (Option String)) : Except KeyProblem String :=
  let kept := dropAbsent ns.required fields
  if kept.length < ns.required || ns.total < kept.length then
    .error (.fieldCount ns.name ns.required ns.total fields.length)
  else
    match firstEmpty ns.fieldNames kept with
    | some field => .error (.emptyField ns.name field)
    | none =>
      .ok (String.ofList (assemble ns (kept.map (fun field => escape (field.getD "").toList))))

def decodeChars (text : List Char) : Except KeyDefect Key :=
  match splitAt delimiter text with
  | first :: second :: third :: more =>
    let segments := third :: more
    if first ≠ provider.toList then .error (.otherProvider (String.ofList first))
    else
      match Namespace.ofName? (String.ofList second) with
      | none => .error (.unknownNamespace (String.ofList second))
      | some ns =>
        if segments.length < ns.required || ns.total < segments.length then
          .error (.fieldCount ns.required ns.total segments.length)
        else if segments.any (fun s => s.isEmpty || s.contains wildcard) then .error .badField
        else .ok ⟨ns, segments.map (fun s => String.ofList (unescape s))⟩
  | _ => .error .tooFewSegments

def decode (key : String) : Except KeyDefect Key :=
  if key = "" then .error .empty else decodeChars key.toList

def itemAt? (items : List String) (index : Int) : Option String :=
  if 0 ≤ index then items[index.toNat]?
  else if index.natAbs ≤ items.length then items[items.length - index.natAbs]?
  else none

def field? (key : String) (index : Int) : Option String :=
  match decode key with
  | .ok k => itemAt? k.fields index
  | .error _ => none

def lastField? (key : String) : Option String :=
  field? key (-1)

def fieldOf? (id : Atom) (index : Int) : Option String :=
  match id with
  | .str s => field? s index
  | _ => none

def lastFieldOf? (id : Atom) : Option String :=
  fieldOf? id (-1)

/-- The pattern that finds the keys with the given fields; absent or empty fields match anything, and a
wildcard inside a field stays one. -/
def searchPattern (ns : Namespace) (fields : List (Option String)) : Except KeyProblem String :=
  if ns.total < fields.length then .error (.tooManyFields ns.name ns.total)
  else
    let specified := (fields.reverse.dropWhile Option.isNone).reverse
    let segments := specified.map (fun field =>
      if field.getD "" = "" then [wildcard] else escapeGlob (field.getD "").toList)
    let ending :=
      if specified.length < ns.required then [delimiter, wildcard]
      else if specified.length < ns.total then [wildcard]
      else []
    .ok (String.ofList (assemble ns segments ++ ending))

def application (app : Option String) : Except KeyProblem String :=
  encode .applications [app]

def cluster (name app account : Option String) : Except KeyProblem String :=
  encode .clusters [account, app, name]

def serverGroup (name account region : Option String) : Except KeyProblem String :=
  encode .serverGroups [account, region, name]

def launchConfig (name account region : Option String) : Except KeyProblem String :=
  encode .launchConfigs [account, region, name]

def instanceOf (id account region : Option String) : Except KeyProblem String :=
  encode .instances [account, region, id]

def loadBalancer (name account region vpc : Option String) : Except KeyProblem String :=
  encode .loadBalancers [account, region, name, vpc]

def image (id account region : Option String) : Except KeyProblem String :=
  encode .images [account, region, id]

def namedImage (account name : Option String) : Except KeyProblem String :=
  encode .namedImages [account, name]

def instanceType (account region zone : Option String) : Except KeyProblem String :=
  encode .instanceTypes [account, region, zone]

example : (encode .images [some "prod", some "eu", some "a:b*%"]).toOption
    = some "aws:image:prod:eu:a%3Ab%2A%25" := by decide +kernel
example : (decode "aws:loadBalancer:prod:eu:web:vpc-1").toOption
    = some ⟨.loadBalancers, ["prod", "eu", "web", "vpc-1"]⟩ := by decide +kernel
example : (searchPattern .serverGroups [some "prod", none, some "web*"]).toOption
    = some "aws:serverGroup:prod:*:web*" := by decide +kernel

end Key

/-- The field that a value supplies: null supplies none, any other value its text. -/
def Value.field? : Value → Option String
  | .null => none
  | v => some v.text

def Namespace.ofValue (v : Value) : Except KeyProblem Namespace :=
  match v.string?.bind Namespace.ofName? with
  | some ns => .ok ns
  | none => .error (.unknownNamespace v.shown)

def Key.ofValue (v : Value) : Except Fault Key :=
  match v with
  | .str s => (Key.decode s).mapError (.malformedKey (.str s))
  | other => .error (.malformedKey (.str other.text) .empty)

/-- The field of a readable key at an index that comes as a value; a truth value counts as 0 or 1. What
is no readable key has no fields, so there no index is wrong. -/
def Key.fieldAt (key index : Value) : Except Fault Value :=
  let id := key.atom?.getD .null
  match index with
  | .int n => .ok (.ofOption (Key.fieldOf? id n))
  | .bool b => .ok (.ofOption (Key.fieldOf? id b.toInt))
  | v =>
    if (Key.lastFieldOf? id).isNone then .ok .null
    else .error (.wrongType ("tuple indices must be integers or slices, not " ++ v.typeName))

def liftKey {α : Type} (x : Except KeyProblem α) : Except Fault α :=
  x.mapError .invalidKey

end FleetCache
