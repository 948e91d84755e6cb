import FleetCache.Api.Reference
import FleetCache.Text.Utf8

set_option autoImplicit false

namespace FleetCache.Api

open FleetCache.Text

/-- A path, decoded and with a single slash in front, and parameters in order. -/
structure Target where
  path : List Char
  parameters : List (String × String)
  deriving DecidableEq

namespace Target

def percentBytes : List Char → List Nat
  | '%' :: a :: b :: rest =>
    match hexValue? a, hexValue? b with
    | some high, some low => (high * 16 + low) :: percentBytes rest
    | _, _ => 37 :: percentBytes (a :: b :: rest)
  | c :: rest => charBytes c ++ percentBytes rest
  | [] => []

def percentByte (b : Nat) : List Char :=
  '%' :: (hexDigits 2 b).map Char.toUpper

/-- A parameter name or value decoded: a plus sign is a space, and bytes that make no character stay as
they are written. -/
def decodeParameter (text : List Char) : List Char :=
  textOfBytes (fun bytes => bytes.flatMap percentByte)
    (percentBytes (text.map (fun c => if c = '+' then ' ' else c)))

/-- The parameters of a query, in order; empty ones are skipped, and one without a value is empty. -/
def parametersOf (query : List Char) : List (String × String) :=
  ((splitAt '&' query).filter (fun part => !part.isEmpty)).map (fun part =>
    let (name, v) := cut '=' part
    (String.ofList (decodeParameter name), String.ofList (decodeParameter v)))

def parse (s : String) : Except Fault Target := do
  let outer ← Reference.ofText s.toList
  let inner ← Reference.ofText
    (if outer.query.isEmpty then outer.path else outer.path ++ '?' :: outer.query)
  (← Reference.ofText inner.path).checkHost
  outer.checkHost
  let decoded := textOfBytes replaceBytes (percentBytes (Reference.clean inner.path))
  return ⟨'/' :: decoded.dropWhile (· == '/'), parametersOf inner.query⟩

def segments (path : List Char) : List String :=
  ((splitAt '/' path).drop 1).map String.ofList

def mergeSlashes : List Char → List Char
  | '/' :: '/' :: rest => mergeSlashes ('/' :: rest)
  | c :: rest => c :: mergeSlashes rest
  | [] => []

def parameter? (target : Target) (name : String) : Option String :=
  target.parameters.lookup name

example : (parse "/a%2Fb%20c/?q=x+y&q=z&&flag#top").toOption =
    some ⟨"/a/b c/".toList, [("q", "x y"), ("q", "z"), ("flag", "")]⟩ := by decide +kernel
example : (parse "?q=%ff%41").toOption.map Target.parameters = some [("q", "%FFA")] := by decide +kernel
example : (parse "//h//x/health").toOption.map Target.path = some "/health".toList := by decide +kernel
example : mergeSlashes "/a//b///c".toList = "/a/b/c".toList := by decide +kernel

end Target

end FleetCache.Api
