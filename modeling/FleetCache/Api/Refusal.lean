import FleetCache.Value

set_option autoImplicit false

namespace FleetCache.Api

inductive Refusal where
  | general (text : String) (status : Int) (details : Attributes)
  | invalid (text : String) (parameter : Option String)
  | notFound (resource : String) (name : Option String)

namespace Refusal

def message : Refusal → String
  | .general text _ _ => text
  | .invalid text _ => text
  | .notFound resource name =>
    let name := name.getD ""
    if name = "" then resource ++ " not found" else resource ++ " '" ++ name ++ "' not found"

def status : Refusal → Int
  | .general _ status _ => status
  | .invalid _ _ => 400
  | .notFound _ _ => 404

def details : Refusal → Attributes
  | .general _ _ details => details
  | .invalid _ parameter =>
    let parameter := parameter.getD ""
    if parameter = "" then [] else [("field", .str parameter)]
  | .notFound _ _ => []

def body (refusal : Refusal) : Value :=
  let details := refusal.details
  .object (("error", .str refusal.message) ::
    (if details.isEmpty then [] else [("details", .object details)]))

end Refusal

end FleetCache.Api
