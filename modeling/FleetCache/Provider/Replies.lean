import FleetCache.Provider.Cloud

set_option autoImplicit false

namespace FleetCache.Cloud

def membersOr (v : Value) : Attributes :=
  match v with
  | .object members => members
  | _ => []

def itemsOr (v : Value) : List Value :=
  match v with
  | .list items => items
  | _ => []

def failureIn (call : String) (members : Attributes) : Option CloudFailure :=
  let part := fun (outer name : String) => (Attributes.get (membersOr (members.get outer)) name).text
  if members.has "refused" then
    some (.refused (methodName call) (part "refused" "code") (part "refused" "reason"))
  else if members.has "broken" then some (.broken (part "broken" "name") (part "broken" "text"))
  else none

def Reply.page (call : String) (v : Value) : Except CloudFailure Value :=
  ((failureIn call (membersOr v)).map Except.error).getD (.ok v)

def Reply.ofValue (v : Value) : Reply :=
  let members := membersOr v
  let call := (members.get "call").text
  let conditions := membersOr (members.get "when")
  match failureIn call members with
  | some failure => ⟨call, conditions, .error failure, [.error failure]⟩
  | none =>
    ⟨call, conditions, .ok ((members.lookup (.str "answer")).getD (.object [])),
      (itemsOr (members.get "pages")).map (Reply.page call)⟩

end FleetCache.Cloud
