import FleetCache.Key
import FleetCache.Traced

set_option autoImplicit false

namespace FleetCache

inductive CloudFailure where
  | refused (method code reason : String)
  | broken (name text : String)
  deriving DecidableEq

namespace CloudFailure

def unexplained (method : String) : CloudFailure :=
  .refused method "Unknown" "Unknown"

def code : CloudFailure → String
  | .refused _ code _ => code
  | .broken name _ => name

def message : CloudFailure → String
  | .refused method code reason =>
    "An error occurred (" ++ code ++ ") when calling the " ++ method ++ " operation: " ++ reason
  | .broken _ text => text

end CloudFailure

structure Cloud where
  ask : String → Attributes → Except CloudFailure Value
  pages : String → Attributes → List (Except CloudFailure Value)

namespace Cloud

def methodName (call : String) : String :=
  String.ofList (Text.cut '.' call.toList).2

/-- A reply to a call, given when its conditions hold: the answer to a plain call, and the pages of a
listing. -/
structure Reply where
  call : String
  conditions : Attributes
  answer : Except CloudFailure Value
  pages : List (Except CloudFailure Value)

def Reply.isFor (reply : Reply) (call : String) (arguments : Attributes) : Bool :=
  reply.call == call && reply.conditions.all (fun (name, v) => arguments.get name == v)

/-- The cloud that answers from replies; what is known of the session may be a condition too. A call
without a reply has an empty answer and no pages. -/
def ofReplies (replies : List Reply) (session : Attributes) : Cloud :=
  let find := fun call arguments => replies.find? (·.isFor call (arguments ++ session))
  { ask := fun call arguments => ((find call arguments).map Reply.answer).getD (.ok (.object []))
    pages := fun call arguments => ((find call arguments).map Reply.pages).getD [] }

def session (profile region : Value) : Attributes :=
  [("profile", profile), ("region", region)]

end Cloud

end FleetCache
