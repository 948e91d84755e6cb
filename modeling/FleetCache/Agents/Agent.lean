import FleetCache.Agents.Builder
import FleetCache.Key
import FleetCache.Provider.Fetcher

set_option autoImplicit false

namespace FleetCache

/-- An agent with the namespaces it writes and the work of one run. -/
structure Agent where
  name : String
  account : String
  region : String
  types : List DataType
  load : Traced Report

/-- The name under which an agent writes: account, region and kind. -/
def agentType (account region name : String) : String :=
  account ++ "/" ++ region ++ "/" ++ name

def Agent.type (agent : Agent) : String :=
  agentType agent.account agent.region agent.name

def Agent.shown (agent : Agent) : String :=
  "<" ++ agent.name ++ " " ++ agent.account ++ "/" ++ agent.region ++ ">"

def skipUnkeyed {α β : Type} (x : Except KeyProblem α) (level : Level) (lead : String) (other : Traced β)
    (next : α → Traced β) : Traced β :=
  match x with
  | .ok a => next a
  | .error problem => do
    Traced.log level (lead ++ problem.message)
    other

end FleetCache
