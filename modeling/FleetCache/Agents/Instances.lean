import FleetCache.Agents.Agent

set_option autoImplicit false

namespace FleetCache.InstanceAgent

open FleetCache.Text

def name : String := "InstanceCachingAgent"

def types : List DataType :=
  [owns .instances, contributesTo .serverGroups]

def groupTag : String := "aws:autoscaling:groupName"

def keys (account region : String) (record : Attributes) :
    Except Fault (Except KeyProblem (String × Option String)) := do
  let id := (record.get "instanceId").field?
  match Key.instanceOf id (some account) (some region) with
  | .error problem => return .error problem
  | .ok key =>
    let group ← ((record.get "tags").orElse (.object [])).member groupTag
    if group.truthy then
      return (Key.serverGroup group.field? (some account) (some region)).map (fun g => (key, some g))
    else return .ok (key, none)

def merge (account : String) (record : Attributes) (key : String) (group : Option String)
    (builder : ReportBuilder) : ReportBuilder :=
  let attributes := record.put "account" (.str account)
  match group with
  | none => builder.merge Namespace.instances.name key attributes []
  | some g =>
    (builder.merge Namespace.instances.name key attributes [(Namespace.serverGroups.name, [g])]).merge
      Namespace.serverGroups.name g [] [(Namespace.instances.name, [key])]

def step (account region agent : String) (state : ReportBuilder × Nat) (record : Attributes) :
    Traced (ReportBuilder × Nat) := do
  let found ← keys account region record
  skipUnkeyed found .warning (agent ++ ": skipping instance record: ") (pure state)
    (fun (key, group) => pure (merge account record key group state.1, state.2 + 1))

def load (provider : Provider) (account region : String) : Traced Report := do
  let agent := agentType account region name
  let (builder, count) ← provider.instances.run (ReportBuilder.empty, 0) (step account region agent)
  Traced.info (agent ++ ": cached " ++ natText count ++ " instances")
  return builder.build types false

end FleetCache.InstanceAgent

namespace FleetCache

def instanceAgent (provider : Provider) (account region : String) : Agent :=
  ⟨InstanceAgent.name, account, region, InstanceAgent.types, InstanceAgent.load provider account region⟩

end FleetCache
