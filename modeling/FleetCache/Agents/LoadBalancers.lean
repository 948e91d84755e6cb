import FleetCache.Agents.Agent

set_option autoImplicit false

namespace FleetCache.LoadBalancerAgent

def name : String := "LoadBalancerCachingAgent"

def types : List DataType :=
  [owns .loadBalancers, contributesTo .instances]

def keyOf (account region : String) (record : Attributes) : Except KeyProblem String :=
  let id := (record.get "loadBalancerId").orElse (record.get "loadBalancerName")
  Key.loadBalancer id.field? (some account) (some region) (record.get "vpcId").field?

def keys (account region : String) (record : Attributes) :
    Except Fault (Except KeyProblem (String × List String)) := do
  match keyOf account region record with
  | .error problem => return .error problem
  | .ok key =>
    let ids ← ((record.get "instances").orElse (.list [])).elements
    return (ids.mapM (fun id => Key.instanceOf id.field? (some account) (some region))).map
      (fun members => (key, members))

def merge (account : String) (record : Attributes) (key : String) (members : List String)
    (builder : ReportBuilder) : ReportBuilder :=
  members.foldl (fun acc (member : String) =>
      acc.merge Namespace.instances.name member [] [(Namespace.loadBalancers.name, [key])])
    (builder.merge Namespace.loadBalancers.name key (record.put "account" (.str account))
      [(Namespace.instances.name, members.map .str)])

def step (account region agent : String) (builder : ReportBuilder) (record : Attributes) :
    Traced ReportBuilder := do
  let found ← keys account region record
  skipUnkeyed found .warning (agent ++ ": skipping load balancer record: ") (pure builder)
    (fun (key, members) => pure (merge account record key members builder))

def load (provider : Provider) (account region : String) : Traced Report := do
  let agent := agentType account region name
  let builder ← provider.loadBalancers.run ReportBuilder.empty (step account region agent)
  let report := builder.build types false
  Traced.info (agent ++ ": cached " ++ shownCounts report.counts)
  return report

end FleetCache.LoadBalancerAgent

namespace FleetCache

def loadBalancerAgent (provider : Provider) (account region : String) : Agent :=
  ⟨LoadBalancerAgent.name, account, region, LoadBalancerAgent.types,
    LoadBalancerAgent.load provider account region⟩

end FleetCache
