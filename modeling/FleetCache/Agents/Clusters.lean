import FleetCache.Agents.LoadBalancers
import FleetCache.Naming

set_option autoImplicit false

namespace FleetCache.ClusterAgent

open FleetCache.Text

def name : String := "ClusterCachingAgent"

def types : List DataType :=
  [owns .applications, owns .clusters, owns .serverGroups, contributesTo .loadBalancers,
    contributesTo .launchConfigs, contributesTo .instances]

def logFailure (agent : String) (failure : LookupFailure) : Traced Unit := do
  if ← (failure.notFound : Traced Bool) then
    Traced.info (agent ++ ": " ++ failure.resource.text ++ " -> NotFound")
  else Traced.warn (agent ++ ": " ++ failure.message)

def orLogged {α : Type} (agent : String) (x : Traced α) (other : α) : Traced α :=
  x.rescue (fun fault =>
    match fault with
    | .lookup failure => do
      logFailure agent failure
      return other
    | fault => Traced.fail fault)

structure GroupData where
  group : Attributes
  configuration : Option Attributes
  balancers : List Attributes
  members : List Attributes
  details : Details

structure GroupKeys where
  names : Names
  application : String
  cluster : String
  serverGroup : String
  configName : Value
  launchConfig : Option String
  instances : List (Atom × String)
  balancers : List (Atom × String)

def putKey (id : Atom) (key : String) (keys : List (Atom × String)) : List (Atom × String) :=
  ReportBuilder.adjust id (fun _ => key) keys

def configName (configuration : Option Attributes) : Value :=
  match configuration with
  | none => .null
  | some c => (c.get "scalingConfigurationName").orElse (c.get "scalingConfigurationId")

def balancerId (record : Attributes) : Value :=
  (record.get "loadBalancerId").orElse (record.get "loadBalancerName")

def memberKeys (account region : String) (members : List Attributes) :
    Except Fault (List (Atom × String)) :=
  members.foldlM (fun keys member => do
    let id := member.get "instanceId"
    if id.truthy then
      let key ← liftKey (Key.instanceOf id.field? (some account) (some region))
      return putKey (← id.toAtom) key keys
    else return keys) []

def balancerKeys (account region : String) (balancers : List Attributes) :
    Except Fault (List (Atom × String)) :=
  balancers.foldlM (fun keys record => do
    let key ← liftKey (LoadBalancerAgent.keyOf account region record)
    return putKey (← (balancerId record).toAtom) key keys) []

def deriveKeys (account region : String) (data : GroupData) : Except Fault GroupKeys := do
  let names ← Names.ofValue ((data.group.get "scalingGroupName").orElse (.str ""))
  let application ← liftKey (Key.application (some names.app))
  let cluster ← liftKey (Key.cluster (some names.cluster) (some names.app) (some account))
  let serverGroup ← liftKey (Key.serverGroup (some names.group) (some account) (some region))
  let config := configName data.configuration
  let launchConfig ←
    if config.truthy then
      (liftKey (Key.launchConfig config.field? (some account) (some region))).map some
    else pure none
  let instances ← memberKeys account region data.members
  let balancers ← balancerKeys account region data.balancers
  return ⟨names, application, cluster, serverGroup, config, launchConfig, instances, balancers⟩

def GroupKeys.balancerIds (keys : GroupKeys) : List Atom :=
  keys.balancers.map (fun (_, key) => .str key)

def GroupKeys.instanceIds (keys : GroupKeys) : List Atom :=
  keys.instances.map (fun (_, key) => .str key)

def addApplication (keys : GroupKeys) (builder : ReportBuilder) : ReportBuilder :=
  builder.merge Namespace.applications.name keys.application [("name", .str keys.names.app)]
    [(Namespace.clusters.name, [keys.cluster]), (Namespace.serverGroups.name, [keys.serverGroup]),
      (Namespace.loadBalancers.name, keys.balancerIds)]

def addCluster (account : String) (keys : GroupKeys) (builder : ReportBuilder) : ReportBuilder :=
  builder.merge Namespace.clusters.name keys.cluster
    [("name", .str keys.names.cluster), ("application", .str keys.names.app), ("account", .str account)]
    [(Namespace.applications.name, [keys.application]),
      (Namespace.serverGroups.name, [keys.serverGroup]),
      (Namespace.loadBalancers.name, keys.balancerIds)]

def groupAttributes (account region : String) (data : GroupData) (keys : GroupKeys) : Attributes :=
  [("name", .str keys.names.group), ("application", .str keys.names.app),
    ("cluster", .str keys.names.cluster), ("stack", .ofOption keys.names.stack),
    ("detail", .ofOption keys.names.detail), ("account", .str account), ("region", .str region),
    ("provider", .str provider), ("scalingGroup", .object data.group),
    ("scalingConfiguration", .object (data.configuration.getD [])),
    ("launchConfigName", keys.configName), ("instances", .list (data.members.map .object)),
    ("loadBalancers", .list (data.balancers.map .object))]

def launchEdge (keys : GroupKeys) : List (Atom × List Atom) :=
  match keys.launchConfig with
  | some key => [(Namespace.launchConfigs.name, [key])]
  | none => []

def groupEdges (keys : GroupKeys) : List (Atom × List Atom) :=
  (Namespace.applications.name, [keys.application]) ::
    (Namespace.clusters.name, [keys.cluster]) ::
      (Namespace.loadBalancers.name, keys.balancerIds) ::
        (Namespace.instances.name, keys.instanceIds) :: launchEdge keys

def addServerGroup (account region : String) (data : GroupData) (keys : GroupKeys)
    (builder : ReportBuilder) : ReportBuilder :=
  builder.merge Namespace.serverGroups.name keys.serverGroup
    (groupAttributes account region data keys) (groupEdges keys)

def backEdge (keys : GroupKeys) : List (Atom × List Atom) :=
  [(Namespace.serverGroups.name, [keys.serverGroup])]

def addLaunchConfig (data : GroupData) (keys : GroupKeys) (builder : ReportBuilder) : ReportBuilder :=
  match keys.launchConfig with
  | none => builder
  | some key =>
    builder.merge Namespace.launchConfigs.name key (data.configuration.getD []) (backEdge keys)

def instanceAttributes (details : Details) (id : Atom) : Attributes :=
  match details.lookup id with
  | some (head :: rest) => head :: rest
  | _ => [("instanceId", id)]

def addInstances (data : GroupData) (keys : GroupKeys) (builder : ReportBuilder) : ReportBuilder :=
  keys.instances.foldl (fun acc (id, key) =>
    acc.merge Namespace.instances.name key (instanceAttributes data.details id) (backEdge keys)) builder

def addLoadBalancers (data : GroupData) (keys : GroupKeys) (builder : ReportBuilder) : ReportBuilder :=
  data.balancers.foldl (fun acc record =>
    match (balancerId record).atom?.bind (fun id => keys.balancers.lookup id) with
    | some key => acc.merge Namespace.loadBalancers.name key record (backEdge keys)
    | none => acc) builder

def addGroup (account region : String) (data : GroupData) (keys : GroupKeys) (builder : ReportBuilder) :
    ReportBuilder :=
  builder |> addApplication keys |> addCluster account keys |> addServerGroup account region data keys
    |> addLaunchConfig data keys |> addInstances data keys |> addLoadBalancers data keys

def withZone (details : Details) (member : Attributes) : Except Fault Attributes := do
  match details.lookup (← (member.get "instanceId").toAtom) with
  | some (head :: rest) =>
    if (member.get "zoneId").truthy then return member
    else return member.put "zoneId" (Attributes.get (head :: rest) "zoneId")
  | _ => return member

def fetchGroup (provider : Provider) (agent : String) (group : Attributes) : Traced GroupData := do
  let configuration ← orLogged agent (provider.scalingConfiguration group) none
  let ids ← ((group.get "loadBalancerIds").orElse (.list [])).elements
  let balancers ← (ids.filter Value.truthy).mapM (fun id => orLogged agent (provider.loadBalancer id) [])
  let items ← ((group.get "instances").orElse (.list [])).elements
  let members ← items.mapM (fun v => (v.toMembers : Traced Attributes))
  let wanted := (members.map (fun m => m.get "instanceId")).filter Value.truthy
  let details ← if wanted.isEmpty then pure [] else orLogged agent (provider.details wanted) []
  let members ← members.mapM (fun m => (withZone details m : Traced Attributes))
  return {
    group := group
    configuration := configuration.filter (fun c => !c.isEmpty)
    balancers := balancers.filter (fun b => !b.isEmpty)
    members := members
    details := details }

def prepare (provider : Provider) (account region : String) (group : Value) :
    Traced (GroupData × GroupKeys) := do
  let group ← group.members
  let data ← fetchGroup provider (agentType account region name) group
  let keys ← deriveKeys account region data
  return (data, keys)

def step (provider : Provider) (account region : String) (builder : ReportBuilder)
    (group : Value) : Traced ReportBuilder :=
  ((fun (data, keys) => addGroup account region data keys builder) <$>
    prepare provider account region group).rescue (fun fault =>
      if fault.aboutValue then do
        let shown := (← group.member "scalingGroupName").shown
        Traced.warn (agentType account region name ++ ": skipping scaling group " ++ shown ++ ": "
          ++ fault.logged)
        return builder
      else Traced.fail fault)

/-- One run. The whole listing comes first, so that one that breaks off costs no lookups. -/
def load (provider : Provider) (account region : String) (workers : Int) : Traced Report := do
  let groups ← provider.scalingGroups.collect
  Traced.info (agentType account region name ++ ": caching " ++ natText groups.length
    ++ " scaling groups")
  if workers ≤ 0 then Traced.fail .noWorkers
  else
    let builder ← groups.foldlM (step provider account region) ReportBuilder.empty
    return builder.build types false

end FleetCache.ClusterAgent

namespace FleetCache

def clusterAgent (provider : Provider) (account region : String) (workers : Int) : Agent :=
  ⟨ClusterAgent.name, account, region, ClusterAgent.types,
    ClusterAgent.load provider account region workers⟩

end FleetCache
