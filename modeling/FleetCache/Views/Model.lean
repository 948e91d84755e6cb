import FleetCache.Cache.Store
import FleetCache.Key

set_option autoImplicit false

namespace FleetCache.Views

def healthType : String := "AmazonWebServices"

def activeState : String := "Active"

def inactiveState : String := "Inactive"

def healthyStatus : String := "Healthy"

inductive HealthState where
  | up
  | down
  | unknown
  deriving DecidableEq

def HealthState.name : HealthState → String
  | .up => "Up"
  | .down => "Down"
  | .unknown => "Unknown"

structure Instance where
  name : String
  zone : Option String
  health : HealthState
  deriving DecidableEq

structure Capacity where
  min : Option Int
  max : Option Int
  desired : Nat
  deriving DecidableEq

structure ServerGroup where
  name : Value
  account : Option String
  region : Option String
  disabled : Bool
  capacity : Capacity
  instances : List Instance
  creationTime : Value
  createdTime : Option Int
  launchConfig : Attributes
  imageId : Value
  loadBalancers : List Value
  attributes : Attributes

structure BalancedGroup where
  name : Value
  disabled : Bool
  instances : List Value

structure LoadBalancer where
  id : Atom
  name : Option String
  account : Option String
  region : Option String
  vpcId : Option String
  serverGroups : List BalancedGroup

structure Cluster where
  name : Value
  account : Value
  application : Value
  serverGroups : List ServerGroup
  loadBalancers : List LoadBalancer

structure ImageResult where
  imageName : Option String
  attributes : Attributes

def healthReport (state : HealthState) : Value :=
  .list [.object [("type", .str healthType), ("healthClass", .str "platform"),
    ("state", .str state.name)]]

def Instance.toValue (i : Instance) : Value :=
  .object [("name", .str i.name), ("zone", .ofOption i.zone), ("health_state", .str i.health.name),
    ("health", healthReport i.health), ("provider", .str provider)]

def numberValue (n : Option Int) : Value :=
  (n.map Value.int).getD .null

def Capacity.toValue (c : Capacity) : Value :=
  .object [("min", numberValue c.min), ("max", numberValue c.max), ("desired", .ofNat c.desired)]

def ServerGroup.toValue (g : ServerGroup) : Value :=
  .object [("name", g.name), ("account", .ofOption g.account), ("region", .ofOption g.region),
    ("disabled", .bool g.disabled), ("capacity", g.capacity.toValue),
    ("instances", .list (g.instances.map Instance.toValue)), ("creation_time", g.creationTime),
    ("created_time", numberValue g.createdTime), ("launch_config", .object g.launchConfig),
    ("image", .object [("name", g.imageId), ("imageId", g.imageId)]),
    ("build_info", .object [("imageId", g.imageId)]), ("load_balancers", .list g.loadBalancers),
    ("attributes", .object g.attributes), ("cloud_provider", .str provider)]

def BalancedGroup.toValue (g : BalancedGroup) : Value :=
  .object [("name", g.name), ("is_disabled", .bool g.disabled), ("instances", .list g.instances),
    ("cloud_provider", .str provider)]

def LoadBalancer.toValue (b : LoadBalancer) : Value :=
  .object [("id", b.id), ("name", .ofOption b.name), ("account", .ofOption b.account),
    ("region", .ofOption b.region), ("vpc_id", .ofOption b.vpcId),
    ("server_groups", .list (b.serverGroups.map BalancedGroup.toValue)),
    ("cloud_provider", .str provider)]

def Cluster.toValue (c : Cluster) : Value :=
  .object [("name", c.name), ("account", c.account), ("application", c.application),
    ("server_groups", .list (c.serverGroups.map ServerGroup.toValue)),
    ("load_balancers", .list (c.loadBalancers.map LoadBalancer.toValue)),
    ("cloud_provider", .str provider)]

def ImageResult.toValue (i : ImageResult) : Value :=
  .object [("image_name", .ofOption i.imageName), ("attributes", .object i.attributes)]

/-- A member of a view with its default; a member without one is required. -/
abbrev Member := String × Option Value

def needed (name : String) : Member :=
  (name, none)

def withDefault (name : String) (value : Value) : Member :=
  (name, some value)

def layouts : List (String × List Member) :=
  [("Instance", [needed "name", withDefault "zone" .null, withDefault "health_state" (.str "Unknown"),
      withDefault "health" (.list []), withDefault "provider" (.str provider)]),
    ("Capacity", [withDefault "min" .null, withDefault "max" .null, withDefault "desired" .null]),
    ("ServerGroup", [needed "name", needed "account", needed "region", needed "disabled",
      needed "capacity", withDefault "instances" (.list []), withDefault "creation_time" .null,
      withDefault "created_time" .null, withDefault "launch_config" (.object []),
      withDefault "image" (.object []), withDefault "build_info" (.object []),
      withDefault "load_balancers" (.list []), withDefault "attributes" (.object []),
      withDefault "cloud_provider" (.str provider)]),
    ("LoadBalancerServerGroup", [needed "name", needed "is_disabled",
      withDefault "instances" (.list []), withDefault "cloud_provider" (.str provider)]),
    ("LoadBalancer", [needed "id", needed "name", needed "account", needed "region",
      withDefault "vpc_id" .null, withDefault "server_groups" (.list []),
      withDefault "cloud_provider" (.str provider)]),
    ("Cluster", [needed "name", needed "account", needed "application",
      withDefault "server_groups" (.list []), withDefault "load_balancers" (.list []),
      withDefault "cloud_provider" (.str provider)]),
    ("ImageResult", [needed "image_name", needed "attributes"])]

def fillMember (given : Attributes) (member : Member) : Except Fault (Atom × Value) :=
  match given.lookup (.str member.1), member.2 with
  | some v, _ => .ok (member.1, v)
  | none, some v => .ok (member.1, v)
  | none, none => .error (.wrongType ("missing required argument: " ++ member.1))

def refuseOthers (known : List String) (given : Attributes) : Except Fault Unit :=
  match given.find? (fun (name, _) => !known.any (fun k => Atom.str k == name)) with
  | some (name, _) => .error (.wrongType ("unexpected argument: " ++ name.text))
  | none => .ok ()

def HealthState.ofValue (v : Value) : Except Fault HealthState :=
  match [HealthState.up, .down, .unknown].find? (fun state => Value.str state.name == v) with
  | some state => .ok state
  | none => .error (.notOneOf "HealthState" v)

def healthStateView : String := "HealthState"

def fromMembers (view : String) (given : Attributes) : Except Fault Value := do
  if view = healthStateView then
    refuseOthers ["value"] given
    let (_, v) ← fillMember given (needed "value")
    let _ ← HealthState.ofValue v
    throw (.noAttribute "'HealthState' object has no attribute 'to_dict'")
  else
    match layouts.lookup view with
    | none => throw (.noAttribute ("there is no view '" ++ view ++ "'"))
    | some members =>
      refuseOthers (members.map (·.1)) given
      return .object (← members.mapM (fillMember given))

end FleetCache.Views
