import FleetCache.Naming
import FleetCache.Views.Assemble

set_option autoImplicit false

namespace FleetCache.Views

open FleetCache.CacheStore

variable {σ : Type} [CacheStore σ]

def vpcSuffix : String := ":vpc-"

def namedAfter (key : Atom) (application : Value) : Except Fault Bool :=
  match Key.fieldOf? key 2 with
  | none => .ok false
  | some name =>
    if name = "" then .ok false
    else if Value.str name == application then .ok true
    else (Names.parse name).map (fun names => Value.str names.app == application)

def assembleBalancers (store : σ) (entities : List Entity) : Traced (List LoadBalancer) := do
  let groups ← followAll store entities .serverGroups
  let instances ← followAll store groups .instances
  let balanced ← groups.mapM (fun group => do
    let shown ← balancedGroup group instances
    pure (group.id, shown))
  let assembled ← entities.mapM (loadBalancer balanced)
  return assembled.filterMap id

def loadBalancers (store : σ) : Traced (List LoadBalancer) := do
  assembleBalancers store (← contents store Namespace.loadBalancers.name)

def addsNetwork (key id : Atom) : Except Fault Bool :=
  match key, id with
  | .str s, .str t => .ok ((s ++ vpcSuffix).toList.isPrefixOf t.toList)
  | .str _, other => .error (.noAttribute ("'" ++ (Value.atom other).typeName
      ++ "' object has no attribute 'startswith'"))
  | other, _ => .error (.wrongType ("unsupported operand types for +: '" ++ (Value.atom other).typeName
      ++ "' and 'str'"))

/-- The ids that server groups refer to, and the stored ids that only add a virtual network to them. -/
def referenced (groups : List Entity) (stored : List Atom) : Except Fault (List Atom) := do
  let keys := groups.flatMap (fun group => (group.related Namespace.loadBalancers.name).toList)
  return (← keys.mapM (fun key => do return key :: (← stored.filterM (addsNetwork key)))).flatten

def applicationLoadBalancers (store : σ) (application : Value) : Traced (List LoadBalancer) := do
  let stored ← identifiers store Namespace.loadBalancers.name
  let key ← liftKey (Key.application application.field?)
  let used ←
    match ← get store Namespace.applications.name key with
    | none => pure []
    | some app => do
      let groups ← follow store app .serverGroups
      (referenced groups stored : Except Fault (List Atom))
  let named ← (stored.filterM (fun k => namedAfter k application) : Except Fault (List Atom))
  assembleBalancers store
    (← getAll store Namespace.loadBalancers.name (← ascending (distinctAtoms (used ++ named))))

def loadBalancersNamed (store : σ) (account region name : Value) : Traced (List Attributes) := do
  let pattern ← liftKey
    (Key.searchPattern .loadBalancers [account.field?, region.field?, name.field?])
  let ids ← matching store Namespace.loadBalancers.name pattern
  let named := ids.filter (fun id => Value.ofOption (Key.field? id 2) == name)
  let found ← getAll store Namespace.loadBalancers.name (named.map .str)
  return found.map EntityOf.attributes

end FleetCache.Views
