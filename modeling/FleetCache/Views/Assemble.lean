import FleetCache.Schema.Resources
import FleetCache.Views.Model

set_option autoImplicit false

namespace FleetCache.Views

open FleetCache.CacheStore FleetCache.Text

variable {σ : Type} [CacheStore σ]

def fetch (store : σ) (ns : Namespace) (ids : AtomSet) : Traced (List Entity) := do
  if ids.isEmpty then return []
  else getAll store ns.name (← ascending ids.toList)

def follow (store : σ) (source : Entity) (ns : Namespace) : Traced (List Entity) :=
  fetch store ns (source.related ns.name)

def followAll (store : σ) (sources : List Entity) (ns : Namespace) : Traced (List Entity) :=
  fetch store ns (sources.foldl (fun ids source => ids.addAll (source.related ns.name).toList) ∅)

/-- The attributes of an entity by a schema; the entity is logged and left out when they do not fit. -/
def checkedAttributes {α : Type} (check : Attributes → Checked α) (entity : Entity) :
    Traced (Option α) :=
  (some <$> (check entity.attributes).run).rescue (fun fault => do
    Traced.warn ("Dropping " ++ entity.ns.text ++ " " ++ entity.id.text ++ " with unusable attributes: "
      ++ fault.logged)
    return none)

def healthState (status lifecycle : Option String) : HealthState :=
  if lifecycle = some activeState ∧ status = some healthyStatus then .up else .down

/-- The creation time in milliseconds; one that cannot be read is logged and left unset. -/
def createdTime (v : Value) : Traced (Option Int) :=
  match v with
  | .null => pure none
  | other =>
    match other.epochMillis ("creationTime" : String) with
    | .ok n => pure (some n)
    | .error fault => do
      Traced.warn (fault.message ++ "; leaving createdTime unset")
      return none

def present (text : Option String) : Option String :=
  text.filter (fun s => s != "")

def groupInstances (group : Schema.ServerGroup) : List Instance :=
  group.instances.filterMap (fun member =>
    (present member.instanceId).map (fun id =>
      ⟨id, member.zoneId, healthState member.healthStatus group.scalingGroup.lifecycleState⟩))

def balancerName (record : Attributes) : Option Value :=
  let name := (record.get "loadBalancerName").orElse (record.get "loadBalancerId")
  if name.truthy then some name else none

def nameOr (v : Value) (fromKey : Option String) (other : Value) : Value :=
  if v.truthy then v else (fromKey.map Value.str).getD other

/-- A server group from its cached attributes, unless these do not fit the schema. -/
def serverGroup (entity : Entity) : Traced ServerGroup := do
  let group ← (Schema.ServerGroup.check entity.attributes).run
  let instances := groupInstances group
  let created ← createdTime group.scalingGroup.creationTime
  return {
    name := nameOr (.ofOption group.name) (Key.lastFieldOf? entity.id) entity.id
    account := (present group.account).or (Key.fieldOf? entity.id 0)
    region := (present group.region).or (Key.fieldOf? entity.id 1)
    disabled := group.scalingGroup.lifecycleState != some activeState
    capacity := ⟨group.scalingGroup.minSize, group.scalingGroup.maxSize, instances.length⟩
    instances := instances
    creationTime := group.scalingGroup.creationTime
    createdTime := created
    launchConfig := group.scalingConfiguration
    imageId := group.scalingConfiguration.get "imageId"
    loadBalancers := group.loadBalancers.filterMap balancerName
    attributes := entity.attributes }

def instanceName (entity : Entity) : Traced Value := do
  let attributes ← checkedAttributes Schema.Machine.check entity
  return nameOr (.ofOption (attributes.bind Schema.Machine.instanceId)) (Key.lastFieldOf? entity.id)
    entity.id

def balancedGroup (entity : Entity) (instances : List Entity) : Traced BalancedGroup := do
  let group := entity.attributes.get "scalingGroup"
  let lifecycle ← (group.orElse (.object [])).member "lifecycleState"
  let related ← ascending (entity.related Namespace.instances.name).toList
  let members := related.filterMap (fun key => instances.find? (fun e => e.id == key))
  let names ← members.mapM instanceName
  return {
    name := nameOr (entity.attributes.get "name") (Key.lastFieldOf? entity.id) entity.id
    disabled := lifecycle.string? != some activeState
    instances := names }

def loadBalancer (groups : List (Atom × BalancedGroup)) (entity : Entity) :
    Traced (Option LoadBalancer) := do
  match ← checkedAttributes Schema.Balancer.check entity with
  | none => return none
  | some a =>
    let related ← ascending (entity.related Namespace.serverGroups.name).toList
    return some {
      id := entity.id
      name := (present a.loadBalancerName).or (Key.fieldOf? entity.id 2)
      account := (present a.account).or (Key.fieldOf? entity.id 0)
      region := (present a.regionIdAlias).or (Key.fieldOf? entity.id 1)
      vpcId := a.vpcId
      serverGroups := related.filterMap (fun key => groups.lookup key) }

end FleetCache.Views
