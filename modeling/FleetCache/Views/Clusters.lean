import FleetCache.Views.Assemble

set_option autoImplicit false

namespace FleetCache.Views

open FleetCache.CacheStore

variable {σ : Type} [CacheStore σ]

def usableServerGroup (entity : Entity) : Traced (Option ServerGroup) :=
  (some <$> serverGroup entity).rescue (fun fault =>
    match fault with
    | .schema _ => do
      Traced.warn ("Dropping server group " ++ entity.id.text ++ " with unusable attributes: "
        ++ fault.logged)
      return none
    | other => Traced.fail other)

def assembleCluster (store : σ) (entity : Entity) : Traced Cluster := do
  let groups ← (← follow store entity .serverGroups).mapM usableServerGroup
  let balancers ← (← follow store entity .loadBalancers).mapM (loadBalancer [])
  return {
    name := nameOr (entity.attributes.get "name") (Key.lastFieldOf? entity.id) .null
    account := nameOr (entity.attributes.get "account") (Key.fieldOf? entity.id 0) .null
    application := nameOr (entity.attributes.get "application") (Key.fieldOf? entity.id 1) .null
    serverGroups := groups.filterMap id
    loadBalancers := balancers.filterMap id }

def assembleClusters (store : σ) (entities : List Entity) : Traced (List Cluster) :=
  entities.mapM (assembleCluster store)

/-- All clusters of an application by its name, unless the application is not stored. -/
def clusterDetails (store : σ) (application : Value) : Traced (Option (Atom × List Cluster)) := do
  let key ← liftKey (Key.application application.field?)
  match ← get store Namespace.applications.name key with
  | none => return none
  | some app =>
    let clusters ← assembleClusters store (← follow store app .clusters)
    return some (← application.toAtom, clusters)

def clusters (store : σ) (application account : Value) : Traced (List Cluster) := do
  let pattern ← liftKey (Key.searchPattern .clusters [account.field?, application.field?])
  let ids ← matching store Namespace.clusters.name pattern
  assembleClusters store (← getAll store Namespace.clusters.name (ids.map .str))

def cluster (store : σ) (application account name : Value) : Traced (Option Cluster) := do
  let key ← liftKey (Key.cluster name.field? application.field? account.field?)
  match ← get store Namespace.clusters.name key with
  | none => return none
  | some entity => some <$> assembleCluster store entity

def findServerGroup (store : σ) (account region name : Value) : Traced (Option ServerGroup) := do
  let key ← liftKey (Key.serverGroup name.field? account.field? region.field?)
  match ← get store Namespace.serverGroups.name key with
  | none => return none
  | some entity => usableServerGroup entity

def serverGroupIds (store : σ) (account region : Value) : Traced (List String) := do
  let pattern ← liftKey (Key.searchPattern .serverGroups [account.field?, region.field?])
  matching store Namespace.serverGroups.name pattern

end FleetCache.Views
