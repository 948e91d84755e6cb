import FleetCache.Provider.Fetcher

set_option autoImplicit false

namespace FleetCache

inductive Interruption where
  | before (cause : String)
  | after (cause : String)

abbrev Held := Except Value Value

structure Recording where
  name : String
  interruption : Option Interruption
  scalingGroups : List Value
  instances : List Value
  zones : List Value
  loadBalancers : List Value
  images : List (Atom × List Value)
  configurations : List (Atom × Held)
  balancers : List (Atom × Held)
  details : Except Value (List (Atom × Value))

namespace Recording

def listing (r : Recording) (what : String) (records : List Value) : Listing Value :=
  let failure := fun (cause : String) => Fault.listing r.name (what ++ " failed: " ++ cause)
  match r.interruption with
  | some (.before cause) => .failed [] (failure cause)
  | some (.after cause) => ⟨[], records, Traced.fail (failure cause)⟩
  | none => .ofList records

def members (r : Recording) (what : String) (records : List Value) : Listing Attributes :=
  (r.listing what records).convert Value.members

def membersOf (v : Value) : Except Fault Attributes :=
  if v.truthy then v.members else .ok []

def found (operation : String) (id : Value) : Held → Traced Attributes
  | .ok record => membersOf record
  | .error code => Traced.fail (.lookup ⟨operation, id, code⟩)

def scalingConfiguration (r : Recording) (group : Attributes) : Traced (Option Attributes) := do
  let name := group.get "launchConfigurationName"
  match r.configurations.lookup (← name.toAtom) with
  | some held => some <$> found "describe_scaling_configuration" name held
  | none => pure none

def loadBalancer (r : Recording) (id : Value) : Traced Attributes := do
  found "describe_load_balancers" id
    ((r.balancers.lookup (← id.toAtom)).getD (.error "LoadBalancerNotFound"))

def detailsOf (r : Recording) (ids : List Value) : Traced Details :=
  match r.details with
  | .error code => do
    Traced.fail (.lookup ⟨"describe_instances", ← Fetcher.joinIds ids, code⟩)
  | .ok known => do
    let names ← ids.mapM (fun id => (id.toAtom : Traced Atom))
    let entries ← (distinctAtoms names).mapM (fun id =>
      match known.lookup id with
      | none => pure none
      | some record => (fun members => some (id, members)) <$> (membersOf record : Traced Attributes))
    return entries.filterMap id

def provider (r : Recording) : Provider :=
  { scalingGroups := r.listing "groups" r.scalingGroups
    scalingConfiguration := r.scalingConfiguration
    loadBalancer := r.loadBalancer
    details := r.detailsOf
    instances := r.members "instances" r.instances
    images := fun owner =>
      r.members "images" ((owner.atom?.bind (fun name => r.images.lookup name)).getD [])
    zones := r.members "zones" r.zones
    loadBalancers := r.members "load_balancers" r.loadBalancers }

end Recording

end FleetCache
