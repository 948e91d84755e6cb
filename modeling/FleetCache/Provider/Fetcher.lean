import FleetCache.Provider.Cloud
import FleetCache.Provider.Listing
import FleetCache.Provider.Records

set_option autoImplicit false

namespace FleetCache

open FleetCache.Text

abbrev Details := List (Atom × Attributes)

structure Provider where
  scalingGroups : Listing Value
  scalingConfiguration : Attributes → Traced (Option Attributes)
  loadBalancer : Value → Traced Attributes
  details : List Value → Traced Details
  instances : Listing Attributes
  images : Value → Listing Attributes
  zones : Listing Attributes
  loadBalancers : Listing Attributes

def Details.put : Details → Atom → Attributes → Details
  | [], id, record => [(id, record)]
  | (key, old) :: rest, id, record =>
    if id == key then (key, record) :: rest else (key, old) :: put rest id record

def Details.update (details more : Details) : Details :=
  more.foldl (fun acc (id, record) => Details.put acc id record) details

def defaultPageSize : Int := 50

structure Fetcher where
  cloud : Cloud
  account : String
  region : String
  pageSize : Value

namespace Fetcher

def name (f : Fetcher) : String :=
  provider ++ "/" ++ f.account ++ "/" ++ f.region

def listingFailure (f : Fetcher) (method : String) (failure : CloudFailure) : Fault :=
  .listing f.name (method ++ " failed: " ++ failure.code)

def abort {α : Type} (f : Fetcher) (method : String) (failure : CloudFailure) : Traced α := do
  Traced.error (f.name ++ ": " ++ method ++ " failed: " ++ failure.code)
  Traced.fail (f.listingFailure method failure)

def goodPages (pages : List (Except CloudFailure Value)) : List Value × Option CloudFailure :=
  match pages with
  | [] => ([], none)
  | .error failure :: _ => ([], some failure)
  | .ok page :: rest =>
    let (good, failure) := goodPages rest
    (page :: good, failure)

def paginate (f : Fetcher) (call results : String) (arguments : Attributes) : Listing Value :=
  let arguments : Attributes :=
    ("PaginationConfig", .object [("PageSize", f.pageSize)]) :: arguments
  let (pages, failure) := goodPages (f.cloud.pages call arguments)
  let ending :=
    match failure with
    | none => pure ()
    | some failure => f.abort (Cloud.methodName call) failure
  (⟨[.call call arguments], pages, ending⟩ : Listing Value).expand (fun page =>
    Records.elementsOf page results)

def listAtOnce (f : Fetcher) (call results : String) (arguments : Attributes) :
    Traced (List Value) := do
  Traced.call call arguments
  match f.cloud.ask call arguments with
  | .error failure => f.abort (Cloud.methodName call) failure
  | .ok answer => Records.elementsOf answer results

def lookUp (f : Fetcher) (call : String) (resource : Value) (arguments : Attributes) : Traced Value := do
  Traced.call call arguments
  match f.cloud.ask call arguments with
  | .error failure =>
    Traced.fail (.lookup ⟨Cloud.methodName call, resource, failure.code⟩)
  | .ok answer => return answer

/-- The first item of a lookup; a lookup without items is one that found nothing. -/
def lookUpFirst (f : Fetcher) (call : String) (resource : Value) (arguments : Attributes)
    (results code : String) : Traced Value := do
  let answer ← f.lookUp call resource arguments
  let found ← Records.memberOr answer results (.list [])
  if !found.truthy then Traced.fail (.lookup ⟨Cloud.methodName call, resource, code⟩)
  else
    found.first

def scalingConfiguration (f : Fetcher) (group : Attributes) : Traced (Option Attributes) := do
  let name := group.get "launchConfigurationName"
  let template := group.get "launchTemplate"
  if name.truthy then
    let config ← f.lookUpFirst "autoscaling.describe_launch_configurations" name
      [("LaunchConfigurationNames", .list [name])] "LaunchConfigurations" "LaunchConfigurationNotFound"
    return some (← Records.launchConfiguration name config)
  else if !template.truthy then return none
  else
    let id ← template.member "LaunchTemplateId"
    if !id.truthy then return none
    else
      let version := (← template.member "Version").orElse (.str "$Default")
      let found ← f.lookUpFirst "ec2.describe_launch_template_versions" id
        [("LaunchTemplateId", id), ("Versions", .list [version])] "LaunchTemplateVersions"
        "LaunchTemplateNotFound"
      return some (← Records.templateVersion id template found)

def withAccount (f : Fetcher) (record : Attributes) : Attributes :=
  record.put "account" (.str f.account)

def loadBalancer (f : Fetcher) (id : Value) : Traced Attributes := do
  let found ← f.lookUpFirst "elb.describe_load_balancers" id [("LoadBalancerNames", .list [id])]
    "LoadBalancerDescriptions" "LoadBalancerNotFound"
  return f.withAccount (← Records.loadBalancer found (.str f.region))

def addInstance (f : Fetcher) (details : Details) (v : Value) : Except Fault Details := do
  let record ← Records.machine v (.str f.region)
  return Details.put details (← (record.get "instanceId").toAtom) record

def addReservation (f : Fetcher) (details : Details) (reservation : Value) : Except Fault Details := do
  (← Records.elementsOf reservation "Instances").foldlM f.addInstance details

def joinIds (ids : List Value) : Except Fault String := do
  return join "," (← textsOf ids)

def batch (f : Fetcher) (ids : List Value) : Traced Details := do
  let resource ← joinIds ids
  let answer ← f.lookUp "ec2.describe_instances" resource [("InstanceIds", .list ids)]
  let reservations ← Records.elementsOf answer "Reservations"
  Traced.ofExcept (reservations.foldlM f.addReservation [])

/-- The instances of several ids by one call for each; missing ones are skipped. -/
def singly (f : Fetcher) (ids : List Value) : Traced Details :=
  ids.foldlM (fun found id =>
    ((f.batch [id]).rescue (fun fault =>
      match fault with
      | .lookup failure => do
        if ← (failure.notFound : Traced Bool) then
          Traced.info (f.name ++ ": instance " ++ id.text ++ " -> NotFound")
          return []
        else Traced.fail fault
      | other => Traced.fail other)) >>= fun more => pure (Details.update found more)) []

def details (f : Fetcher) (ids : List Value) : Traced Details :=
  let ids := ids.filter Value.truthy
  if ids.isEmpty then pure []
  else
    (f.batch ids).rescue (fun fault =>
      match fault with
      | .lookup failure => do
        if !(← (failure.notFound : Traced Bool)) || ids.length == 1 then Traced.fail fault
        else
          Traced.info (f.name ++ ": " ++ failure.code.text ++ "; describing instances one at a time")
          f.singly ids
      | other => Traced.fail other)

def scalingGroups (f : Fetcher) : Listing Attributes :=
  (f.paginate "autoscaling.describe_auto_scaling_groups" "AutoScalingGroups" []).convert
    Records.scalingGroup

def instances (f : Fetcher) : Listing Attributes :=
  ((f.paginate "ec2.describe_instances" "Reservations" []).expand (fun reservation =>
    Records.elementsOf reservation "Instances")).convert (fun v => Records.machine v (.str f.region))

def images (f : Fetcher) (owner : Value) : Listing Attributes :=
  (f.paginate "ec2.describe_images" "Images" [("Owners", .list [owner])]).convert
    (fun v => Records.image v owner)

def loadBalancers (f : Fetcher) : Listing Attributes :=
  (f.paginate "elb.describe_load_balancers" "LoadBalancerDescriptions" []).convert (fun v =>
    (Records.loadBalancer v (.str f.region)).map f.withAccount)

def offering (v : Value) : Except Fault (Atom × Value) := do
  let zone ← (← v.member "Location").toAtom
  return (zone, ← v.member "InstanceType")

def zoneRecord (f : Fetcher) (offered : List (Atom × Value)) (zone : Value) : Except Fault Attributes := do
  let place ← zone.toAtom
  let types := (offered.filter (fun entry => entry.1 == place)).map (·.2)
  return [("zoneId", zone), ("regionId", f.region), ("names", .list (← sortValues types))]

def zonesAndOfferings (f : Fetcher) : Traced (List Value × List (Atom × Value)) := do
  let zones ← f.listAtOnce "ec2.describe_availability_zones" "AvailabilityZones"
    [("Filters", .list [.object [("Name", "state"), ("Values", .strings ["available"])]])]
  let names ← zones.mapM (fun zone => (zone.member "ZoneName" : Traced Value))
  let offerings ← ((f.paginate "ec2.describe_instance_type_offerings" "InstanceTypeOfferings"
    [("LocationType", "availability-zone")]).convert offering).collect
  return (names, offerings)

/-- The zones with the instance types offered in them; nothing is handed out before both listings have
come to their end. -/
def zones (f : Fetcher) : Listing Attributes :=
  let work := f.zonesAndOfferings
  match work.result with
  | .error fault => .failed work.events fault
  | .ok (zones, offerings) =>
    (⟨work.events, zones, pure ()⟩ : Listing Value).convert (f.zoneRecord offerings)

def provider (f : Fetcher) : Provider :=
  { scalingGroups := f.scalingGroups.convert (fun group => .ok (.object group))
    scalingConfiguration := f.scalingConfiguration
    loadBalancer := f.loadBalancer
    details := f.details
    instances := f.instances
    images := f.images
    zones := f.zones
    loadBalancers := f.loadBalancers }

end Fetcher

end FleetCache
