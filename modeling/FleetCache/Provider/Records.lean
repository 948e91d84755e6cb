import FleetCache.Value.Scalar
import FleetCache.Views.Model

set_option autoImplicit false

namespace FleetCache.Records

def elementsOf (v : Value) (name : String) : Except Fault (List Value) := do
  match (← v.members).lookup (.str name) with
  | none => return []
  | some items => items.elements

def listOf (v : Value) (name : String) : Except Fault Value :=
  (elementsOf v name).map .list

def inner (v : Value) (outer name : String) : Except Fault Value := do
  ((← v.member outer).orElse (.object [])).member name

def stamped (v : Value) (name : String) : Except Fault Value := do
  (← v.member name).stamped

def memberOr (v : Value) (name : String) (other : Value) : Except Fault Value := do
  return ((← v.members).lookup (.str name)).getD other

/-- Tags as members by their keys; a tag without a key is skipped. -/
def tags (v : Value) : Except Fault Value :=
  if !v.truthy then .ok (.object [])
  else do
    let pairs ← (← v.elements).filterMapM (fun tag => do
      let key ← tag.member "Key"
      if key.truthy then return some (← key.toAtom, ← memberOr tag "Value" "") else return none)
    return .object (Attributes.ofPairs pairs)

def disablingProcesses : List String :=
  ["Launch", "AddToLoadBalancer"]

def build (parts : List (Atom × Except Fault Value)) : Except Fault Attributes :=
  parts.mapM (fun (name, v) => v.map (fun v => (name, v)))

def groupMember (v : Value) : Except Fault Value :=
  (build [("instanceId", v.member "InstanceId"), ("healthStatus", v.member "HealthStatus"),
    ("lifecycleState", v.member "LifecycleState"), ("zoneId", v.member "AvailabilityZone"),
    ("instanceType", v.member "InstanceType")]).map .object

def launchTemplate (v : Value) : Except Fault Value := do
  let direct ← v.member "LaunchTemplate"
  if direct.truthy then return direct
  else
    let policy := (← v.member "MixedInstancesPolicy").orElse (.object [])
    (← memberOr policy "LaunchTemplate" (.object [])).member "LaunchTemplateSpecification"

def scalingGroup (v : Value) : Except Fault Attributes := do
  let named ← (← elementsOf v "SuspendedProcesses").mapM (fun p =>
    (p.member "ProcessName").bind Value.toAtom)
  let suspended := distinctAtoms named
  let status ← v.member "Status"
  let disabled := suspended.any (fun p => disablingProcesses.any (fun d => p == .str d))
  let template ← launchTemplate v
  let config ← v.member "LaunchConfigurationName"
  let active :=
    if config.truthy then .ok config else (template.orElse (.object [])).member "LaunchTemplateId"
  build [("scalingGroupId", v.member "AutoScalingGroupARN"),
    ("scalingGroupName", v.required "AutoScalingGroupName"),
    ("activeScalingConfigurationId", active),
    ("launchConfigurationName", .ok config),
    ("launchTemplate", .ok template),
    ("lifecycleState",
      .ok (.str (if status.truthy || disabled then Views.inactiveState else Views.activeState))),
    ("minSize", v.member "MinSize"),
    ("maxSize", v.member "MaxSize"),
    ("desiredCapacity", v.member "DesiredCapacity"),
    ("creationTime", stamped v "CreatedTime"),
    ("loadBalancerIds", listOf v "LoadBalancerNames"),
    ("targetGroupArns", listOf v "TargetGroupARNs"),
    ("availabilityZones", listOf v "AvailabilityZones"),
    ("vpcZoneIdentifier", v.member "VPCZoneIdentifier"),
    ("suspendedProcesses", (sortAtoms (suspended.filter Atom.truthy)).map .list),
    ("tags", (v.member "Tags").bind tags),
    ("instances", (elementsOf v "Instances").bind (fun items => (items.mapM groupMember).map .list))]

def machine (v region : Value) : Except Fault Attributes :=
  build [("instanceId", v.member "InstanceId"),
    ("instanceType", v.member "InstanceType"),
    ("zoneId", inner v "Placement" "AvailabilityZone"),
    ("regionId", .ok region),
    ("state", inner v "State" "Name"),
    ("privateIpAddress", v.member "PrivateIpAddress"),
    ("publicIpAddress", v.member "PublicIpAddress"),
    ("imageId", v.member "ImageId"),
    ("launchTime", stamped v "LaunchTime"),
    ("vpcId", v.member "VpcId"),
    ("subnetId", v.member "SubnetId"),
    ("tags", (v.member "Tags").bind tags)]

def listener (v : Value) : Except Fault Value :=
  (build [("protocol", inner v "Listener" "Protocol"),
    ("loadBalancerPort", inner v "Listener" "LoadBalancerPort"),
    ("instancePort", inner v "Listener" "InstancePort")]).map .object

def loadBalancer (v region : Value) : Except Fault Attributes := do
  let name ← v.member "LoadBalancerName"
  let instances := do
    let ids ← (← elementsOf v "Instances").mapM (fun i => i.member "InstanceId")
    return Value.list (ids.filter Value.truthy)
  build [("loadBalancerId", .ok name),
    ("loadBalancerName", .ok name),
    ("regionIdAlias", .ok region),
    ("vpcId", v.member "VPCId"),
    ("dnsName", v.member "DNSName"),
    ("scheme", v.member "Scheme"),
    ("createdTime", stamped v "CreatedTime"),
    ("availabilityZones", listOf v "AvailabilityZones"),
    ("instances", instances),
    ("listeners",
      (elementsOf v "ListenerDescriptions").bind (fun items => (items.mapM listener).map .list))]

def image (v owner : Value) : Except Fault Attributes :=
  build [("imageId", v.member "ImageId"),
    ("imageName", v.member "Name"),
    ("imageOwnerAlias", (v.member "ImageOwnerAlias").map (fun named => named.orElse owner)),
    ("ownerId", v.member "OwnerId"),
    ("architecture", v.member "Architecture"),
    ("platform", v.member "PlatformDetails"),
    ("status", v.member "State"),
    ("creationTime", stamped v "CreationDate"),
    ("description", v.member "Description"),
    ("isPublic", v.member "Public"),
    ("tags", (v.member "Tags").bind tags)]

def launchConfiguration (name v : Value) : Except Fault Attributes :=
  build [("scalingConfigurationId", .ok name),
    ("scalingConfigurationName", .ok name),
    ("imageId", v.member "ImageId"),
    ("instanceType", v.member "InstanceType"),
    ("keyName", v.member "KeyName"),
    ("securityGroups", listOf v "SecurityGroups"),
    ("creationTime", stamped v "CreatedTime")]

def templateVersion (id template v : Value) : Except Fault Attributes := do
  let data := (← v.member "LaunchTemplateData").orElse (.object [])
  let name ← v.member "LaunchTemplateName"
  build [("scalingConfigurationId", .ok id),
    ("scalingConfigurationName",
      if name.truthy then .ok name else template.member "LaunchTemplateName"),
    ("version", v.member "VersionNumber"),
    ("imageId", data.member "ImageId"),
    ("instanceType", data.member "InstanceType"),
    ("keyName", data.member "KeyName"),
    ("securityGroups", listOf data "SecurityGroupIds")]

end FleetCache.Records
