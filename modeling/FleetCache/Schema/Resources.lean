import FleetCache.Schema.Check
import FleetCache.Value.Scalar

set_option autoImplicit false

namespace FleetCache.Schema

structure Member where
  instanceId : Option String
  healthStatus : Option String
  lifecycleState : Option String
  zoneId : Option String
  extras : Attributes

structure ScalingGroup where
  scalingGroupId : Option String
  scalingGroupName : Option String
  lifecycleState : Option String
  minSize : Option Int
  maxSize : Option Int
  desiredCapacity : Option Int
  creationTime : Value
  loadBalancerIds : List String
  extras : Attributes

structure ServerGroup where
  name : Option String
  application : Option String
  account : Option String
  region : Option String
  launchConfigName : Option String
  scalingGroup : ScalingGroup
  scalingConfiguration : Attributes
  instances : List Member
  loadBalancers : List Attributes
  extras : Attributes

structure Machine where
  instanceId : Option String
  instanceType : Option String
  zoneId : Option String
  state : Option String
  privateIpAddress : Option String
  launchTime : Value
  extras : Attributes

structure Balancer where
  loadBalancerId : Option String
  loadBalancerName : Option String
  account : Option String
  regionIdAlias : Option String
  vpcId : Option String
  dnsName : Option String
  extras : Attributes

structure Image where
  imageId : Option String
  imageName : Option String
  extras : Attributes

def text (members : Attributes) (name : String) : Checked (Option String) :=
  optional members name none asTextOrNull

def anything (members : Attributes) (name : String) : Checked Value :=
  optional members name .null pure

def size (members : Attributes) (name : String) : Checked (Option Int) :=
  optional members name none (fun v =>
    match v.wholeNumber (.str name) with
    | .ok n => pure n
    | .error fault => ⟨[.log .warning (fault.message ++ "; leaving it unset")], .ok none⟩)

def Member.check (members : Attributes) : Checked Member :=
  (Member.mk <$> text members "instanceId" <*> text members "healthStatus"
    <*> text members "lifecycleState" <*> text members "zoneId") <*>
    Schema.extras members ["instanceId", "healthStatus", "lifecycleState", "zoneId"]

def ScalingGroup.fieldNames : List String :=
  ["scalingGroupId", "scalingGroupName", "lifecycleState", "minSize", "maxSize", "desiredCapacity",
    "creationTime", "loadBalancerIds"]

def ScalingGroup.check (members : Attributes) : Checked ScalingGroup :=
  ScalingGroup.mk <$> text members "scalingGroupId" <*> text members "scalingGroupName"
    <*> text members "lifecycleState" <*> size members "minSize" <*> size members "maxSize"
    <*> size members "desiredCapacity" <*> anything members "creationTime"
    <*> optional members "loadBalancerIds" [] (asList asText)
    <*> Schema.extras members ScalingGroup.fieldNames

def ScalingGroup.empty : ScalingGroup :=
  ⟨none, none, none, none, none, none, .null, [], []⟩

def ServerGroup.fieldNames : List String :=
  ["name", "application", "account", "region", "launchConfigName", "scalingGroup",
    "scalingConfiguration", "instances", "loadBalancers"]

def ServerGroup.check (members : Attributes) : Checked ServerGroup :=
  ServerGroup.mk <$> text members "name" <*> text members "application" <*> text members "account"
    <*> text members "region" <*> text members "launchConfigName"
    <*> optional members "scalingGroup" ScalingGroup.empty
      (fun v => asRecord ScalingGroup.check (nullAs (.object []) v))
    <*> optional members "scalingConfiguration" [] (fun v => asObject (nullAs (.object []) v))
    <*> optional members "instances" []
      (fun v => asList (asRecord Member.check) (nullAs (.list []) v))
    <*> optional members "loadBalancers" [] (fun v => asList asObject (nullAs (.list []) v))
    <*> Schema.extras members ServerGroup.fieldNames

def Machine.check (members : Attributes) : Checked Machine :=
  Machine.mk <$> text members "instanceId" <*> text members "instanceType" <*> text members "zoneId"
    <*> text members "state" <*> text members "privateIpAddress" <*> anything members "launchTime"
    <*> Schema.extras members
      ["instanceId", "instanceType", "zoneId", "state", "privateIpAddress", "launchTime"]

def Balancer.check (members : Attributes) : Checked Balancer :=
  Balancer.mk <$> text members "loadBalancerId" <*> text members "loadBalancerName"
    <*> text members "account" <*> text members "regionIdAlias" <*> text members "vpcId"
    <*> text members "dnsName"
    <*> Schema.extras members
      ["loadBalancerId", "loadBalancerName", "account", "regionIdAlias", "vpcId", "dnsName"]

def Image.check (members : Attributes) : Checked Image :=
  Image.mk <$> text members "imageId" <*> text members "imageName"
    <*> Schema.extras members ["imageId", "imageName"]

def record (named others : Attributes) : Value :=
  .object (named ++ others)

def sizeValue (n : Option Int) : Value :=
  (n.map Value.int).getD .null

def Member.toValue (m : Member) : Value :=
  record [("instanceId", .ofOption m.instanceId), ("healthStatus", .ofOption m.healthStatus),
    ("lifecycleState", .ofOption m.lifecycleState), ("zoneId", .ofOption m.zoneId)] m.extras

def ScalingGroup.toValue (g : ScalingGroup) : Value :=
  record [("scalingGroupId", .ofOption g.scalingGroupId),
    ("scalingGroupName", .ofOption g.scalingGroupName), ("lifecycleState", .ofOption g.lifecycleState),
    ("minSize", sizeValue g.minSize), ("maxSize", sizeValue g.maxSize),
    ("desiredCapacity", sizeValue g.desiredCapacity), ("creationTime", g.creationTime),
    ("loadBalancerIds", .strings g.loadBalancerIds)] g.extras

def ServerGroup.toValue (g : ServerGroup) : Value :=
  record [("name", .ofOption g.name), ("application", .ofOption g.application),
    ("account", .ofOption g.account), ("region", .ofOption g.region),
    ("launchConfigName", .ofOption g.launchConfigName), ("scalingGroup", g.scalingGroup.toValue),
    ("scalingConfiguration", .object g.scalingConfiguration),
    ("instances", .list (g.instances.map Member.toValue)),
    ("loadBalancers", .list (g.loadBalancers.map Value.object))] g.extras

def Machine.toValue (m : Machine) : Value :=
  record [("instanceId", .ofOption m.instanceId), ("instanceType", .ofOption m.instanceType),
    ("zoneId", .ofOption m.zoneId), ("state", .ofOption m.state),
    ("privateIpAddress", .ofOption m.privateIpAddress), ("launchTime", m.launchTime)] m.extras

def Balancer.toValue (b : Balancer) : Value :=
  record [("loadBalancerId", .ofOption b.loadBalancerId),
    ("loadBalancerName", .ofOption b.loadBalancerName), ("account", .ofOption b.account),
    ("regionIdAlias", .ofOption b.regionIdAlias), ("vpcId", .ofOption b.vpcId),
    ("dnsName", .ofOption b.dnsName)] b.extras

def Image.toValue (i : Image) : Value :=
  record [("imageId", .ofOption i.imageId), ("imageName", .ofOption i.imageName)] i.extras

end FleetCache.Schema
