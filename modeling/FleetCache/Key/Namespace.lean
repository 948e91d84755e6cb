import FleetCache.Value.Display

set_option autoImplicit false

namespace FleetCache

inductive Namespace where
  | applications
  | clusters
  | serverGroups
  | instances
  | loadBalancers
  | launchConfigs
  | images
  | namedImages
  | instanceTypes
  deriving DecidableEq

namespace Namespace

def all : List Namespace :=
  [applications, clusters, serverGroups, instances, loadBalancers, launchConfigs, images, namedImages,
    instanceTypes]

def name : Namespace → String
  | applications => "application"
  | clusters => "cluster"
  | serverGroups => "serverGroup"
  | instances => "instance"
  | loadBalancers => "loadBalancer"
  | launchConfigs => "launchConfig"
  | images => "image"
  | namedImages => "namedImage"
  | instanceTypes => "instanceType"

def ofName? (text : String) : Option Namespace :=
  all.find? (fun ns => ns.name == text)

def fieldNames : Namespace → List String
  | applications => ["application"]
  | clusters => ["account", "application", "cluster"]
  | serverGroups => ["account", "region", "serverGroup"]
  | instances => ["account", "region", "instanceId"]
  | loadBalancers => ["account", "region", "loadBalancer", "vpcId"]
  | launchConfigs => ["account", "region", "launchConfig"]
  | images => ["account", "region", "imageId"]
  | namedImages => ["account", "imageName"]
  | instanceTypes => ["account", "region", "zoneId"]

def total (ns : Namespace) : Nat :=
  ns.fieldNames.length

def optional : Namespace → Nat
  | loadBalancers => 1
  | _ => 0

def required (ns : Namespace) : Nat :=
  ns.total - ns.optional

theorem name_injective {a b : Namespace} (h : a.name = b.name) : a = b := by
  revert h
  cases a <;> cases b <;> decide

theorem ofName?_name (ns : Namespace) : ofName? ns.name = some ns := by
  cases ns <;> decide

theorem name_of_ofName? {text : String} {ns : Namespace} (h : ofName? text = some ns) :
    ns.name = text := by
  simpa using List.find?_some h

theorem required_pos (ns : Namespace) : 0 < ns.required := by
  cases ns <;> decide

theorem required_le_total (ns : Namespace) : ns.required ≤ ns.total := by
  cases ns <;> decide

end Namespace

end FleetCache
