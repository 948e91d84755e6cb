import FleetCache.Api.Target

set_option autoImplicit false

namespace FleetCache.Api

inductive Route where
  | health
  | agents
  | metrics
  | findImages
  | clusterDetails (application : String)
  | accountClusters (application account : String)
  | cluster (application account name : String)
  | serverGroup (account region name : String)
  | applicationLoadBalancers (application : String)
  | loadBalancers
  | loadBalancer (account region name : String)
  | staticFile
  deriving DecidableEq

namespace Route

def rule : Route → String
  | health => "/health"
  | agents => "/agents"
  | metrics => "/metrics"
  | findImages => "/images/find"
  | clusterDetails _ => "/applications/<application>/clusters"
  | accountClusters _ _ => "/applications/<application>/clusters/<account>"
  | cluster _ _ _ => "/applications/<application>/clusters/<account>/<name>"
  | serverGroup _ _ _ => "/serverGroups/<account>/<region>/<name>"
  | applicationLoadBalancers _ => "/applications/<application>/loadBalancers"
  | loadBalancers => "/loadBalancers"
  | loadBalancer _ _ _ => "/loadBalancers/<account>/<region>/<name>"
  | staticFile => "/static/<path:filename>"

def ofFullSegments : List String → Option Route
  | ["health"] => some health
  | ["agents"] => some agents
  | ["metrics"] => some metrics
  | ["images", "find"] => some findImages
  | ["applications", application, "clusters"] => some (clusterDetails application)
  | ["applications", application, "clusters", account] => some (accountClusters application account)
  | ["applications", application, "clusters", account, name] => some (cluster application account name)
  | ["serverGroups", account, region, name] => some (serverGroup account region name)
  | ["applications", application, "loadBalancers"] => some (applicationLoadBalancers application)
  | ["loadBalancers"] => some loadBalancers
  | ["loadBalancers", account, region, name] => some (loadBalancer account region name)
  | _ => none

def staticFolder : List Char := "/static/".toList

/-- Whether a static file may have a name: it does not start with a slash, and has no line end behind its
first character. -/
def isFileName (name : List Char) : Bool :=
  match name with
  | [] => false
  | c :: rest => c != '/' && !rest.contains '\n'

def ofPath? (path : List Char) : Option Route :=
  if staticFolder.isPrefixOf path then
    if isFileName (path.drop staticFolder.length) then some staticFile else none
  else
    let segments := Target.segments path
    if segments.contains "" then none else ofFullSegments segments

inductive Destination where
  | found (route : Route)
  | moved
  | unknown
  deriving DecidableEq

/-- Where a path leads; one that leads somewhere with fewer slashes has moved. -/
def resolve (path : List Char) : Destination :=
  match ofPath? path with
  | some route => .found route
  | none => if (ofPath? (Target.mergeSlashes path)).isSome then .moved else .unknown

example : resolve "/applications/web/clusters".toList = .found (clusterDetails "web") := by
  decide +kernel
example : resolve "/applications/web//clusters".toList = .moved := by decide +kernel
example : resolve "/agents/".toList = .unknown := by decide +kernel
example : resolve "/static///x".toList = .moved := by decide +kernel

end Route

end FleetCache.Api
