import FleetCache.Api.Refusal
import FleetCache.Api.Route
import FleetCache.Refresh.Cycle
import FleetCache.Views.Clusters
import FleetCache.Views.Images
import FleetCache.Views.LoadBalancers

set_option autoImplicit false

namespace FleetCache.Api

open FleetCache.CacheStore FleetCache.Refresh FleetCache.Text

def version : String := "0.1.0"

def serviceName : String := "relcache"

inductive Body where
  | json (v : Value)
  | lines (texts : List String)
  | page

structure Response where
  status : Int
  body : Body

def ok (v : Value) : Response :=
  ⟨200, .json v⟩

def errorBody (text : String) : Body :=
  .json (.object [("error", .str text)])

def Refusal.response (refusal : Refusal) : Response :=
  ⟨refusal.status, .json refusal.body⟩

/-- What the service reads from: the store, the way to check it, and the latest runs when there are
agents at all. -/
structure Service (σ : Type) where
  store : σ
  health : Traced Bool
  runs : Option (List AgentRun)

abbrev RequestCounts := List ((String × Int) × Nat)

def RequestCounts.add (label : String × Int) : RequestCounts → RequestCounts
  | [] => [(label, 1)]
  | (other, n) :: rest =>
    if other = label then (other, n + 1) :: rest else (other, n) :: add label rest

variable {σ : Type} [CacheStore σ]

def safely (operation : String) (x : Traced Response) : Traced Response :=
  x.rescue (fun fault =>
    if fault.aboutValue then do
      Traced.warn ("Validation error in " ++ operation ++ ": " ++ fault.logged)
      return ⟨400, errorBody fault.message⟩
    else do
      Traced.error ("Unexpected error in " ++ operation ++ ": " ++ fault.kind ++ ": " ++ fault.logged)
      return ⟨500, errorBody ("Error in " ++ operation)⟩)

/-- A response to a request that fails only when the service itself does. -/
def exposed (path : List Char) (x : Traced Response) : Traced Response :=
  x.rescue (fun _ => do
    Traced.error ("Exception on " ++ String.ofList path ++ " [GET]")
    Traced.error "Internal server error"
    return ⟨500, errorBody "Internal server error"⟩)

def notFound (resource name : String) : Response :=
  (Refusal.notFound resource (some name)).response

def checks (store : Bool) (runs : Option (List AgentRun)) : Attributes :=
  let agents := fun (runs : List AgentRun) =>
    Value.str (natText (runs.filter AgentRun.ok).length ++ "/" ++ natText runs.length ++ " ok")
  ("store", .str (if store then "ok" else "error")) ::
    (runs.map (fun list => (Atom.str "agents", agents list))).toList

def health (service : Service σ) : Traced Response := do
  let healthy ← service.health
  let report := Value.object [("status", .str (if healthy then "ok" else "degraded")),
    ("checks", .object (checks healthy service.runs)), ("version", .str version)]
  return ⟨if healthy then 200 else 503, .json report⟩

def agents (service : Service σ) : Response :=
  let runs := service.runs.getD []
  ok (.object [("agents", .list (runs.map AgentRun.toValue)), ("count", .ofNat runs.length)])

def measured (name : String) (labels : List (String × String)) (n : Nat) : String :=
  name ++ "\x7b" ++ join "," (labels.map (fun (label, v) => label ++ "=\"" ++ v ++ "\"")) ++ "\x7d "
    ++ natText n ++ ".0"

def metrics (store : σ) (counts : RequestCounts) : Traced Response := do
  let sizes ← stats store
  let size := fun (ns : Namespace) => measured "relcache_cache_entities"
    [("namespace", ns.name)] ((sizes.lookup (.str ns.name)).getD 0)
  let count := fun (((rule, status), n) : (String × Int) × Nat) =>
    measured "relcache_http_requests_total"
      [("endpoint", rule), ("method", "GET"), ("status", intText status)] n
  let info := measured "relcache_info" [("name", serviceName), ("version", version)] 1
  return ⟨200, .lines (sortStrings (info :: Namespace.all.map size ++ counts.map count))⟩

structure ImageQuery where
  text : String
  account : Option String
  region : Option String
  deriving DecidableEq

def bounded (name : String) (most : Nat) (v : Option String) : Except Refusal (Option String) :=
  match v with
  | none => .ok none
  | some s =>
    if most < s.length then
      .error (.invalid ("String should have at most " ++ natText most ++ " characters") (some name))
    else .ok (if s = "" then none else some s)

def imageQuery (target : Target) : Except Refusal ImageQuery := do
  let text ←
    match target.parameter? "q" with
    | none => .error (.invalid "Field required" (some "q"))
    | some s => bounded "q" 256 (some s)
  match text with
  | none => .error (.invalid "String should have at least 1 character" (some "q"))
  | some s =>
    return ⟨s, ← bounded "account" 128 (target.parameter? "account"),
      ← bounded "region" 64 (target.parameter? "region")⟩

def images (store : σ) (target : Target) : Traced Response :=
  match imageQuery target with
  | .error refusal => pure refusal.response
  | .ok query => do
    let found ← Views.findImages store query.text (.ofOption query.account) (.ofOption query.region)
    return ok (.list (found.map Views.ImageResult.toValue))

def view (store : σ) (target : Target) : Route → Traced Response
  | .findImages => safely "find images" (images store target)
  | .clusterDetails application => safely "get cluster details" (do
    match ← Views.clusterDetails store application with
    | none => return notFound "Application" application
    | some (name, clusters) =>
      return ok (.object [(name, .list (clusters.map Views.Cluster.toValue))]))
  | .accountClusters application account => safely "get clusters" (do
    let clusters ← Views.clusters store application account
    return ok (.list (clusters.map Views.Cluster.toValue)))
  | .cluster application account name => safely "get cluster" (do
    match ← Views.cluster store application account name with
    | none => return notFound "Cluster" name
    | some cluster => return ok cluster.toValue)
  | .serverGroup account region name => safely "get server group" (do
    match ← Views.findServerGroup store account region name with
    | none => return notFound "Server group" name
    | some group => return ok group.toValue)
  | .applicationLoadBalancers application => safely "get application load balancers" (do
    let balancers ← Views.applicationLoadBalancers store application
    return ok (.list (balancers.map Views.LoadBalancer.toValue)))
  | .loadBalancers => safely "list load balancers" (do
    return ok (.list ((← Views.loadBalancers store).map Views.LoadBalancer.toValue)))
  | .loadBalancer account region name => safely "get load balancer" (do
    match ← Views.loadBalancersNamed store account region name with
    | [] => return notFound "Load balancer" name
    | found =>
      let shown := Value.list (found.map (fun attributes => .object [("results", .object attributes)]))
      return ok (← Json.ordered shown))
  | _ => pure ⟨404, errorBody "Not found"⟩

def respond (service : Service σ) (counts : RequestCounts) (target : Target) (route : Route) :
    Traced Response :=
  match route with
  | .health => exposed target.path (health service)
  | .agents => pure (agents service)
  | .metrics => exposed target.path (metrics service.store counts)
  | other => view service.store target other

/-- The response to a request and the counts after it; a request whose target cannot be read has none. -/
def answer (service : Service σ) (counts : RequestCounts) (request : String) :
    Traced (Response × RequestCounts) := do
  let target ← (Target.parse request : Except Fault Target)
  let counted := fun (rule : String) (response : Response) =>
    (response, counts.add (rule, response.status))
  match Route.resolve target.path with
  | .found route => return counted route.rule (← respond service counts target route)
  | .moved => return counted "unmatched" ⟨308, .page⟩
  | .unknown => return counted "unmatched" ⟨404, errorBody "Not found"⟩

end FleetCache.Api
