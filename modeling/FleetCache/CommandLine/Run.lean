import FleetCache.Agents.Clusters
import FleetCache.Agents.Images
import FleetCache.Agents.InstanceTypes
import FleetCache.Agents.Instances
import FleetCache.Api.Service
import FleetCache.Cache.Dump
import FleetCache.CommandLine.Arguments
import FleetCache.Provider.Identity
import FleetCache.Settings

set_option autoImplicit false

namespace FleetCache.CommandLine

open FleetCache.CacheStore FleetCache.Refresh FleetCache.Text

/-- What a command finds around it: the environment, the file of settings, the cloud for a profile and
a region, the text of a file, and the time of the start. -/
structure Surroundings where
  environment : List (String × String)
  settingsFile : String
  cloud : String → String → Cloud
  file : String → Option String
  startedAt : String

structure Serving where
  host : String
  apiPort : Int
  service : Api.Service AnyStore

structure DumpFiles where
  directory : String
  files : List (String × String)

structure Outcome where
  status : Nat
  printed : Option Value
  dump : Option DumpFiles
  serving : Option Serving
  store : AnyStore

def agentsFor (settings : Settings) (cloud : Cloud) (account region : String) : List Agent :=
  let provider := (Fetcher.mk cloud account region (.int settings.pageSize)).provider
  [clusterAgent provider account region settings.lookupWorkers, instanceAgent provider account region,
    imageAgent provider account region settings.publicOwner, instanceTypeAgent provider account region,
    loadBalancerAgent provider account region]

/-- The agents of one account and region, none when nobody can be told to be behind the profile. -/
def resolveAgents (around : Surroundings) (settings : Settings) (account region : String) :
    Traced (List Agent) :=
  let cloud := around.cloud account region
  match Identity.resolve cloud account region with
  | .ok identity => do
    Traced.info ("Resolved " ++ account ++ " as " ++ identity.arn.text ++ " in " ++ region)
    return agentsFor settings cloud account region
  | .error (.listing label cause) => do
    Traced.error ("Skipping " ++ account ++ "/" ++ region ++ ": " ++ (Fault.listing label cause).message)
    return []
  | .error fault => Traced.fail fault

def listOr (given : Option String) (other : List String) : List String :=
  let s := given.getD ""
  if s = "" then other else commaList s

def makeScheduler (around : Surroundings) (settings : Settings) (arguments : Arguments) :
    Traced Scheduler := do
  let accounts := listOr (arguments.option? .accounts) settings.accountList
  let regions := listOr (arguments.option? .regions) settings.regionList
  let places := accounts.flatMap (fun account => regions.map (fun region => (account, region)))
  let agents ← places.mapM (fun (account, region) => resolveAgents around settings account region)
  Scheduler.make (agents.flatten.map Job.ofAgent) ⟨.int settings.agentTimeout, settings.agentWorkers⟩

def dumpInto (store : AnyStore) (directory : String) : Traced DumpFiles := do
  let files ← Dump.write store directory
  return ⟨directory, files.map (fun (ns, _, text) => (Dump.fileName ns, text))⟩

def refresh (around : Surroundings) (settings : Settings) (arguments : Arguments) : Traced Outcome := do
  let scheduler ← makeScheduler around settings arguments
  let (runs, ⟨store, _, _⟩) ← (runOnce promptClock 0 around.startedAt).run
    ⟨AnyStore.empty settings.backend, scheduler, Metrics.empty⟩
  let sizes ← stats store
  let output := (arguments.option? .output).filter (fun directory => directory != "")
  let dump ← output.mapM (dumpInto store)
  let place : Attributes := (output.map (fun directory => (Atom.str "output", Value.str directory))).toList
  let summary : Attributes :=
    ("agents", .list (runs.map AgentRun.toValue)) :: ("entities", Report.countsValue sizes) :: place
  return ⟨if runs.all AgentRun.ok then 0 else 1, some (.object summary), dump, none, store⟩

def serve (around : Surroundings) (settings : Settings) (arguments : Arguments) : Traced Outcome := do
  let scheduler ← makeScheduler around settings arguments
  let (_, ⟨store, scheduler, _⟩) ← (runGuarded promptClock 0 around.startedAt).run
    ⟨AnyStore.empty settings.backend, scheduler, Metrics.empty⟩
  let service : Api.Service AnyStore := ⟨store, healthy store, some scheduler.statuses⟩
  return ⟨0, none, none, some ⟨settings.host, settings.apiPort, service⟩, store⟩

def filesIn (around : Surroundings) (directory : String) : List (String × String) :=
  Namespace.all.filterMap (fun ns =>
    let name := Dump.fileName ns
    (around.file (directory ++ "/" ++ name)).map (fun text => (name, text)))

def findImages (around : Surroundings) (arguments : Arguments) : Traced Outcome := do
  let query := arguments.query.getD ""
  let source := (arguments.option? .source).getD ""
  if query = "" ∨ source = "" then
    Traced.fail (.exit (.message "find-images requires a query and --from DIR"))
  else
    let (_, store) ← (Dump.load (filesIn around source)).run Memory.empty
    let found ← Views.findImages store query (arguments.optionValue .account)
      (arguments.optionValue .region)
    return ⟨0, some (.list (found.map Views.ImageResult.toValue)), none, none, .memory store⟩

def readArguments (strings : List String) : Except Fault Arguments :=
  (Arguments.parse strings).mapError (fun rejection => .exit (.status rejection.status))

def run (around : Surroundings) (strings : List String) : Traced Outcome := do
  let arguments ← readArguments strings
  let settings ← Settings.read [] around.environment around.settingsFile
  match arguments.command with
  | .refresh => refresh around settings arguments
  | .serve => serve around settings arguments
  | .findImages => findImages around arguments

end FleetCache.CommandLine
