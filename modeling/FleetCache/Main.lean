import Std.Time.DateTime.Timestamp
import FleetCache.CommandLine.Run
import FleetCache.Json.Layout
import FleetCache.Provider.Replies

set_option autoImplicit false

namespace FleetCache.Program

open FleetCache.CommandLine FleetCache.Text

def settingsFile : String := ".env"

def repliesVariable : String := capitals (Settings.lead ++ "replies")

def readFile? (path : String) : IO (Option String) := do
  try
    return some (← IO.FS.readFile path)
  catch _ => return none

def environment : IO (List (String × String)) :=
  Settings.names.filterMapM (fun name => do
    let outside := capitals (Settings.lead ++ name)
    return (← IO.getEnv outside).map (fun v => (outside, v)))

def replies : IO (List Cloud.Reply) := do
  let some path ← IO.getEnv repliesVariable | return []
  match Json.parseText ((← readFile? path).getD "[]") with
  | .ok (.list entries) => return entries.map Cloud.Reply.ofValue
  | _ => return []

def timeNow : IO String := do
  let now ← Std.Time.Timestamp.now
  let micros := now.toNanosecondsSinceUnixEpoch.toInt / 1000
  return ((Time.Moment.ofEpochMicros? micros).map Time.Moment.iso).getD ""

def filesBelow (directory : String) : IO (List (String × String)) :=
  Namespace.all.filterMapM (fun ns => do
    let path := directory ++ "/" ++ Dump.fileName ns
    return (← readFile? path).map (fun text => (path, text)))

def surroundings (arguments : List String) : IO Surroundings := do
  let source := ((Arguments.parse arguments).toOption.bind (fun a => a.option? .source)).getD ""
  let replies ← replies
  let files ← if source = "" then pure [] else filesBelow source
  return {
    environment := ← environment
    settingsFile := (← readFile? settingsFile).getD ""
    cloud := fun profile region => Cloud.ofReplies replies (Cloud.session (.str profile) (.str region))
    file := fun path => files.lookup path
    startedAt := ← timeNow }

def leastWeight (around : Surroundings) : Nat :=
  match Settings.read [] around.environment around.settingsFile with
  | .ok settings => settings.leastWeight
  | .error _ => Level.info.weight

def printLogs (least : Nat) (logs : List (Level × String)) : IO Unit :=
  (logs.filter (fun (level, _) => least ≤ level.weight)).forM (fun (level, line) =>
    IO.eprintln (level.name ++ " " ++ line))

def writeDump (dump : DumpFiles) : IO Unit := do
  IO.FS.createDirAll dump.directory
  dump.files.forM (fun (name, text) => IO.FS.writeFile (dump.directory ++ "/" ++ name) text)

def responseText (response : Api.Response) : String :=
  let body :=
    match response.body with
    | .json v => v
    | .lines texts => .strings texts
    | .page => .null
  Json.renderText (.object [("status", .int response.status), ("body", body)])

partial def answerRequests (least : Nat) (service : Api.Service AnyStore)
    (counts : Api.RequestCounts) (input : IO.FS.Stream) : IO Unit := do
  let line ← input.getLine
  if line.isEmpty then return ()
  let done := Api.answer service counts (trimmed line)
  printLogs least done.logs
  match done.result with
  | .ok (response, counts) =>
    IO.println (responseText response)
    answerRequests least service counts input
  | .error fault => IO.eprintln fault.message

def finish (least : Nat) (outcome : Outcome) : IO UInt32 := do
  outcome.dump.forM writeDump
  outcome.printed.forM (fun v => IO.println (Json.layoutText v))
  outcome.serving.forM (fun serving => do
    IO.eprintln ("Serving on " ++ serving.host ++ ":" ++ intText serving.apiPort)
    answerRequests least serving.service [] (← IO.getStdin))
  return outcome.status.toUInt32

def usage : String :=
  "usage: [-h] [--accounts ACCOUNTS] [--regions REGIONS] [--output OUTPUT] [--from SOURCE]\n" ++
  "       [--account ACCOUNT] [--region REGION] refresh|serve|find-images [query]"

def giveUp (fault : Fault) : IO UInt32 := do
  match fault with
  | .exit (.status 0) =>
    IO.println usage
    return 0
  | .exit (.status n) =>
    IO.eprintln usage
    return n.toUInt32
  | other =>
    IO.eprintln other.message
    return 1

def run (arguments : List String) : IO UInt32 := do
  let around ← surroundings arguments
  let least := leastWeight around
  let done := CommandLine.run around arguments
  printLogs least done.logs
  match done.result with
  | .ok outcome => finish least outcome
  | .error fault => giveUp fault

end FleetCache.Program

def main (arguments : List String) : IO UInt32 :=
  FleetCache.Program.run arguments
