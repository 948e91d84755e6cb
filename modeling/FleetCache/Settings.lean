import FleetCache.Cache.AnyStore
import FleetCache.Schema.Check
import FleetCache.Settings.DotEnv
import FleetCache.Settings.Whole
import FleetCache.Text.Capital

set_option autoImplicit false

namespace FleetCache

open FleetCache.Text FleetCache.Schema

structure Settings where
  accounts : String
  regions : String
  backend : Backend
  graphUri : String
  graphUser : String
  graphPassword : String
  refreshInterval : Int
  agentTimeout : Int
  agentWorkers : Int
  lookupWorkers : Int
  pageSize : Int
  publicOwner : String
  host : String
  apiPort : Int
  origins : String
  logLevel : String
  deriving DecidableEq

namespace Settings

def lead : String := "relcache_"

def floatBound : Rat := .ofInt (Int.pow 2 63)

def numberOf (v : Value) : Except String Int :=
  match v with
  | .int n => .ok n
  | .bool b => .ok (if b then 1 else 0)
  | .decimal d =>
    let x := d.exact
    if x.den ≠ 1 then .error "int_from_float"
    else if -floatBound < x ∧ x < floatBound then .ok x.num
    else .error "int_parsing_size"
  | .str s => (readWhole s.toList).mapError WholeFault.rule
  | _ => .error "int_type"

def asNumber (low high : Option Int) (v : Value) : Checked Int :=
  match numberOf v with
  | .error rule => Checked.violation rule
  | .ok n =>
    if (low.map (fun bound => decide (n < bound))).getD false then
      Checked.violation "greater_than_equal"
    else if (high.map (fun bound => decide (bound < n))).getD false then
      Checked.violation "less_than_equal"
    else pure n

def asBackend (v : Value) : Checked Backend :=
  match v with
  | .str s =>
    match [Backend.memory, .graph].find? (fun b => b.name == small s) with
    | some b => pure b
    | none => Checked.violation "value_error"
  | _ => Checked.violation "string_type"

def asCapitals (v : Value) : Checked String :=
  capitals <$> asText v

def names : List String :=
  ["accounts", "regions", "store_backend", "neo4j_uri", "neo4j_user", "neo4j_password",
    "refresh_interval", "agent_timeout", "max_agent_workers", "aux_fetch_workers", "page_size",
    "public_image_owner", "api_host", "api_port", "cors_origins", "log_level"]

def check (values : Attributes) : Checked Settings :=
  let text := fun name default => optional values name default asText
  let atLeastOne := fun name default => optional values name default (asNumber (some 1) none)
  Settings.mk <$> text "accounts" "default" <*> text "regions" "us-east-1"
    <*> optional values "store_backend" Backend.memory asBackend
    <*> text "neo4j_uri" "bolt://localhost:7687" <*> text "neo4j_user" "neo4j"
    <*> text "neo4j_password" "" <*> atLeastOne "refresh_interval" 60
    <*> atLeastOne "agent_timeout" 300 <*> atLeastOne "max_agent_workers" 8
    <*> atLeastOne "aux_fetch_workers" 4
    <*> optional values "page_size" 50 (asNumber (some 5) (some 100))
    <*> text "public_image_owner" "amazon" <*> text "api_host" "127.0.0.1"
    <*> optional values "api_port" 7002 (asNumber none none)
    <*> text "cors_origins" "http://localhost:9000,http://127.0.0.1:9000"
    <*> optional values "log_level" "INFO" asCapitals

def fromOutside {α : Type} (pairs : List (String × α)) (name : String) : Option α :=
  (pairs.reverse.find? (fun pair => small pair.1 == lead ++ name)).map (·.2)

def choose (given : Attributes) (environment : List (String × String)) (file : DotEnv.Assigned)
    (name : String) : Option Value :=
  (given.lookup (.str name)).or <|
    ((fromOutside environment name).map Value.str).or <|
      (fromOutside file name).bind (fun v => v.map Value.str)

def read (given : Attributes) (environment : List (String × String)) (file : String) :
    Except Fault Settings :=
  let assigned := DotEnv.values environment (unifyLines file.toList)
  let values := names.filterMap (fun name =>
    (choose given environment assigned name).map (fun v => (Atom.str name, v)))
  (check values).run.result

def toValue (s : Settings) : Value :=
  .object [("accounts", .str s.accounts), ("regions", .str s.regions),
    ("store_backend", .str s.backend.name), ("neo4j_uri", .str s.graphUri),
    ("neo4j_user", .str s.graphUser), ("neo4j_password", .str s.graphPassword),
    ("refresh_interval", .int s.refreshInterval), ("agent_timeout", .int s.agentTimeout),
    ("max_agent_workers", .int s.agentWorkers), ("aux_fetch_workers", .int s.lookupWorkers),
    ("page_size", .int s.pageSize), ("public_image_owner", .str s.publicOwner),
    ("api_host", .str s.host), ("api_port", .int s.apiPort), ("cors_origins", .str s.origins),
    ("log_level", .str s.logLevel)]

/-- The least weight of the log lines to write; a level that is not known counts as `INFO`. -/
def leastWeight (s : Settings) : Nat :=
  (([("NOTSET", 0), ("DEBUG", 10), ("WARN", 30), ("WARNING", 30), ("ERROR", 40), ("FATAL", 50),
    ("CRITICAL", 50)] : List (String × Nat)).lookup s.logLevel).getD Level.info.weight

def accountList (s : Settings) : List String :=
  commaList s.accounts

def regionList (s : Settings) : List String :=
  commaList s.regions

def originList (s : Settings) : List String :=
  commaList s.origins

end Settings

end FleetCache
