import FleetCache.Agents.Agent

set_option autoImplicit false

namespace FleetCache.InstanceTypeAgent

def name : String := "InstanceTypeCachingAgent"

def types : List DataType :=
  [owns .instanceTypes]

def attributes (account region : String) (zone : Attributes) : Except Fault Attributes := do
  let names ← ((zone.get "names").orElse (.list [])).elements
  return [("provider", .str provider), ("account", .str account),
    ("regionId", (zone.get "regionId").orElse (.str region)), ("zoneId", zone.get "zoneId"),
    ("names", .list names)]

def step (account region agent : String) (builder : ReportBuilder) (zone : Attributes) :
    Traced ReportBuilder :=
  skipUnkeyed (Key.instanceType (some account) (some region) (zone.get "zoneId").field?) .warning
    (agent ++ ": skipping zone record: ") (pure builder)
    (fun key => do
      let attributes ← attributes account region zone
      return builder.merge Namespace.instanceTypes.name key attributes [])

def load (provider : Provider) (account region : String) : Traced Report := do
  let agent := agentType account region name
  let builder ← provider.zones.run ReportBuilder.empty (step account region agent)
  return builder.build types false

end FleetCache.InstanceTypeAgent

namespace FleetCache

def instanceTypeAgent (provider : Provider) (account region : String) : Agent :=
  ⟨InstanceTypeAgent.name, account, region, InstanceTypeAgent.types,
    InstanceTypeAgent.load provider account region⟩

end FleetCache
