import FleetCache.Agents.Agent

set_option autoImplicit false

namespace FleetCache.ImageAgent

def name : String := "ImageCachingAgent"

def types : List DataType :=
  [owns .images, owns .namedImages]

def selfOwner : String := "self"

def defaultPublicOwner : String := "amazon"

def addPublic (account region agent : String) (builder : ReportBuilder) (image : Attributes) :
    Traced ReportBuilder :=
  skipUnkeyed (Key.image (image.get "imageId").field? (some account) (some region)) .warning
    (agent ++ ": skipping image record: ") (pure builder)
    (fun key => pure (builder.merge Namespace.images.name key image []))

def addNamed (account agent : String) (builder : ReportBuilder) (image : Attributes) :
    Traced ReportBuilder :=
  skipUnkeyed (Key.namedImage (some account) (image.get "imageName").field?) .debug
    (agent ++ ": unnamed image " ++ (image.get "imageId").text ++ " not cached by name: ")
    (pure builder) (fun key => pure (builder.merge Namespace.namedImages.name key image []))

def load (provider : Provider) (account region publicOwner : String) : Traced Report := do
  let agent := agentType account region name
  let builder ← (provider.images publicOwner).run ReportBuilder.empty (addPublic account region agent)
  let builder ← (provider.images selfOwner).run builder (addNamed account agent)
  let report := builder.build types false
  Traced.info (agent ++ ": cached " ++ shownCounts report.counts)
  return report

end FleetCache.ImageAgent

namespace FleetCache

def imageAgent (provider : Provider) (account region publicOwner : String) : Agent :=
  ⟨ImageAgent.name, account, region, ImageAgent.types,
    ImageAgent.load provider account region publicOwner⟩

end FleetCache
