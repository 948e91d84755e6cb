import FleetCache.Entity
import FleetCache.Provider.Cloud

set_option autoImplicit false

namespace FleetCache

open FleetCache.Text

structure Identity where
  account : Value
  arn : Value
  userId : Value
  region : Value
  partition : String

namespace Identity

def defaultProfile : String := "default"

def defaultPartition : String := "aws"

def partitionIn (arn : String) : String :=
  match splitAt ':' arn.toList with
  | _ :: second :: _ => String.ofList second
  | _ => defaultPartition

/-- The partition that a resource name names; only a text can name one. -/
def partitionOf (arn : Value) : Except Fault String := do
  if ← arn.contains ":" then
    match arn with
    | .str s => return partitionIn s
    | other => throw (.noAttribute ("'" ++ other.typeName ++ "' object has no attribute 'split'"))
  else return defaultPartition

def askCaller (cloud : Cloud) : Except CloudFailure Value := do
  let _ ← cloud.ask "session.open" []
  cloud.ask "sts.get_caller_identity" []

def resolve (cloud : Cloud) (profile region : Value) : Except Fault Identity :=
  match askCaller cloud with
  | .error failure =>
    .error (.listing (profile.orElse defaultProfile)
      ("Failed to resolve caller identity: " ++ failure.message))
  | .ok answer => do
    let arn ← answer.required "Arn"
    let partition ← partitionOf arn
    let account ← answer.required "Account"
    let user ← answer.required "UserId"
    return ⟨account, arn, user, region, partition⟩

def toValue (identity : Identity) : Value :=
  .object [("account", identity.account), ("arn", identity.arn), ("user_id", identity.userId),
    ("resolved_region", identity.region), ("partition", identity.partition)]

example : partitionIn "arn:aws-cn:iam::123:user/x" = "aws-cn" := by decide +kernel
example : partitionIn "plain" = "aws" := by decide +kernel

end Identity

end FleetCache
