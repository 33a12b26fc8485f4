import BridgeRewards.Environment
import BridgeRewards.Error
import BridgeRewards.Fee

/-!
# Settings

What an operator settles: the line on which windows are published, the token in which they pay,
the cap on liquidity fees and how long a job may take.  Settings can be read from environment
variables; a variable that is not set leaves its default, and one that cannot be read is an error.
-/

set_option autoImplicit false

namespace BridgeRewards

/-- The settings of an operator. -/
structure Settings where
  chainId : Nat := 10
  contractAddress : Address := .zero
  rewardToken : Address := .zero
  rewardTokenDecimals : Nat := 18
  lpFeeCap : String := "1000000000000000000"
  jobTimeoutSeconds : Nat := 600
  deriving DecidableEq

/-- Why settings are refused. -/
inductive SettingsFault
  /-- A variable holds no number in range. -/
  | unreadableNumber (name raw : String) (fault : Text.NumberFault)
  /-- A variable holds no address. -/
  | unreadableAddress (name : String) (error : RewardError)
  /-- The cap on liquidity fees is no integer. -/
  | lpFeeCap (error : RewardError)
  /-- Jobs get no time. -/
  | noTimeout
  deriving DecidableEq

/-- The wording of a fault. -/
def SettingsFault.message : SettingsFault → String
  | unreadableNumber name raw fault => name ++ "=" ++ Text.quoted raw ++ ": " ++ fault.message
  | unreadableAddress name error => name ++ ": " ++ error.message
  | lpFeeCap error => error.message
  | noTimeout => "job timeout must be positive"

namespace Settings

/-- The line of some settings. -/
def line (settings : Settings) : Line := ⟨settings.chainId, settings.contractAddress⟩

/-- The cap on liquidity fees as a number. -/
def cap (settings : Settings) : Except SettingsFault Decimal :=
  (Decimal.parseInteger "lpFeeCap" settings.lpFeeCap).mapError .lpFeeCap

/-- Refuses settings whose cap is no integer or that give jobs no time. -/
def validate (settings : Settings) : Except SettingsFault Unit := do
  let _ ← settings.cap
  if settings.jobTimeoutSeconds = 0 then throw .noTimeout

/-- The settings that a document gives. -/
def ofJson? (json : Json) : Option Settings := do
  let fields ← json.asFields? ["chainId", "contractAddress", "rewardToken", "rewardTokenDecimals",
    "lpFeeCap", "jobTimeoutSecs"]
  return { chainId := ← fields.required "chainId" Json.asNat64?
           contractAddress := ← fields.required "contractAddress" Json.asAddress?
           rewardToken := ← fields.required "rewardToken" Json.asAddress?
           rewardTokenDecimals := ← fields.required "rewardTokenDecimals" Json.asNat32?
           lpFeeCap := ← fields.required "lpFeeCap" Json.asString?
           jobTimeoutSeconds := ← fields.required "jobTimeoutSecs" Json.asNat64? }

def toJson (settings : Settings) : Json :=
  .object [("chainId", .nat settings.chainId),
    ("contractAddress", .string settings.contractAddress.text),
    ("rewardToken", .string settings.rewardToken.text),
    ("rewardTokenDecimals", .nat settings.rewardTokenDecimals),
    ("lpFeeCap", .string settings.lpFeeCap), ("jobTimeoutSecs", .nat settings.jobTimeoutSeconds)]

/-! ## Settings from environment variables -/

/-- A natural number below a bound in a variable, with blanks around it allowed. -/
def readNumber (environment : Environment) (name : String) (bound default : Nat) :
    Except SettingsFault Nat :=
  match environment name with
  | none => .ok default
  | some raw => (Text.readNatural bound (Text.trim raw)).mapError (.unreadableNumber name raw)

/-- An address in a variable. -/
def readAddress (environment : Environment) (name : String) (default : Address) :
    Except SettingsFault Address :=
  match environment name with
  | none => .ok default
  | some raw => (Address.parse raw).mapError (.unreadableAddress name)

/-- The settings that environment variables give, in valid form. -/
def ofEnvironment (environment : Environment) : Except SettingsFault Settings := do
  let default : Settings := {}
  let chainId ← readNumber environment "REWARDS_CHAIN_ID" Text.bound64 default.chainId
  let contractAddress ← readAddress environment "REWARDS_CONTRACT_ADDRESS" default.contractAddress
  let rewardToken ← readAddress environment "REWARDS_REWARD_TOKEN" default.rewardToken
  let rewardTokenDecimals ←
    readNumber environment "REWARDS_REWARD_TOKEN_DECIMALS" Text.bound32 default.rewardTokenDecimals
  let lpFeeCap := (environment "REWARDS_LP_FEE_CAP").getD default.lpFeeCap
  let jobTimeoutSeconds ←
    readNumber environment "REWARDS_JOB_TIMEOUT_SECS" Text.bound64 default.jobTimeoutSeconds
  let settings : Settings :=
    { chainId, contractAddress, rewardToken, rewardTokenDecimals, lpFeeCap, jobTimeoutSeconds }
  settings.validate
  return settings

end Settings

end BridgeRewards
