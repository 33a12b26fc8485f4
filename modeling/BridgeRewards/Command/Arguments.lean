import BridgeRewards.Command.Options
import BridgeRewards.Environment
import BridgeRewards.Text.Digits

/-!
# What a command line asks for

Options that concern every command stand before its name, the options of the command after it.
Some options may be given by environment variables instead; a number that cannot be read is
refused there too.  Every reader answers `none` for a command line that it refuses.
-/

set_option autoImplicit false

namespace BridgeRewards

/-- How results are printed. -/
inductive Format
  | json
  | table
  deriving DecidableEq, Repr

/-- The window that is asked for, out of a fixture. -/
structure WindowRequest where
  fixturePath : String
  windowIndex : Nat
  maxDepositDate : String
  kind : String
  /-- The directory for what is published. -/
  outPath : Option String
  deriving DecidableEq

/-- What is asked for. -/
inductive Request
  | runWindow (request : WindowRequest)
  | verifyProofs (windowPath recipientsPath : String)
  | feeShare (weiPct amount usdPrice : String) (decimals : Nat)
  | feeSplit (gasFeeUsd relayerFeeUsd relayerFeePct : String)
  | schedules
  | settings
  deriving DecidableEq

/-- A command line: what is asked for, with the settings that it overrides. -/
structure Invocation where
  chainId : Option Nat
  contract : Option String
  rewardToken : Option String
  rewardTokenDecimals : Option Nat
  format : Format
  request : Request
  deriving DecidableEq

/-- What is printed for a command line that cannot be read. -/
def usage : String :=
  "usage: rewards [--chain-id N] [--contract A] [--reward-token A] [--reward-token-decimals N] " ++
  "[-f json|table] [-v] (run-window|verify proofs|fee pct|fee split|schedules|config) ..."

namespace GivenOptions

/-- An option's value, or that of the variable that stands in for it. -/
def orVariable (given : GivenOptions) (name : String) (standIn : Option String) :
    Option String :=
  given.find? name <|> standIn

/-- A value that has to name a file or a directory. -/
def path? (value : String) : Option String := if value.isEmpty then none else some value

/-- A natural number below a bound. -/
def number? (bound : Nat) (value : String) : Option Nat := (Text.readNatural bound value).toOption

/-- A natural number of 32 bits, which may also be written as zero with a minus sign. -/
def shortNumber? (value : String) : Option Nat :=
  match value.toList with
  | '-' :: '0' :: rest => if rest.all (· == '0') then some 0 else none
  | _ => number? Text.bound32 value

/-- A value that may be missing but may not be wrong. -/
def checked? {α : Type} (read : String → Option α) : Option String → Option (Option α)
  | none => some none
  | some value => (read value).map some

end GivenOptions

/-- The format with a name. -/
def Format.ofName? : String → Option Format
  | "json" => some json
  | "table" => some table
  | _ => none

namespace Request

open GivenOptions

/-- The options of a command, after which nothing may follow. -/
def options? (forms : List OptionForm) (words : List String) : Option GivenOptions := do
  let (given, rest) ← GivenOptions.read? forms {} words
  if rest = [] ∨ rest = ["--"] then return given else none

/-- The request to build a window. -/
def runWindow? (environment : Environment) (words : List String) : Option Request := do
  let given ← options? [{ name := "fixture" }, { name := "window-index" },
    { name := "max-deposit-date" }, { name := "rewards-type" }, { name := "out" }] words
  return runWindow
    { fixturePath := ← path? (← given.orVariable "fixture" (environment "REWARDS_FIXTURE"))
      windowIndex := ← number? Text.bound64 (← given.find? "window-index")
      maxDepositDate := ← given.find? "max-deposit-date"
      kind := (given.find? "rewards-type").getD "referral"
      outPath := ← checked? path? (given.find? "out") }

/-- The request to check published proofs. -/
def verifyProofs? (words : List String) : Option Request := do
  let given ← options? [{ name := "window", letter := some 'w' },
    { name := "recipients", letter := some 'r' }] words
  return verifyProofs (← path? (← given.find? "window")) (← path? (← given.find? "recipients"))

/-- The request for a share of an amount. -/
def feeShare? (words : List String) : Option Request := do
  let given ← options? [{ name := "wei-pct" }, { name := "amount" },
    { name := "usd-price" }, { name := "decimals" }] words
  let decimals ← checked? shortNumber? (given.find? "decimals")
  return feeShare (← given.find? "wei-pct") (← given.find? "amount") (← given.find? "usd-price")
    (decimals.getD 18)

/-- The request to split a relayer's fee. -/
def feeSplit? (words : List String) : Option Request := do
  let given ← options? [{ name := "gas-fee-usd" }, { name := "relayer-fee-usd" },
    { name := "relayer-fee-pct" }] words
  return feeSplit (← given.find? "gas-fee-usd") (← given.find? "relayer-fee-usd")
    (← given.find? "relayer-fee-pct")

/-- The request that a command and the words after it make. -/
def ofWords? (environment : Environment) : List String → Option Request
  | "run-window" :: rest => runWindow? environment rest
  | "verify" :: "proofs" :: rest => verifyProofs? rest
  | "fee" :: "pct" :: rest => feeShare? rest
  | "fee" :: "split" :: rest => feeSplit? rest
  | "schedules" :: rest => (options? [] rest).map fun _ => schedules
  | "config" :: rest => (options? [] rest).map fun _ => settings
  | _ => none

end Request

namespace Invocation

open GivenOptions

/-- The options that concern every command. -/
def forms : List OptionForm :=
  [{ name := "chain-id" }, { name := "contract" }, { name := "reward-token" },
   { name := "reward-token-decimals" }, { name := "format", letter := some 'f' },
   { name := "verbose", letter := some 'v', isFlag := true }]

/-- What a command line asks for, given the environment variables. -/
def ofArguments? (environment : Environment) (arguments : List String) : Option Invocation := do
  let (given, words) ← GivenOptions.read? forms {} arguments
  let request ← Request.ofWords? environment words
  let chainId ← checked? (number? Text.bound64)
    (given.orVariable "chain-id" (environment "REWARDS_CHAIN_ID"))
  let rewardTokenDecimals ← checked? shortNumber?
    (given.orVariable "reward-token-decimals" (environment "REWARDS_REWARD_TOKEN_DECIMALS"))
  let format ← checked? Format.ofName? (given.find? "format")
  return { chainId
           contract := given.orVariable "contract" (environment "REWARDS_CONTRACT_ADDRESS")
           rewardToken := given.orVariable "reward-token" (environment "REWARDS_REWARD_TOKEN")
           rewardTokenDecimals
           format := format.getD .table
           request }

end Invocation

end BridgeRewards
