/-!
# Environment variables

The named values that settings may come from and that may stand in for options.
-/

set_option autoImplicit false

namespace BridgeRewards

/-- The value of each variable. -/
abbrev Environment := String → Option String

/-- The names of the variables that matter. -/
def Environment.names : List String :=
  ["REWARDS_CHAIN_ID", "REWARDS_CONTRACT_ADDRESS", "REWARDS_REWARD_TOKEN",
   "REWARDS_REWARD_TOKEN_DECIMALS", "REWARDS_LP_FEE_CAP", "REWARDS_JOB_TIMEOUT_SECS",
   "REWARDS_FIXTURE"]

end BridgeRewards
