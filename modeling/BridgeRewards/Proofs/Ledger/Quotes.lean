import BridgeRewards.Ledger.Pricing
import BridgeRewards.Proofs.Decimal.Number

/-!
# Which prices are known

The prices of a deposit are known if both its token and the reward token are, and if each of them
has a price on the day of the deposit that is a decimal (`Ledger.Quoted`).  Otherwise something is
missing, and of all that is missing one thing comes first (`Ledger.Missing`).  Prices are found
exactly if they are known, and if they are not found then the cause is what is missing first.
-/

set_option autoImplicit false

namespace BridgeRewards.Ledger

variable {ledger : Ledger} {rewardToken : Address} {rewardChainId : Nat} {d : Deposit}

/-- The prices for a deposit are known: those of its token and of the reward token, each under the
symbol of the token, on the day on which the deposit was made. -/
inductive Quoted (ledger : Ledger) (rewardToken : Address) (rewardChainId : Nat) (d : Deposit) :
    PriceSnapshot → Prop
  | known {token reward : Token} {tokenPrice rewardPrice : MarketPrice}
      (isToken : ledger.token? d.inputToken d.originChainId = some token)
      (isReward : ledger.token? rewardToken rewardChainId = some reward)
      (isPrice : ledger.price? token.priceSymbol d.depositDate.date = some tokenPrice)
      (isRewardPrice : ledger.price? reward.priceSymbol d.depositDate.date = some rewardPrice)
      (readable : Decimal.isDecimalText tokenPrice.usd = true)
      (readableReward : Decimal.isDecimalText rewardPrice.usd = true) :
      Quoted ledger rewardToken rewardChainId d
        ⟨token.priceSymbol, token.decimals, tokenPrice.usd, rewardPrice.usd, d.depositDate.date⟩

/-- What is missing for a deposit where nothing before it is. -/
inductive Missing (ledger : Ledger) (rewardToken : Address) (rewardChainId : Nat) (d : Deposit) :
    GapCause → Prop
  | token (unknown : ledger.token? d.inputToken d.originChainId = none) :
      Missing ledger rewardToken rewardChainId d (.unknownToken d.inputToken d.originChainId)
  | rewardToken {token : Token}
      (isToken : ledger.token? d.inputToken d.originChainId = some token)
      (unknown : ledger.token? rewardToken rewardChainId = none) :
      Missing ledger rewardToken rewardChainId d (.unknownRewardToken rewardToken)
  | price {token reward : Token}
      (isToken : ledger.token? d.inputToken d.originChainId = some token)
      (isReward : ledger.token? rewardToken rewardChainId = some reward)
      (none : ledger.price? token.priceSymbol d.depositDate.date = none) :
      Missing ledger rewardToken rewardChainId d (.noPrice token.priceSymbol d.depositDate.date)
  | rewardPrice {token reward : Token} {tokenPrice : MarketPrice}
      (isToken : ledger.token? d.inputToken d.originChainId = some token)
      (isReward : ledger.token? rewardToken rewardChainId = some reward)
      (isPrice : ledger.price? token.priceSymbol d.depositDate.date = some tokenPrice)
      (none : ledger.price? reward.priceSymbol d.depositDate.date = none) :
      Missing ledger rewardToken rewardChainId d (.noPrice reward.priceSymbol d.depositDate.date)
  | unreadable {token reward : Token} {tokenPrice rewardPrice : MarketPrice}
      (isToken : ledger.token? d.inputToken d.originChainId = some token)
      (isReward : ledger.token? rewardToken rewardChainId = some reward)
      (isPrice : ledger.price? token.priceSymbol d.depositDate.date = some tokenPrice)
      (isRewardPrice : ledger.price? reward.priceSymbol d.depositDate.date = some rewardPrice)
      (either : Decimal.isDecimalText tokenPrice.usd = false ∨
        Decimal.isDecimalText rewardPrice.usd = false) :
      Missing ledger rewardToken rewardChainId d (.unreadablePrice d.depositDate.date)

theorem Quoted.pricesFor_eq {price : PriceSnapshot}
    (quoted : ledger.Quoted rewardToken rewardChainId d price) :
    ledger.pricesFor rewardToken rewardChainId d = .ok price := by
  unfold pricesFor quote
  cases quoted with
  | known isToken isReward isPrice isRewardPrice readable readableReward =>
      rw [Decimal.isDecimalText] at readable readableReward
      simp [isToken, isReward, isPrice, isRewardPrice, isReadable, readable, readableReward, bind,
        Except.bind, pure, Except.pure]

theorem Missing.pricesFor_eq {cause : GapCause}
    (missing : ledger.Missing rewardToken rewardChainId d cause) :
    ledger.pricesFor rewardToken rewardChainId d = .error cause := by
  unfold pricesFor quote
  cases missing with
  | token unknown =>
      simp [unknown, throw, throwThe, MonadExceptOf.throw]
  | rewardToken isToken unknown =>
      simp [isToken, unknown, throw, throwThe, MonadExceptOf.throw]
  | price isToken isReward none =>
      simp [isToken, isReward, none, bind, Except.bind]
  | rewardPrice isToken isReward isPrice none =>
      simp [isToken, isReward, isPrice, none, bind, Except.bind]
  | @unreadable _ _ tokenPrice rewardPrice isToken isReward isPrice isRewardPrice either =>
      have unreadable : (!isReadable tokenPrice || !isReadable rewardPrice) = true := by
        rw [Bool.or_eq_true, Bool.not_eq_true', Bool.not_eq_true']
        exact either
      simp [isToken, isReward, isPrice, isRewardPrice, unreadable, bind, Except.bind, throw,
        throwThe, MonadExceptOf.throw]

theorem quoted_or_missing (ledger : Ledger) (rewardToken : Address) (rewardChainId : Nat)
    (d : Deposit) :
    (∃ price, ledger.Quoted rewardToken rewardChainId d price) ∨
      ∃ cause, ledger.Missing rewardToken rewardChainId d cause := by
  cases isToken : ledger.token? d.inputToken d.originChainId with
  | none => exact .inr ⟨_, .token isToken⟩
  | some token =>
  cases isReward : ledger.token? rewardToken rewardChainId with
  | none => exact .inr ⟨_, .rewardToken isToken isReward⟩
  | some reward =>
  cases isPrice : ledger.price? token.priceSymbol d.depositDate.date with
  | none => exact .inr ⟨_, .price isToken isReward isPrice⟩
  | some tokenPrice =>
  cases isRewardPrice : ledger.price? reward.priceSymbol d.depositDate.date with
  | none => exact .inr ⟨_, .rewardPrice isToken isReward isPrice isRewardPrice⟩
  | some rewardPrice =>
  cases readable : Decimal.isDecimalText tokenPrice.usd with
  | false => exact .inr ⟨_, .unreadable isToken isReward isPrice isRewardPrice (.inl readable)⟩
  | true =>
  cases readableReward : Decimal.isDecimalText rewardPrice.usd with
  | false =>
      exact .inr ⟨_, .unreadable isToken isReward isPrice isRewardPrice (.inr readableReward)⟩
  | true =>
      exact .inl ⟨_, .known isToken isReward isPrice isRewardPrice readable readableReward⟩

theorem pricesFor_eq_ok {price : PriceSnapshot} :
    ledger.pricesFor rewardToken rewardChainId d = .ok price ↔
      ledger.Quoted rewardToken rewardChainId d price := by
  refine ⟨fun found => ?_, Quoted.pricesFor_eq⟩
  rcases ledger.quoted_or_missing rewardToken rewardChainId d with ⟨other, quoted⟩ | ⟨_, missing⟩
  · rw [quoted.pricesFor_eq] at found
    exact Except.ok.inj found ▸ quoted
  · rw [missing.pricesFor_eq] at found
    cases found

theorem not_quoted_iff :
    (¬ ∃ price, ledger.Quoted rewardToken rewardChainId d price) ↔
      ∃ cause, ledger.Missing rewardToken rewardChainId d cause := by
  constructor
  · exact (ledger.quoted_or_missing rewardToken rewardChainId d).resolve_left
  · rintro ⟨cause, missing⟩ ⟨price, quoted⟩
    cases quoted.pricesFor_eq.symm.trans missing.pricesFor_eq

end BridgeRewards.Ledger
