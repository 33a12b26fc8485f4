import BridgeRewards.Deposit.Standing

/-!
# Referral volume

How a referrer has done up to some instant: the number of distinct depositors and the dollars of
their deposits.  Deposits whose referral window the referrer has claimed no longer count.  The
index holds running totals for each referrer, in order of the deposits' dates, so that a question
about an instant is answered by the last point that is not after it.
-/

set_option autoImplicit false

namespace BridgeRewards

/-- The windows that each account has claimed. -/
abbrev ClaimedWindows := Table Address (List Nat)

/-- The windows that an account has claimed. -/
def ClaimedWindows.of (claimed : ClaimedWindows) (account : Address) : List Nat :=
  (Table.find? claimed account).getD []

/-- The claimed windows that an object gives, with an account's address for each key. -/
def ClaimedWindows.ofJson? (json : Json) : Option ClaimedWindows := do
  let members ← json.asMap? (Json.asList? Json.asNat64?)
  let rows ← members.mapM fun (key, windows) => (Address.ofText? key).map (·, windows)
  return Table.ofList rows

/-- The depositors and dollars that a referrer has brought. -/
structure ReferralVolume where
  count : Nat
  volume : Decimal
  deriving DecidableEq

/-- The running totals after one deposit. -/
structure VolumePoint where
  instant : Instant
  total : ReferralVolume

/-- Running totals for each referrer. -/
structure VolumeIndex where
  points : Table Address (List VolumePoint)

namespace VolumeIndex

/-- The referrer and the values of a deposit that counts for one. -/
def counted? (claimed : ClaimedWindows) (d : Deposit) :
    Except RewardError (Option (Address × PricedDeposit)) :=
  match d.stickyReferralAddress with
  | none => .ok none
  | some referral =>
    if d.isFilled && d.notPaidOut (claimed.of referral) then
      (PricedDeposit.ofDeposit d).map fun values => values.map (referral, ·)
    else .ok none

/-- The deposits that count, with their referrers, in the given order. -/
def counted (claimed : ClaimedWindows) :
    List Deposit → Except RewardError (List (Address × PricedDeposit))
  | [] => .ok []
  | d :: rest => do
    let first ← counted? claimed d
    let others ← counted claimed rest
    return first.toList ++ others

/-- Whether a deposit comes before another in the running totals. -/
def notAfter (a b : PricedDeposit) : Bool :=
  match compare a.depositDate b.depositDate with
  | .lt => true
  | .eq => (compare a.key b.key).isLE
  | .gt => false

/-- The running totals over deposits in order; `seen` and `volume` are those before them. -/
def runningTotals (seen : List Address) (volume : Decimal) : List PricedDeposit → List VolumePoint
  | [] => []
  | d :: rest =>
    let seen := if seen.contains d.depositor then seen else d.depositor :: seen
    let volume := volume + d.usdVolume
    ⟨d.depositDate, seen.length, volume⟩ :: runningTotals seen volume rest

/-- The deposits of each referrer, in the given order. -/
def group (deposits : List (Address × PricedDeposit)) : Table Address (List PricedDeposit) :=
  deposits.foldl (fun groups (referral, d) =>
    groups.insert referral ((groups.find? referral).getD [] ++ [d])) .empty

/-- The index over some deposits. -/
def build (deposits : List Deposit) (claimed : ClaimedWindows) :
    Except RewardError VolumeIndex := do
  let groups := group (← counted claimed deposits)
  return ⟨groups.mapValues fun ds => runningTotals [] 0 (ds.mergeSort notAfter)⟩

/-- How a referrer has done up to an instant. -/
def upTo (index : VolumeIndex) (referral : Address) (instant : Instant) : ReferralVolume :=
  let points := (index.points.find? referral).getD []
  match (points.takeWhile fun p => decide (p.instant ≤ instant)).getLast? with
  | some point => point.total
  | none => ⟨0, 0⟩

/-- The number of referrers that have totals. -/
def size (index : VolumeIndex) : Nat := index.points.size

end VolumeIndex

end BridgeRewards
