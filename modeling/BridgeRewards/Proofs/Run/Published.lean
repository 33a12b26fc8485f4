import BridgeRewards.Proofs.Run.Consistent

/-!
# What is published can be checked

Whatever a run has done, every window that stands in the ledger stands there with recipients whose
published proofs are valid: each leads from its leaf to the root of the window, with the amount as
it is written in the ledger.  The recipients count from zero in order of their addresses.
-/

set_option autoImplicit false

namespace BridgeRewards

/-- The check of a recipient whose proof is valid. -/
def Recipient.passed (recipient : Recipient) : ProofCheck :=
  ⟨recipient.accountIndex, recipient.address, recipient.amount, true⟩

/-- A window can be checked with its recipients. -/
structure Window.Verifiable (window : Window) (recipients : List Recipient) : Prop where
  /-- Every recipient's proof leads to the root. -/
  proofs : ∀ recipient ∈ recipients,
    recipient.artifact.verify window.merkleRoot = .ok true
  /-- So every check of what is published is passed. -/
  checks : ProofCheck.runAll window.artifact (recipients.map Recipient.artifact) =
    .ok (recipients.map Recipient.passed)
  /-- The recipients count from zero. -/
  indices : recipients.map (·.accountIndex) = List.range recipients.length
  /-- Their addresses increase strictly. -/
  addresses : recipients.Pairwise fun a b => a.address < b.address

/-- Recipients of a window with valid proofs pass all checks. -/
theorem Window.checks_of_proofs {window : Window} {recipients : List Recipient}
    (belong : ∀ recipient ∈ recipients, recipient.windowIndex = window.windowIndex)
    (proofs : ∀ recipient ∈ recipients,
      recipient.artifact.verify window.merkleRoot = .ok true) :
    ProofCheck.runAll window.artifact (recipients.map Recipient.artifact) =
      .ok (recipients.map Recipient.passed) := by
  unfold ProofCheck.runAll
  rw [Outcome.mapM_eq_ok, List.forall₂_map_left_iff, List.forall₂_map_right_iff,
    List.forall₂_same]
  intro recipient member
  have same : recipient.artifact.windowIndex = window.artifact.windowIndex :=
    belong recipient member
  have valid : recipient.artifact.verify window.artifact.merkleRoot = .ok true :=
    proofs recipient member
  unfold ProofCheck.run
  rw [if_pos same, valid]
  rfl

theorem Distributor.verifiable_of_prepare {distributor : Distributor} {ledger : Ledger} {job : Job}
    {commit : WindowCommit} (h : distributor.prepare ledger job = .ok commit) :
    commit.window.Verifiable commit.recipients where
  proofs _ member := (verify_of_prepare h member).2
  checks := Window.checks_of_proofs (fun _ member => (verify_of_prepare h member).1)
    fun _ member => (verify_of_prepare h member).2
  indices := map_accountIndex_of_prepare h
  addresses := pairwise_address_of_prepare h

namespace Ledger

/-- **Every published proof is valid.**  After any run, a window stands with recipients with whom
it can be checked, and these are what a distributor of the line publishes. -/
theorem verifiable_of_run (operations : List Operation) {line : Line} {index : Nat}
    {window : Window}
    (found : (Ledger.empty.run operations).windows.find? (line, index) = some window) :
    ∃ recipients,
      (Ledger.empty.run operations).recipients.find? (line, index) = some recipients ∧
        window.Verifiable recipients ∧
        ∀ distributor : Distributor, distributor.line = line →
          distributor.artifacts (Ledger.empty.run operations) index =
            .ok (window.artifact, recipients.map Recipient.artifact) := by
  obtain ⟨distributor, source, job, commit, prepared, rfl, -, recipients⟩ :=
    (consistent_run operations).prepared (line, index) window found
  refine ⟨commit.recipients, recipients, Distributor.verifiable_of_prepare prepared, ?_⟩
  rintro publisher rfl
  unfold Distributor.artifacts getWindow recipientsOf
  rw [found, recipients]
  rfl

theorem verifiable_of_run_trial :
    ∃ window,
      (Ledger.empty.run (Trial.operations ++ [.runJob Trial.distributor "job"])).windows.find?
        (Trial.distributor.line, 0) = some window ∧
      ∃ recipients,
        (Ledger.empty.run
          (Trial.operations ++ [.runJob Trial.distributor "job"])).recipients.find?
            (Trial.distributor.line, 0) = some recipients ∧
          window.Verifiable recipients ∧
          ∀ distributor : Distributor, distributor.line = Trial.distributor.line →
            distributor.artifacts
              (Ledger.empty.run (Trial.operations ++ [.runJob Trial.distributor "job"])) 0 =
              .ok (window.artifact, recipients.map Recipient.artifact) := by
  obtain ⟨window, found⟩ := Trial.exists_window
  exact ⟨window, found, verifiable_of_run _ found⟩

end Ledger

end BridgeRewards
