import BridgeRewards.Proofs.Run.Attempt

/-!
# Windows stay and advance

A window that is written stays as it is, and so do its recipients; and a window that is added to a
line has a higher index than all that the line has (`Ledger.Advances`).  This holds of every
operation, whatever lines there are besides, since an index is checked once more when its job
begins; so it holds of every run.  Hence the windows of a line are listed in the order in which they
were added, and an index that a line has left behind is never used on it (`advances_of_run`).
-/

set_option autoImplicit false

namespace BridgeRewards

namespace Ledger

variable {ledger before after : Ledger} {line : Line} {index : Nat}

/-! ## Advancing -/

/-- Windows stay with their recipients, and what is added to a line has a higher index than all that
the line has. -/
structure Advances (before after : Ledger) : Prop where
  windows : after.windows.Extends before.windows
  recipients : ∀ line index, before.hasWindow line index = true →
    after.recipientsOf line index = before.recipientsOf line index
  higher : ∀ line index, before.hasWindow line index = false → after.hasWindow line index = true →
    ∀ held, before.hasWindow line held = true → held < index

theorem Advances.hasWindow (advances : Advances before after)
    (has : before.hasWindow line index = true) : after.hasWindow line index = true := by
  obtain ⟨window, found⟩ := hasWindow_eq_true.mp has
  exact hasWindow_eq_true.mpr ⟨window, advances.windows _ _ found⟩

theorem Advances.of_eq (windows : after.windows = before.windows)
    (recipients : after.recipients = before.recipients) : Advances before after := by
  refine ⟨windows ▸ .refl _, fun line index _ => ?_, fun line index lacks has => ?_⟩
  · unfold recipientsOf
    rw [recipients]
  · have same : after.hasWindow line index = before.hasWindow line index := by
      unfold Ledger.hasWindow
      rw [windows]
    rw [same, lacks] at has
    cases has

theorem Advances.trans {first second third : Ledger} (earlier : Advances first second)
    (later : Advances second third) : Advances first third := by
  refine ⟨earlier.windows.trans later.windows, fun line index has => ?_,
    fun line index lacks has held holds => ?_⟩
  · rw [later.recipients line index (earlier.hasWindow has), earlier.recipients line index has]
  · cases between : second.hasWindow line index with
    | true => exact earlier.higher line index lacks between held holds
    | false => exact later.higher line index between has held (earlier.hasWindow holds)

/-- A window that is committed for an index that is not used up advances its line. -/
theorem Advances.of_commits (placed : before.Placed) (commits : Commits line before after) :
    Advances before after := by
  obtain ⟨distributor, job, commit, written, rfl, usable, prepared, committed, -, windows,
    recipients⟩ := commits
  obtain ⟨place, -⟩ := Distributor.place_of_prepare prepared
  obtain ⟨isWindows, isRecipients⟩ := tables_of_commit committed
  rw [place] at isWindows isRecipients
  have free := Distributor.free_of_checkIndex usable
  refine ⟨windows ▸ isWindows ▸ Table.extends_insert free, fun line index has => ?_,
    fun line index lacks has held holds => ?_⟩
  · obtain ⟨window, found⟩ := hasWindow_eq_true.mp has
    have elsewhere : (line, index) ≠ (distributor.line, job.windowIndex) := by
      intro same
      rw [same, free] at found
      cases found
    unfold recipientsOf
    rw [recipients, isRecipients, Table.find?_insert, if_neg elsewhere]
  · -- What is new is the window that is committed.
    obtain ⟨window, found⟩ := hasWindow_eq_true.mp has
    rw [windows, isWindows, Table.find?_insert] at found
    split at found
    · next same =>
        cases same
        have unused := mt (Distributor.usedUp_iff placed).mpr
          (Distributor.checkIndex_eq_ok.mp usable)
        exact Nat.lt_of_not_le fun lower => unused ⟨held, holds, lower⟩
    · rw [hasWindow_eq_true.mpr ⟨window, found⟩] at lacks
      cases lacks

theorem Consistent.advances (consistent : Consistent ledger) (operation : Operation) :
    Advances ledger (ledger.after operation) := by
  obtain ⟨line, onLine⟩ := operation.exists_onLine
  obtain ⟨lpFeeCap, capped⟩ := operation.exists_capped
  rcases quiet_or_commits consistent.keyed onLine capped with quiet | commits
  · exact .of_eq quiet.windows quiet.recipients
  · exact .of_commits consistent.placed commits

theorem Consistent.advances_run (consistent : Consistent ledger) (operations : List Operation) :
    Consistent (ledger.run operations) ∧ Advances ledger (ledger.run operations) :=
  run_induction (fun _ => True) (fun later => Consistent later ∧ Advances ledger later)
    (fun _ operation _ reached =>
      ⟨reached.1.step operation, reached.2.trans (reached.1.advances operation)⟩)
    ⟨consistent, .of_eq rfl rfl⟩ (fun operation (_ : operation ∈ operations) => trivial)

/-! ## The order of windows -/

/-- The windows of a line at places that were free before. -/
def addedOn (line : Line) (before after : Ledger) : List Window :=
  (after.windows.rows.filter fun row => row.1.1 == line && !before.windows.contains row.1).map (·.2)

/-- The windows that operations add to a line, in the order in which they are added. -/
def addedBy (line : Line) : Ledger → List Operation → List Window
  | _, [] => []
  | ledger, operation :: rest =>
    addedOn line ledger (ledger.after operation) ++ addedBy line (ledger.after operation) rest

theorem Advances.windowsOn_eq (advances : Advances before after) (line : Line) :
    after.windowsOn line = before.windowsOn line ++ addedOn line before after := by
  unfold windowsOn addedOn
  rw [← List.map_append]
  congr 1
  refine Table.eq_of_mem_iff (after.windows.increasing.filter _) ?_ fun row => ?_
  · refine List.pairwise_append.mpr ⟨before.windows.increasing.filter _,
      after.windows.increasing.filter _, ?_⟩
    rintro ⟨⟨heldLine, held⟩, _⟩ isHeld ⟨⟨newLine, new⟩, _⟩ isNew
    simp only [List.mem_filter, Bool.and_eq_true, beq_iff_eq, Bool.not_eq_true',
      ← Table.find?_eq_some_iff] at isHeld isNew
    obtain ⟨holds, rfl⟩ := isHeld
    obtain ⟨has, rfl, lacks⟩ := isNew
    exact compare_place.mpr (advances.higher _ new lacks (hasWindow_eq_true.mpr ⟨_, has⟩) held
      (hasWindow_eq_true.mpr ⟨_, holds⟩))
  · obtain ⟨place, window⟩ := row
    simp only [List.mem_append, List.mem_filter, Bool.and_eq_true, beq_iff_eq, Bool.not_eq_true',
      ← Table.find?_eq_some_iff]
    constructor
    · rintro ⟨found, onLine⟩
      cases has : before.windows.contains place with
      | false => exact .inr ⟨found, onLine, rfl⟩
      | true =>
          obtain ⟨held, isHeld⟩ := Option.isSome_iff_exists.mp has
          obtain rfl := Option.some.inj ((advances.windows _ _ isHeld).symm.trans found)
          exact .inl ⟨isHeld, onLine⟩
    · rintro (⟨found, onLine⟩ | ⟨found, onLine, -⟩)
      · exact ⟨advances.windows _ _ found, onLine⟩
      · exact ⟨found, onLine⟩

/-- The windows of a line after a run are those before, then those that were added, in order. -/
theorem Consistent.windowsOn_run (consistent : Consistent ledger) (line : Line)
    (operations : List Operation) :
    (ledger.run operations).windowsOn line =
      ledger.windowsOn line ++ addedBy line ledger operations := by
  induction operations generalizing ledger with
  | nil => exact (List.append_nil _).symm
  | cons operation rest ih =>
      change ((ledger.after operation).run rest).windowsOn line = _
      rw [ih (consistent.step operation), (consistent.advances operation).windowsOn_eq line,
        List.append_assoc]
      rfl

theorem Consistent.length_addedOn_le_one (consistent : Consistent ledger) (operation : Operation)
    (line : Line) : (addedOn line ledger (ledger.after operation)).length ≤ 1 := by
  obtain ⟨place, alone⟩ : ∃ place, ∀ other window,
      (ledger.after operation).windows.find? other = some window →
        ledger.windows.contains other = false → other = place := by
    obtain ⟨itsLine, onLine⟩ := operation.exists_onLine
    obtain ⟨lpFeeCap, capped⟩ := operation.exists_capped
    rcases quiet_or_commits consistent.keyed onLine capped with quiet | commits
    · refine ⟨(itsLine, 0), fun other window found lacks => ?_⟩
      rw [quiet.windows] at found
      rw [Table.contains, found] at lacks
      cases lacks
    · obtain ⟨-, -, commit, written, -, -, -, committed, -, windows, -⟩ := commits
      refine ⟨commit.place, fun other window found lacks => ?_⟩
      rw [windows, (tables_of_commit committed).1, Table.find?_insert] at found
      split at found
      · assumption
      · rw [Table.contains, found] at lacks
        cases lacks
  unfold addedOn
  rw [List.length_map]
  have rows := (ledger.after operation).windows.increasing.filter
    fun row => row.1.1 == line && !ledger.windows.contains row.1
  have places : ∀ row ∈ (ledger.after operation).windows.rows.filter
      (fun row => row.1.1 == line && !ledger.windows.contains row.1), row.1 = place := by
    rintro ⟨other, window⟩ member
    simp only [List.mem_filter, Bool.and_eq_true, Bool.not_eq_true', ← Table.find?_eq_some_iff]
      at member
    exact alone other window member.1 member.2.2
  generalize (ledger.after operation).windows.rows.filter _ = added at rows places ⊢
  rcases added with _ | ⟨first, _ | ⟨second, rest⟩⟩
  · exact Nat.zero_le 1
  · exact le_refl 1
  · have less := (List.pairwise_cons.mp rows).1 second List.mem_cons_self
    rw [places first List.mem_cons_self, places second (by simp), Std.compare_self] at less
    cases less

/-! ## What runs keep -/

/-- An index that a line has left behind cannot be used for a new job. -/
theorem refused_createJob {distributor : Distributor} {held : Nat} (placed : ledger.Placed)
    (has : ledger.hasWindow distributor.line held = true) (lower : index ≤ held) (now : Instant)
    (jobId : String) (config : JobConfig) :
    ∃ e, ledger.attempt (distributor.createJob now ledger jobId index config) =
      (ledger, .error e) := by
  have usedUp := (Distributor.usedUp_iff placed).mpr ⟨held, has, lower⟩
  exact (refusedIf_attempt Distributor.exists_createJob_error_iff).eq_of_condition (.usedUp usedUp)

/-- A job with an index that a line has left behind cannot run. -/
theorem refused_runByWrites {distributor : Distributor} {held : Nat} {jobId : String} {job : Job}
    (placed : ledger.Placed) (has : ledger.hasWindow distributor.line held = true)
    (known : ledger.getJob jobId = .ok job) (lower : job.windowIndex ≤ held)
    (givenUp : Option String) :
    ∃ e, distributor.runByWrites ledger jobId givenUp = (ledger, .error e) := by
  have usedUp := (Distributor.usedUp_iff placed).mpr ⟨held, has, lower⟩
  exact (Distributor.refusedIf_runByWrites distributor ledger jobId givenUp).eq_of_condition
    (.usedUp known usedUp)

/-- **Windows stay and advance.**  What a run leads to advances over any earlier ledger of the run,
on every line: windows and their recipients stay, those of a line are listed in the order in which
the operations add them, at most one each, and an index that is not above all that the line had is
refused for good, with nothing changed. -/
theorem advances_of_run (earlier later : List Operation) :
    let before := Ledger.empty.run earlier
    let after := Ledger.empty.run (earlier ++ later)
    Advances before after ∧
    (∀ line, after.windowsOn line = before.windowsOn line ++ addedBy line before later) ∧
    (∀ operation line, (addedBy line before [operation]).length ≤ 1) ∧
    ∀ (distributor : Distributor) held, before.hasWindow distributor.line held = true →
      (∀ index ≤ held, ∀ now jobId config, ∃ e,
        after.attempt (distributor.createJob now after jobId index config) = (after, .error e)) ∧
      ∀ jobId job, after.getJob jobId = .ok job → job.windowIndex ≤ held → ∀ givenUp, ∃ e,
        distributor.runByWrites after jobId givenUp = (after, .error e) := by
  intro before after
  have consistent : before.Consistent := consistent_run earlier
  obtain ⟨still, advances⟩ := consistent.advances_run later
  rw [← run_append] at still advances
  refine ⟨advances, fun line => ?_, fun operation line => ?_, fun distributor held holds => ?_⟩
  · rw [← consistent.windowsOn_run line later, ← run_append]
  · exact (congrArg List.length (List.append_nil _)).trans_le
      (consistent.length_addedOn_le_one operation line)
  · have has := advances.hasWindow holds
    exact ⟨fun index lower now jobId config =>
        refused_createJob still.placed has lower now jobId config,
      fun jobId job known lower givenUp =>
        refused_runByWrites still.placed has known lower givenUp⟩

/-- Once the job of the trial has run, its window stays whatever is done, and no job is created for
its index any more. -/
theorem advances_of_run_trial : ∃ window, ∀ later,
    let after := Ledger.empty.run
      ((Trial.operations ++ [.runJob Trial.distributor "job"]) ++ later)
    after.windows.find? (Trial.distributor.line, 0) = some window ∧
    ∃ e, after.attempt (Trial.distributor.createJob .epoch after "again" 0 ⟨.epoch, .lpFee⟩) =
      (after, .error e) := by
  obtain ⟨window, found⟩ := Trial.exists_window
  refine ⟨window, fun later => ?_⟩
  obtain ⟨advances, -, -, refuses⟩ :=
    advances_of_run (Trial.operations ++ [.runJob Trial.distributor "job"]) later
  obtain ⟨created, -⟩ := refuses Trial.distributor 0 (hasWindow_eq_true.mpr ⟨window, found⟩)
  exact ⟨advances.windows _ _ found, created 0 (Nat.le_refl 0) _ _ _⟩

end Ledger

end BridgeRewards
