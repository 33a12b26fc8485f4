import BridgeRewards.Proofs.Distributor.Kinds
import BridgeRewards.Proofs.Run.Attempt
import BridgeRewards.Proofs.Run.Conclusion

/-!
# Kinds of rewards are independent

Two ledgers are compared: one in which a job has run, and the one before.  Apart from jobs, a run
leaves the ledger as it was or enters the window that was prepared (`Distributor.Leaves`), and a job
of another kind that is ready to run (`Ledger.Ready`) ends the same in both (`Leaves.ended_eq`),
with the same window, recipients and assignments (`Ledger.SameWindow`).  Whether its index is used
up is the same too, if it is higher (`Leaves.checkIndex_iff`).  Hence a job never notices that one
of another kind has run for a lower index, however that ended (`independent_of_runs`).

Deposits are to stand at their own keys and windows at their own places, as they do in whatever is
written (`Ledger.Keyed`, `Ledger.Placed`).
-/

set_option autoImplicit false

namespace BridgeRewards

/-- A job is ready to run: it is known and has not run yet, or it can be created. -/
inductive Ledger.Ready (ledger : Ledger) : Job → Prop
  | known {initial : Job} (found : ledger.getJob initial.jobId = .ok initial)
      (status : initial.status = .initial) : Ready ledger initial
  | new {now : Instant} {jobId : String} {config : JobConfig} (index : Nat)
      (past : config.validate now = .ok ()) (fresh : ∀ other ∈ ledger.jobs, other.jobId ≠ jobId) :
      Ready ledger (.new jobId index config)

/-- Two ledgers have the same window at a place, with the same recipients and with the same
deposits assigned to windows of its kind. -/
structure Ledger.SameWindow (line : Line) (index : Nat) (kind : RewardType)
    (first second : Ledger) : Prop where
  window : first.windows.find? (line, index) = second.windows.find? (line, index)
  recipients : first.recipientsOf line index = second.recipientsOf line index
  assigned : ∀ key, (first.deposits.find? key).map (·.windowFor kind) =
    (second.deposits.find? key).map (·.windowFor kind)

namespace Ledger

variable {ledger first second : Ledger} {line : Line} {index : Nat} {kind : RewardType}

/-- A window of another kind that is entered elsewhere is not seen. -/
theorem sameWindow_enter {commit : WindowCommit} (kinds : commit.kind ≠ kind)
    (places : commit.place ≠ (line, index)) :
    SameWindow line index kind (ledger.enter commit) ledger where
  window := (Table.find?_insert _ _ _ _).trans (if_neg places.symm)
  recipients := by
    unfold recipientsOf
    exact congrArg (Option.getD · [])
      ((Table.find?_insert _ _ _ _).trans (if_neg places.symm))
  assigned key := by
    change ((ledger.deposits.mapValues commit.stampOn).find? key).map _ = _
    rw [Table.find?_mapValues, Option.map_map]
    refine Option.map_congr fun d _ => ?_
    rw [Function.comp_apply, WindowCommit.stampOn]
    split
    · exact Deposit.windowFor_stamp_of_ne kinds _ d
    · rfl

theorem Ready.of_getJob {initial : Job} (ready : first.Ready initial)
    (same : second.getJob initial.jobId = first.getJob initial.jobId) : second.Ready initial := by
  cases ready with
  | known found status => exact .known (same.trans found) status
  | @new now jobId config index past fresh =>
      refine .new index past fun other member isName => ?_
      obtain ⟨job, found⟩ := exists_getJob_iff.mpr ⟨other, member, isName⟩
      have known : first.getJob jobId = .ok job := same.symm.trans found
      exact fresh job (mem_of_getJob known) (jobId_of_getJob known)

/-- Jobs of one name with one index and settings that are ready in ledgers in which the name is
found alike are one job. -/
theorem Ready.eq_of_getJob {initial other : Job} (ready : second.Ready initial)
    (isOther : first.Ready other) (names : initial.jobId = other.jobId)
    (places : initial.windowIndex = other.windowIndex) (settings : initial.config = other.config)
    (same : second.getJob other.jobId = first.getJob other.jobId) : initial = other := by
  have never : ∀ {ledger : Ledger} {job : Job} {name : String}, ledger.getJob name = .ok job →
      ¬ ∀ other ∈ ledger.jobs, other.jobId ≠ name :=
    fun found fresh => fresh _ (mem_of_getJob found) (jobId_of_getJob found)
  cases ready with
  | known found _ =>
      rw [names, same] at found
      cases isOther with
      | known isFound _ => exact Except.ok.inj (found.symm.trans isFound)
      | new index past fresh => exact (never found fresh).elim
  | new index past fresh =>
      cases isOther with
      | known isFound _ =>
          rw [← same, ← names] at isFound
          exact (never isFound fresh).elim
      | new otherIndex _ _ =>
          cases names
          cases places
          cases settings
          rfl

end Ledger

namespace Distributor

variable {distributor : Distributor} {ledger before after : Ledger} {job initial : Job}
  {index : Nat} {kind : RewardType} {config : JobConfig} {givenUp : Option String}

/-! ## Runs by how they end -/

/-- A job with an index and settings is run to its end, unless it is given up for some reason: one
that is known, or one that is created for it. -/
inductive Tries (distributor : Distributor) (givenUp : Option String) (before : Ledger)
    (index : Nat) (config : JobConfig) : Job → Ledger → Prop
  | known {jobId : String} {initial job : Job} {after : Ledger}
      (found : before.getJob jobId = .ok initial) (place : initial.windowIndex = index)
      (settings : initial.config = config)
      (ran : distributor.runByWrites before jobId givenUp = (after, .ok job)) :
      Tries distributor givenUp before index config job after
  | created {now : Instant} {jobId : String} {initial job : Job} {created after : Ledger}
      (isCreated : distributor.createJob now before jobId index config = .ok (initial, created))
      (ran : distributor.runByWrites created jobId givenUp = (after, .ok job)) :
      Tries distributor givenUp before index config job after

theorem Runs.tries (runs : distributor.Runs before index config job after) :
    distributor.Tries none before index config job after := by
  cases runs with
  | known found place settings ran => exact .known found place settings (runByWrites_of_runJob ran)
  | created ran =>
      obtain ⟨created, isCreated, ran⟩ := execute_eq_ok.mp ran
      exact .created isCreated (runByWrites_of_runJob ran)

/-- A job that is run was ready to run, and ends as it does from the ledger before. -/
theorem Tries.exists_initial (tries : distributor.Tries givenUp before index config job after) :
    ∃ initial, before.Ready initial ∧ initial.windowIndex = index ∧ initial.config = config ∧
      before.jobsIn .inProgress = [] ∧ distributor.checkIndex before index = .ok () ∧
      job = (distributor.ended before initial.begun givenUp).1 ∧
      after = { (distributor.ended before initial.begun givenUp).2 with jobs := after.jobs } := by
  cases tries with
  | @known jobId initial _ _ found place settings ran =>
      obtain ⟨started, begins, rfl, rfl⟩ := runByWrites_eq_ok.mp ran
      obtain ⟨same, isSame, status, idle, usable, rfl, -⟩ := beginJob_eq_ok.mp begins
      obtain rfl : initial = same := Except.ok.inj (found.symm.trans isSame)
      have name := Ledger.jobId_of_getJob found
      exact ⟨initial, .known (name ▸ found) status, place, settings, idle, place ▸ usable, rfl, rfl⟩
  | @created now jobId _ _ _ _ isCreated ran =>
      obtain ⟨valid, usable, -, fresh, rfl, rfl⟩ := createJob_eq_ok.mp isCreated
      obtain ⟨started, begins, rfl, rfl⟩ := runByWrites_eq_ok.mp ran
      obtain ⟨same, isSame, -, idle, -, rfl, -⟩ := beginJob_eq_ok.mp begins
      obtain rfl : Job.new jobId index config = same :=
        Except.ok.inj ((Ledger.getJob_append fresh).symm.trans isSame)
      have stillIdle : before.jobsIn .inProgress = [] := by
        unfold Ledger.jobsIn at idle ⊢
        rw [List.filter_append] at idle
        exact (List.append_eq_nil_iff.mp idle).1
      rw [ended_jobs]
      exact ⟨.new jobId index config, .new index valid fresh, rfl, rfl, stillIdle, usable, rfl, rfl⟩

/-- A job that is ready to run is run if no job is in progress and its index is not used up. -/
theorem exists_tries (givenUp : Option String) (ready : before.Ready initial)
    (idle : before.jobsIn .inProgress = [])
    (usable : distributor.checkIndex before initial.windowIndex = .ok ()) :
    ∃ jobs, distributor.Tries givenUp before initial.windowIndex initial.config
      (distributor.ended before initial.begun givenUp).1
      { (distributor.ended before initial.begun givenUp).2 with jobs } := by
  cases ready with
  | known found status =>
      have begins := beginJob_eq_ok.mpr ⟨initial, found, status, idle, usable, rfl, rfl⟩
      exact ⟨_, .known found rfl rfl (runByWrites_of_beginJob begins)⟩
  | new index past fresh =>
      have others : ∀ other ∈ before.jobsIn .inProgress, other.windowIndex ≠ index := by
        simp [idle]
      have isCreated := createJob_eq_ok.mpr ⟨past, usable, others, fresh, rfl, rfl⟩
      have ran := @runByWrites_of_beginJob _ _ _ _ givenUp (beginJob_of_createJob isCreated idle)
      rw [ended_jobs] at ran
      exact ⟨_, .created isCreated ran⟩

/-- What a run does to jobs: its own is not in progress any more, and those of other names stay. -/
theorem jobs_of_runByWrites {jobId : String}
    (ran : distributor.runByWrites before jobId givenUp = (after, .ok job)) :
    job.jobId = jobId ∧ after.jobsIn .inProgress = [] ∧
      ∀ name, name ≠ job.jobId → after.getJob name = before.getJob name := by
  obtain ⟨started, begins, isJob, rfl⟩ := runByWrites_eq_ok.mp ran
  obtain ⟨initial, found, -, idle, -, isStarted, -⟩ := beginJob_eq_ok.mp begins
  obtain ⟨isName, stopped⟩ := @keeps_ended distributor before started givenUp
  have jobs := @jobs_ended distributor before started givenUp
  have own := Ledger.jobId_of_getJob found
  have name : started.jobId = jobId := (congrArg Job.jobId isStarted).trans own
  rw [← isJob] at isName stopped
  generalize (distributor.ended before started givenUp).2 = written at jobs ⊢
  refine ⟨isName.trans name, ?_, fun name differs => ?_⟩
  · refine List.eq_nil_iff_forall_not_mem.mpr fun other runs => ?_
    obtain ⟨member, inProgress⟩ := Ledger.mem_jobsIn.mp runs
    obtain ⟨old, isOld, rfl⟩ := List.mem_map.mp member
    split at inProgress
    · exact stopped inProgress
    · have none := Ledger.mem_jobsIn.mpr ⟨jobs ▸ isOld, inProgress⟩
      rw [idle] at none
      cases none
  · rw [Ledger.getJob_withJob_of_ne differs]
    unfold Ledger.getJob
    rw [jobs]

theorem Tries.jobs (tries : distributor.Tries givenUp before index config job after) :
    after.jobsIn .inProgress = [] ∧
      ∀ name, name ≠ job.jobId → after.getJob name = before.getJob name := by
  cases tries with
  | known _ _ _ ran => exact (jobs_of_runByWrites ran).2
  | created isCreated ran =>
      obtain ⟨-, -, -, -, rfl, rfl⟩ := createJob_eq_ok.mp isCreated
      obtain ⟨isName, idle, others⟩ := jobs_of_runByWrites ran
      refine ⟨idle, fun name differs => (others name differs).trans ?_⟩
      exact Ledger.getJob_append_of_ne (isName ▸ differs)

/-- What a run may leave of a ledger, apart from jobs: the ledger as it was, or one into which the
window that was prepared from it is entered. -/
inductive Leaves (distributor : Distributor) (before : Ledger) (index : Nat) (kind : RewardType) :
    Ledger → Prop
  | failed : Leaves distributor before index kind before
  | entered {job : Job} {commit : WindowCommit} {written : Ledger}
      (prepared : distributor.prepare before job = .ok commit)
      (committed : before.commit commit = .ok written)
      (place : commit.place = (distributor.line, index)) (isKind : commit.kind = kind) :
      Leaves distributor before index kind (before.enter commit)

theorem leaves_ended (keyed : before.Keyed) (started : Job) (givenUp : Option String) :
    distributor.Leaves before started.windowIndex started.config.kind
      (distributor.ended before started givenUp).2 := by
  unfold ended
  split
  · exact .failed
  · exact .failed
  · next commit written build =>
      obtain ⟨prepared, committed⟩ := buildWindow_eq_ok.mp build
      obtain ⟨place, isKind, -⟩ := place_of_prepare prepared
      rw [Ledger.eq_enter_of_commit keyed committed]
      exact .entered prepared committed place isKind

theorem Leaves.checkIndex_iff (leaves : distributor.Leaves before index kind after)
    (placed : before.Placed) {other : Nat} (lower : index < other) :
    distributor.checkIndex after other = .ok () ↔
      distributor.checkIndex before other = .ok () := by
  cases leaves with
  | failed => exact Iff.rfl
  | @entered job commit written prepared committed place isKind =>
      have own : commit.window.windowIndex = index := congrArg (·.2) place
      have windows : ∀ key, (before.enter commit).windows.find? key =
          if key = (distributor.line, index) then some commit.window
          else before.windows.find? key := by
        intro key
        rw [← place]
        exact Table.find?_insert _ _ _ _
      have stillPlaced : (before.enter commit).Placed := by
        intro key window found
        rw [windows] at found
        split at found
        · next here =>
            obtain rfl := Option.some.inj found
            rw [here]
            exact own
        · exact placed key window found
      rw [checkIndex_eq_ok, checkIndex_eq_ok, usedUp_iff stillPlaced, usedUp_iff placed]
      refine not_congr (exists_congr fun held => and_congr_left fun isHigher => ?_)
      have elsewhere : (distributor.line, held) ≠ (distributor.line, index) := by
        intro same
        obtain rfl : held = index := congrArg (·.2) same
        exact Nat.not_le.mpr lower isHigher
      unfold Ledger.hasWindow Table.contains
      rw [windows, if_neg elsewhere]

theorem Leaves.ended_eq {started : Job} (leaves : distributor.Leaves before index kind after)
    (keyed : before.Keyed) (kinds : kind ≠ started.config.kind)
    (elsewhere : index ≠ started.windowIndex) (givenUp : Option String) :
    (distributor.ended after started givenUp).1 = (distributor.ended before started givenUp).1 ∧
      Ledger.SameWindow distributor.line started.windowIndex started.config.kind
        (distributor.ended after started givenUp).2
        (distributor.ended before started givenUp).2 := by
  cases leaves with
  | failed => exact ⟨rfl, rfl, rfl, fun _ => rfl⟩
  | @entered job first written prepared committed place isKind =>
      subst isKind
      have places : first.place ≠ (distributor.line, started.windowIndex) := by
        rw [place]
        exact fun same => elsewhere (congrArg (·.2) same)
      have build : distributor.buildWindow (before.enter first) started =
          (distributor.buildWindow before started).map
            fun built => (built.1, built.2.enter first) := by
        unfold buildWindow
        rw [prepare_enter keyed prepared committed kinds]
        cases isPrepared : distributor.prepare before started with
        | error e => rfl
        | ok second =>
            obtain ⟨itsPlace, itsKind, -⟩ := place_of_prepare isPrepared
            change ((Ledger.commit _ second).mapError RunError.ledger >>= _) =
              ((before.commit second).mapError RunError.ledger >>= _).map _
            rw [Ledger.commit_enter (itsKind ▸ kinds) (itsPlace ▸ places)]
            cases before.commit second with
            | error e => rfl
            | ok written => rfl
      cases givenUp with
      | some reason => exact ⟨rfl, Ledger.sameWindow_enter kinds places⟩
      | none =>
          unfold ended
          rw [build]
          cases distributor.buildWindow before started with
          | error e => exact ⟨rfl, Ledger.sameWindow_enter kinds places⟩
          | ok built => exact ⟨rfl, Ledger.sameWindow_enter kinds places⟩

/-! ## Two kinds of rewards -/

/-- A job that is run from one ledger is run from another in which it is found alike, no job is in
progress and its index is not used up. -/
theorem Tries.exists_of_getJob {other : Ledger}
    (tries : distributor.Tries givenUp before index config job after)
    (idle : other.jobsIn .inProgress = [])
    (found : other.getJob job.jobId = before.getJob job.jobId)
    (usable : distributor.checkIndex other index = .ok ()) :
    ∃ again final, distributor.Tries givenUp other index config again final ∧
      again.jobId = job.jobId := by
  obtain ⟨initial, ready, rfl, rfl, -, -, rfl, -⟩ := tries.exists_initial
  obtain ⟨isName, -⟩ := @keeps_ended distributor before initial.begun givenUp
  rw [isName] at found
  obtain ⟨jobs, ran⟩ := exists_tries givenUp (ready.of_getJob found) idle usable
  exact ⟨_, _, ran, (keeps_ended initial.begun givenUp).1.trans isName.symm⟩

theorem checkIndex_of_above (placed : ledger.Placed) {other : Nat}
    (above : ∀ window ∈ ledger.windowsOn distributor.line, window.windowIndex < index)
    (higher : index ≤ other) : distributor.checkIndex ledger other = .ok () := by
  rw [checkIndex_eq_ok, usedUp_iff placed]
  rintro ⟨held, has, isHigher⟩
  obtain ⟨window, found⟩ := Ledger.hasWindow_eq_true.mp has
  have lower := above window (Ledger.mem_windowsOn.mpr ⟨held, found⟩)
  rw [placed _ _ found] at lower
  exact Nat.not_le.mpr (Nat.lt_of_lt_of_le lower higher) isHigher

section TwoRuns

variable {first : Job} {between : Ledger} {earlier later : Nat} {itsConfig : JobConfig}
  {firstGivenUp : Option String}

/-- After a run, a job of another name runs for a higher index exactly if it runs without. -/
theorem Tries.exists_iff
    (ran : distributor.Tries firstGivenUp ledger earlier itsConfig first between)
    (keyed : ledger.Keyed) (placed : ledger.Placed) (lower : earlier < later) {name : String}
    (other : name ≠ first.jobId) :
    (∃ job single, distributor.Tries givenUp ledger later config job single ∧ job.jobId = name) ↔
      ∃ job both, distributor.Tries givenUp between later config job both ∧ job.jobId = name := by
  obtain ⟨initial, -, rfl, rfl, idle, -, -, isBetween⟩ := ran.exists_initial
  obtain ⟨nowIdle, others⟩ := ran.jobs
  have usable : distributor.checkIndex between later = .ok () ↔
      distributor.checkIndex ledger later = .ok () := by
    rw [isBetween]
    exact (leaves_ended keyed initial.begun firstGivenUp).checkIndex_iff placed lower
  constructor
  · rintro ⟨job, single, tries, rfl⟩
    obtain ⟨-, -, -, -, -, isFree, -⟩ := tries.exists_initial
    exact tries.exists_of_getJob nowIdle (others _ other) (usable.mpr isFree)
  · rintro ⟨job, both, tries, rfl⟩
    obtain ⟨-, -, -, -, -, isFree, -⟩ := tries.exists_initial
    exact tries.exists_of_getJob idle (others _ other).symm (usable.mp isFree)

theorem Tries.sameWindow {single both : Job} {alone after : Ledger}
    (ran : distributor.Tries firstGivenUp ledger earlier itsConfig first between)
    (keyed : ledger.Keyed) (lower : earlier < later) (kinds : itsConfig.kind ≠ config.kind)
    (other : single.jobId ≠ first.jobId)
    (tries : distributor.Tries givenUp ledger later config single alone)
    (triesAfter : distributor.Tries givenUp between later config both after)
    (names : both.jobId = single.jobId) :
    both = single ∧ Ledger.SameWindow distributor.line later config.kind after alone := by
  obtain ⟨initial, ready, rfl, rfl, -, -, rfl, isAlone⟩ := tries.exists_initial
  obtain ⟨again, readyAgain, isIndex, isConfig, -, -, rfl, isAfter⟩ := triesAfter.exists_initial
  rw [(keeps_ended _ _).1] at names other
  rw [(keeps_ended _ _).1] at names
  obtain rfl : again = initial :=
    readyAgain.eq_of_getJob ready names isIndex isConfig ((ran.jobs).2 _ other)
  obtain ⟨start, -, rfl, rfl, -, -, -, isBetween⟩ := ran.exists_initial
  have leaves := @leaves_ended distributor ledger keyed start.begun firstGivenUp
  obtain ⟨sameJob, same⟩ :=
    @Leaves.ended_eq _ _ _ _ _ again.begun leaves keyed kinds (Nat.ne_of_lt lower) givenUp
  rw [isAfter, isAlone, isBetween, ended_jobs]
  exact ⟨sameJob, same.window, same.recipients, same.assigned⟩

/-- **Kinds of rewards are independent.**  Where no job is in progress, every job that is ready to
run for an index above all windows of the line does run.  After a job has run, whether it is done,
has failed or was given up, a job of another kind runs for a higher index exactly if it runs without
the first, and it ends as the same job, with the same window, recipients and assignments. -/
theorem independent_of_runs (keyed : ledger.Keyed) (placed : ledger.Placed)
    (idle : ledger.jobsIn .inProgress = [])
    (above : ∀ window ∈ ledger.windowsOn distributor.line, window.windowIndex < earlier)
    (lower : earlier < later) (kinds : itsConfig.kind ≠ config.kind) :
    (∀ givenUp initial, ledger.Ready initial → earlier ≤ initial.windowIndex → ∃ job after,
      distributor.Tries givenUp ledger initial.windowIndex initial.config job after ∧
        job.jobId = initial.jobId) ∧
    ∀ firstGivenUp first between,
      distributor.Tries firstGivenUp ledger earlier itsConfig first between →
      ∀ givenUp name, name ≠ first.jobId →
        ((∃ job single, distributor.Tries givenUp ledger later config job single ∧
            job.jobId = name) ↔
          ∃ job both, distributor.Tries givenUp between later config job both ∧
            job.jobId = name) ∧
        ∀ job single again both, distributor.Tries givenUp ledger later config job single →
          job.jobId = name → distributor.Tries givenUp between later config again both →
          again.jobId = name →
            again = job ∧ Ledger.SameWindow distributor.line later config.kind both single := by
  constructor
  · intro givenUp initial ready higher
    obtain ⟨jobs, ran⟩ := exists_tries givenUp ready idle (checkIndex_of_above placed above higher)
    exact ⟨_, _, ran, (keeps_ended initial.begun givenUp).1⟩
  · intro firstGivenUp first between ran givenUp name other
    refine ⟨ran.exists_iff keyed placed lower other, ?_⟩
    rintro job single again both alone rfl after names
    exact ran.sameWindow keyed lower kinds other alone after names

end TwoRuns

/-- The window for the bridge fee is the same whether the one for the liquidity fee was built
before or not. -/
theorem independent_of_runs_trial : ∃ first between job single both,
    Trial.distributor.Tries none Trial.ledger 0 ⟨.epoch, .lpFee⟩ first between ∧
    first.status = .done ∧
    Trial.distributor.Tries none Trial.ledger 1 ⟨.epoch, .bridgeFee⟩ job single ∧
    job.status = .done ∧
    Trial.distributor.Tries none between 1 ⟨.epoch, .bridgeFee⟩ job both ∧
    Ledger.SameWindow Trial.distributor.line 1 .bridgeFee both single := by
  have consistent : Trial.ledger.Consistent := Ledger.consistent_run Trial.operations
  have idle : Trial.ledger.jobsIn .inProgress = [] := by decide +kernel
  have above : ∀ window ∈ Trial.ledger.windowsOn Trial.distributor.line,
      window.windowIndex < 0 := by
    have none : Trial.ledger.windowsOn Trial.distributor.line = [] := by decide +kernel
    rw [none]
    exact List.forall_mem_nil _
  obtain ⟨first, between, ran, isDone, -⟩ := Trial.exists_runJob
  have known : Trial.ledger.getJob "job" = .ok (.new "job" 0 ⟨.epoch, .lpFee⟩) := by
    decide +kernel
  have runs : Trial.distributor.Runs Trial.ledger 0 ⟨.epoch, .lpFee⟩ first between :=
    .known known rfl rfl ran
  obtain ⟨t, totals, word, -⟩ := @Trial.exists_total Trial.ledger ⟨.epoch, .bridgeFee⟩
    (300 * tenTo 18) [⟨1, 7⟩] (by decide +kernel)
  obtain ⟨_, _, job, -, -, -, -, jobDone, isName, executed⟩ :=
    exists_execute_of_singleton consistent .epoch "next" rfl
      (checkIndex_of_above consistent.placed above (Nat.zero_le 1)) idle (by decide +kernel)
      totals word
  have alone : Trial.distributor.Runs Trial.ledger 1 ⟨.epoch, .bridgeFee⟩ job _ :=
    .created executed
  have names : job.jobId ≠ first.jobId := by
    rw [isName, (jobs_of_runByWrites (runByWrites_of_runJob ran)).1]
    decide
  obtain ⟨-, independent⟩ := @independent_of_runs Trial.distributor Trial.ledger
    ⟨.epoch, .bridgeFee⟩ 0 1 ⟨.epoch, .lpFee⟩ consistent.keyed consistent.placed idle above
    Nat.zero_lt_one (by decide)
  obtain ⟨canRun, sameAfter⟩ := independent none first between runs.tries none job.jobId names
  obtain ⟨again, both, after, isAgain⟩ := canRun.mp ⟨job, _, alone.tries, rfl⟩
  obtain ⟨rfl, same⟩ := sameAfter job _ again both alone.tries rfl after isAgain
  exact ⟨first, between, again, _, both, runs.tries, isDone, alone.tries, jobDone, after, same⟩

end Distributor

end BridgeRewards
