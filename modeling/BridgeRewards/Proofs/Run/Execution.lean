import BridgeRewards.Proofs.Run.Attempt

/-!
# What a refused execution leaves

To execute a job is to create it and then to run it, and the two are not refused alike: a job may
be created beside one that is in progress for another index, but it may not run beside it.  An
execution that is refused for this reason leaves the job that it has created, as one that has not
run yet; every other refusal comes before anything is written (`refused_execute_leaves`).

The job that is left is not lost.  It runs once the job in its way is settled, and then a window is
written that the execution was refused (`refused_window_is_written`).
-/

set_option autoImplicit false

namespace BridgeRewards.Distributor

variable {distributor : Distributor} {now : Instant} {ledger after : Ledger} {jobId : String}
  {index : Nat} {config : JobConfig} {e : RunError} {job initial other : Job} {rest : List Job}

/-- What an execution that is refused with some error leaves. -/
inductive RefusedLeaves (distributor : Distributor) (now : Instant) (ledger : Ledger)
    (jobId : String) (index : Nat) (config : JobConfig) : Ledger → RunError → Prop
  /-- The job is not created, and the ledger is as it was. -/
  | uncreated {e : RunError}
      (refused : distributor.createJob now ledger jobId index config = .error e) :
      RefusedLeaves distributor now ledger jobId index config ledger e
  /-- The job is created but another one is in progress for another index; the error names the
  first such job, and the ledger is as it was but for the new job. -/
  | busy {other : Job} {rest : List Job}
      (creatable : ¬ distributor.Uncreatable now ledger jobId index config)
      (inProgress : ledger.jobsIn .inProgress = other :: rest)
      (elsewhere : other.windowIndex ≠ index) :
      RefusedLeaves distributor now ledger jobId index config
        { ledger with jobs := ledger.jobs ++ [Job.new jobId index config] }
        (.refused (.lineBusy other.jobId distributor.line))

theorem beginJob_of_busy (found : ledger.getJob jobId = .ok initial)
    (status : initial.status = .initial) (busy : ledger.jobsIn .inProgress = other :: rest) :
    distributor.beginJob ledger jobId =
      .error (.refused (.lineBusy other.jobId distributor.line)) := by
  unfold beginJob
  rw [found]
  change (if initial.status ≠ .initial then _ else _) = _
  rw [if_neg (not_not.mpr status), busy]
  rfl

theorem jobsIn_append_new (ledger : Ledger) (jobId : String) (index : Nat) (config : JobConfig) :
    Ledger.jobsIn { ledger with jobs := ledger.jobs ++ [Job.new jobId index config] } .inProgress =
      ledger.jobsIn .inProgress := by
  unfold Ledger.jobsIn
  rw [List.filter_append]
  exact List.append_nil _

/-- How an execution goes is decided when its job is created: if the job is created and some job is
in progress then it is refused, and if none is then it is not. -/
theorem execute_of_createJob {created : Ledger}
    (isCreated : distributor.createJob now ledger jobId index config = .ok (job, created)) :
    (∀ other rest, ledger.jobsIn .inProgress = other :: rest →
      distributor.execute now ledger jobId index config =
        (created, .error (.refused (.lineBusy other.jobId distributor.line)))) ∧
    (ledger.jobsIn .inProgress = [] →
      ∃ done, (distributor.execute now ledger jobId index config).2 = .ok done) := by
  obtain ⟨-, -, -, fresh, rfl, rfl⟩ := createJob_eq_ok.mp isCreated
  constructor
  · intro other rest busy
    have stillBusy := (jobsIn_append_new ledger jobId index config).trans busy
    have refused := @beginJob_of_busy distributor _ jobId _ other rest (Ledger.getJob_append fresh)
      rfl stillBusy
    unfold execute runJob
    rw [isCreated]
    dsimp only
    rw [refused]
    rfl
  · intro idle
    have ran := runJob_eq_ended (beginJob_of_createJob isCreated idle)
    exact ⟨_, congrArg Prod.snd (execute_eq_ok.mpr ⟨_, isCreated, ran⟩)⟩

theorem execute_of_createJob_error
    (refused : distributor.createJob now ledger jobId index config = .error e) :
    distributor.execute now ledger jobId index config = (ledger, .error e) := by
  unfold execute
  rw [refused]

theorem exists_createJob_iff :
    (∃ made, distributor.createJob now ledger jobId index config = .ok made) ↔
      ¬ distributor.Uncreatable now ledger jobId index config := by
  rw [← exists_createJob_error_iff, Outcome.exists_error_iff, not_not]

/-- A refused execution leaves what it may, and whatever may be left is left by one. -/
theorem execute_eq_error :
    distributor.execute now ledger jobId index config = (after, .error e) ↔
      distributor.RefusedLeaves now ledger jobId index config after e := by
  constructor
  · intro refused
    cases created : distributor.createJob now ledger jobId index config with
    | error cause =>
        cases (execute_of_createJob_error created).symm.trans refused
        exact .uncreated created
    | ok made =>
        obtain ⟨job, written⟩ := made
        have creatable := exists_createJob_iff.mp ⟨_, created⟩
        obtain ⟨whenBusy, whenIdle⟩ := execute_of_createJob created
        obtain ⟨-, -, others, -, rfl, rfl⟩ := createJob_eq_ok.mp created
        cases inProgress : ledger.jobsIn .inProgress with
        | nil =>
            obtain ⟨done, isDone⟩ := whenIdle inProgress
            rw [refused] at isDone
            cases isDone
        | cons other rest =>
            cases (whenBusy other rest inProgress).symm.trans refused
            exact .busy creatable inProgress (others other (inProgress ▸ List.mem_cons_self))
  · intro leaves
    cases leaves with
    | uncreated refused => exact execute_of_createJob_error refused
    | @busy other rest creatable inProgress elsewhere =>
        obtain ⟨⟨job, written⟩, created⟩ := exists_createJob_iff.mpr creatable
        obtain ⟨-, -, -, -, rfl, rfl⟩ := createJob_eq_ok.mp created
        exact (execute_of_createJob created).1 other rest inProgress

/-- **What a refused execution leaves.**  An execution is refused exactly if its job cannot be
created or some job is in progress.  It leaves the ledger as it was, unless its job was created
beside one that is in progress for another index; then it leaves that job, which has not run yet,
and nothing else.  So where no job is in progress, a refused execution leaves nothing. -/
theorem refused_execute_leaves (distributor : Distributor) (now : Instant) (ledger : Ledger)
    (jobId : String) (index : Nat) (config : JobConfig) :
    ((∃ after e, distributor.execute now ledger jobId index config = (after, .error e)) ↔
      distributor.Uncreatable now ledger jobId index config ∨
        ∃ other ∈ ledger.jobs, other.status = .inProgress) ∧
    (∀ after e, distributor.execute now ledger jobId index config = (after, .error e) ↔
      distributor.RefusedLeaves now ledger jobId index config after e) ∧
    (ledger.jobsIn .inProgress = [] → ∀ after e,
      distributor.execute now ledger jobId index config = (after, .error e) → after = ledger) := by
  refine ⟨?_, fun _ _ => execute_eq_error, fun idle after e refused => ?_⟩
  · simp only [execute_eq_error]
    constructor
    · rintro ⟨after, e, leaves⟩
      cases leaves with
      | uncreated refused => exact .inl (exists_createJob_error_iff.mp ⟨_, refused⟩)
      | @busy other rest _ inProgress _ =>
          exact .inr ⟨other, Ledger.mem_jobsIn.mp (inProgress ▸ List.mem_cons_self)⟩
    · intro reason
      by_cases uncreatable : distributor.Uncreatable now ledger jobId index config
      · obtain ⟨e, refused⟩ := exists_createJob_error_iff.mpr uncreatable
        exact ⟨ledger, e, .uncreated refused⟩
      · obtain ⟨runs, member, inProgress⟩ := reason.resolve_left uncreatable
        have some := List.ne_nil_of_mem (Ledger.mem_jobsIn.mpr ⟨member, inProgress⟩)
        obtain ⟨other, rest, busy⟩ := List.exists_cons_of_ne_nil some
        have first : other ∈ ledger.jobsIn .inProgress := busy ▸ List.mem_cons_self
        obtain ⟨isJob, isInProgress⟩ := Ledger.mem_jobsIn.mp first
        exact ⟨_, _, .busy uncreatable busy fun same =>
          uncreatable (.building isJob isInProgress same)⟩
  · rw [execute_eq_error] at refused
    cases refused with
    | uncreated => rfl
    | busy _ busy => cases idle.symm.trans busy

end BridgeRewards.Distributor

namespace BridgeRewards.Trial

/-- The ledger once the job is in progress. -/
def busy : Ledger := Ledger.empty.run (operations ++ [.runToStart distributor "job"])

/-- A job for the next index, with the settings of the one in progress. -/
def nextJob : Job := .new "next" 1 ⟨.epoch, .lpFee⟩

/-- The ledger with the next job beside the one in progress. -/
def stranded : Ledger := { busy with jobs := busy.jobs ++ [nextJob] }

theorem execute_busy : distributor.execute .epoch busy "next" 1 ⟨.epoch, .lpFee⟩ =
    (stranded, .error (.refused (.lineBusy "job" distributor.line))) := by
  have created : distributor.createJob .epoch busy "next" 1 ⟨.epoch, .lpFee⟩ =
      .ok (nextJob, stranded) := by
    refine Distributor.createJob_eq_ok.mpr ⟨rfl, ?_, ?_, ?_, rfl, rfl⟩
    · decide +kernel
    · decide +kernel
    · decide +kernel
  have inProgress : busy.jobsIn .inProgress = [job] := by decide +kernel
  exact (Distributor.execute_of_createJob created).1 job [] inProgress

/-- The ledger once the job in progress is given up. -/
def settled : Ledger := stranded.withJob (job.abandoned "worker lost")

theorem recoverJob_stranded : distributor.recoverJob stranded "job" "worker lost" =
    .ok (job.abandoned "worker lost", settled) := by
  refine Distributor.recoverJob_eq_ok.mpr ⟨job, ?_, rfl, ?_, rfl⟩
  · decide +kernel
  · decide +kernel

theorem consistent_settled : settled.Consistent := by
  have reached : busy.Consistent := Ledger.consistent_run _
  exact reached.jobs settled.jobs

end BridgeRewards.Trial

namespace BridgeRewards.Distributor

/-- An execution is refused and yet leaves a job, and once the job in its way is given up, this job
is run and its window written. -/
theorem refused_window_is_written :
    (∃ e, (Trial.distributor.execute .epoch Trial.busy "next" 1 ⟨.epoch, .lpFee⟩).2 = .error e) ∧
    (Trial.distributor.execute .epoch Trial.busy "next" 1 ⟨.epoch, .lpFee⟩).1 ≠ Trial.busy ∧
    ∃ givenUp settled done after window,
      Trial.distributor.recoverJob
        (Trial.distributor.execute .epoch Trial.busy "next" 1 ⟨.epoch, .lpFee⟩).1
        "job" "worker lost" = .ok (givenUp, settled) ∧
      Trial.distributor.runJob settled "next" = .ok (done, after) ∧ done.status = .done ∧
      after.windows.find? (Trial.distributor.line, 1) = some window := by
  rw [Trial.execute_busy]
  refine ⟨⟨_, rfl⟩, fun same => ?_, ?_⟩
  · have lengths : Trial.stranded.jobs.length = Trial.busy.jobs.length :=
      congrArg (fun ledger : Ledger => ledger.jobs.length) same
    have longer : Trial.stranded.jobs.length = Trial.busy.jobs.length + 1 := List.length_append
    omega
  · have begins : Trial.distributor.beginJob Trial.settled "next" =
        .ok (Trial.nextJob.begun, Trial.settled.withJob Trial.nextJob.begun) := by
      refine beginJob_eq_ok.mpr ⟨Trial.nextJob, ?_, rfl, ?_, ?_, rfl, rfl⟩
      · decide +kernel
      · decide +kernel
      · decide +kernel
    obtain ⟨t, totals, word, -⟩ := @Trial.exists_total Trial.settled Trial.nextJob.begun.config
      (300 * tenTo 18) [⟨1, 7⟩] (by decide +kernel)
    obtain ⟨commit, prepared, -⟩ := exists_prepare_of_singleton totals word
    have free : Trial.settled.windows.find? (Trial.distributor.line, 1) = none := by
      have none : Trial.settled.windows.rows = [] := by decide +kernel
      rw [Table.find?, none]
      rfl
    obtain ⟨written, committed⟩ := exists_commit_of_prepare Trial.consistent_settled.keyed
      prepared free
    have stands := find?_windows_of_commit prepared committed
    exact ⟨_, _, _, _, commit.window, Trial.recoverJob_stranded,
      runJob_of_commit begins prepared committed, rfl, stands⟩

/-- Beside the job in progress the next one is left; where none is in progress, an execution under
a name that is taken leaves nothing. -/
theorem refused_execute_leaves_trial :
    Trial.distributor.RefusedLeaves .epoch Trial.busy "next" 1 ⟨.epoch, .lpFee⟩ Trial.stranded
        (.refused (.lineBusy "job" Trial.distributor.line)) ∧
      ∃ e, Trial.distributor.execute .epoch Trial.ledger "job" 1 ⟨.epoch, .lpFee⟩ =
        (Trial.ledger, .error e) := by
  constructor
  · exact ((refused_execute_leaves _ _ _ _ _ _).2.1 _ _).mp Trial.execute_busy
  · obtain ⟨reasons, -, unchanged⟩ :=
      refused_execute_leaves Trial.distributor .epoch Trial.ledger "job" 1 ⟨.epoch, .lpFee⟩
    have taken : ∃ other ∈ Trial.ledger.jobs, other.jobId = "job" := by decide +kernel
    have idle : Trial.ledger.jobsIn .inProgress = [] := by decide +kernel
    obtain ⟨other, member, same⟩ := taken
    obtain ⟨after, e, refused⟩ := reasons.mpr (.inl (.known member same))
    obtain rfl := unchanged idle after e refused
    exact ⟨e, refused⟩

end BridgeRewards.Distributor
