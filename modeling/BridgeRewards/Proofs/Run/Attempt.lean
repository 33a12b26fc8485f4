import BridgeRewards.Proofs.Run.Obstacle

/-!
# Jobs that are refused or fail

A run of a job makes up to three writes, and each of them stays whatever comes after it
(`Distributor.runByWrites`).  Yet a run that is refused has written nothing: it is refused before
its first write or not at all, namely if there is no such job, if it has run before, if some job is
in progress, or if its index is used up (`Distributor.Barred`).  A run that fails, be it that its
window cannot be built or that it is given up, has written nothing but its own job
(`Distributor.OnlyFails`).  Creating and recovering a job are single writes, and they come last.
So a job that does not end well leaves no trace (`leaves_no_trace`).
-/

set_option autoImplicit false

namespace BridgeRewards

namespace Ledger

variable {ε α : Type}

/-- What an operation that writes last leaves, and what comes of it: if it fails then the ledger
stays as it was. -/
def attempt (ledger : Ledger) (outcome : Except ε (α × Ledger)) : Ledger × Except ε α :=
  (ledger.orUnchanged outcome, outcome.map (·.1))

/-- An operation is refused exactly under some condition, and then the ledger is as it was. -/
structure RefusedIf (ledger : Ledger) (condition : Prop) (outcome : Ledger × Except ε α) :
    Prop where
  refused_iff : (∃ e, outcome.2 = .error e) ↔ condition
  unchanged : ∀ e, outcome.2 = .error e → outcome.1 = ledger

theorem RefusedIf.eq_of_condition {ledger : Ledger} {condition : Prop}
    {outcome : Ledger × Except ε α} (refusedIf : ledger.RefusedIf condition outcome)
    (holds : condition) : ∃ e, outcome = (ledger, .error e) := by
  obtain ⟨e, isError⟩ := refusedIf.refused_iff.mpr holds
  exact ⟨e, Prod.ext (refusedIf.unchanged e isError) isError⟩

/-- An operation that writes last is refused if it fails. -/
theorem refusedIf_attempt {ledger : Ledger} {condition : Prop} {outcome : Except ε (α × Ledger)}
    (refused : (∃ e, outcome = .error e) ↔ condition) :
    ledger.RefusedIf condition (ledger.attempt outcome) := by
  cases outcome with
  | error e => exact ⟨⟨fun _ => refused.mp ⟨e, rfl⟩, fun _ => ⟨e, rfl⟩⟩, fun _ _ => rfl⟩
  | ok made =>
      refine ⟨⟨fun ⟨e, isError⟩ => ?_, fun holds => ?_⟩, fun e isError => ?_⟩
      · cases isError
      · obtain ⟨e, isError⟩ := refused.mpr holds
        cases isError
      · cases isError

end Ledger

namespace Distributor

variable {distributor : Distributor} {ledger after : Ledger} {jobId : String} {job : Job}
  {givenUp : Option String}

/-- Why a job cannot run now. -/
inductive Barred (distributor : Distributor) (ledger : Ledger) (jobId : String) : Prop
  | unknown (absent : ∀ job ∈ ledger.jobs, job.jobId ≠ jobId)
  | started {job : Job} (found : ledger.getJob jobId = .ok job) (status : job.status ≠ .initial)
  | busy {other : Job} (member : other ∈ ledger.jobs) (inProgress : other.status = .inProgress)
  | usedUp {job : Job} (found : ledger.getJob jobId = .ok job)
      (usedUp : distributor.UsedUp ledger job.windowIndex)

/-- The writes of a run, one after the other: the job is put in progress, its window is written,
and the job is written as it ends.  A run may be given up for some reason before its window is
written. -/
def runByWrites (distributor : Distributor) (ledger : Ledger) (jobId : String)
    (givenUp : Option String) : Ledger × Except RunError Job :=
  match distributor.beginJob ledger jobId with
  | .error e => (ledger, .error e)
  | .ok (job, started) =>
    match givenUp, distributor.buildWindow started job with
    | some reason, _ => started.attempt (endJob started (job.fail reason))
    | none, .error e => started.attempt (endJob started (job.fail e.message))
    | none, .ok (commit, built) =>
      built.attempt (endJob built (job.complete commit.window.merkleRoot commit.recipients.length))

/-- If a run says that its job has failed then nothing but this job was written. -/
def OnlyFails (ledger : Ledger) (jobId : String) (run : Ledger × Except RunError Job) : Prop :=
  ∀ job, run.2 = .ok job → job.status = .failed → ∃ initial reason,
    ledger.getJob jobId = .ok initial ∧ job = initial.abandoned reason ∧ run.1 = ledger.withJob job

/-- Why a job cannot be created now. -/
inductive Uncreatable (distributor : Distributor) (now : Instant) (ledger : Ledger)
    (jobId : String) (index : Nat) (config : JobConfig) : Prop
  | early (future : now < config.maxDepositDate)
  | usedUp (usedUp : distributor.UsedUp ledger index)
  | building {other : Job} (member : other ∈ ledger.jobs) (inProgress : other.status = .inProgress)
      (same : other.windowIndex = index)
  | known {other : Job} (member : other ∈ ledger.jobs) (same : other.jobId = jobId)

/-- Why a job cannot be recovered now. -/
inductive Unrecoverable (ledger : Ledger) (jobId : String) : Prop
  | unknown (absent : ∀ job ∈ ledger.jobs, job.jobId ≠ jobId)
  | ended {job : Job} (found : ledger.getJob jobId = .ok job) (status : job.status ≠ .inProgress)

/-! ## Runs -/

theorem exists_beginJob_iff :
    (∃ begun, distributor.beginJob ledger jobId = .ok begun) ↔
      ¬ distributor.Barred ledger jobId := by
  constructor
  · rintro ⟨⟨job, started⟩, begins⟩ barred
    obtain ⟨initial, found, isInitial, idle, usable, -, -⟩ := beginJob_eq_ok.mp begins
    cases barred with
    | unknown absent =>
        exact absent initial (Ledger.mem_of_getJob found) (Ledger.jobId_of_getJob found)
    | started same status =>
        obtain rfl := Except.ok.inj (found.symm.trans same)
        exact status isInitial
    | busy member inProgress =>
        have runs := Ledger.mem_jobsIn.mpr ⟨member, inProgress⟩
        rw [idle] at runs
        cases runs
    | usedUp same usedUp =>
        obtain rfl := Except.ok.inj (found.symm.trans same)
        exact checkIndex_eq_ok.mp usable usedUp
  · intro free
    obtain ⟨initial, found⟩ := (ledger.getJob_or_absent jobId).resolve_right fun absent =>
      free (.unknown absent)
    have isInitial : initial.status = .initial := by
      by_contra status
      exact free (.started found status)
    have idle : ledger.jobsIn .inProgress = [] := by
      refine List.eq_nil_iff_forall_not_mem.mpr fun other runs => ?_
      obtain ⟨member, inProgress⟩ := Ledger.mem_jobsIn.mp runs
      exact free (.busy member inProgress)
    have usable := checkIndex_eq_ok.mpr fun usedUp => free (.usedUp found usedUp)
    exact ⟨_, beginJob_eq_ok.mpr ⟨initial, found, isInitial, idle, usable, rfl, rfl⟩⟩

theorem exists_beginJob_error_iff :
    (∃ e, distributor.beginJob ledger jobId = .error e) ↔ distributor.Barred ledger jobId := by
  rw [Outcome.exists_error_iff, exists_beginJob_iff, not_not]

theorem runByWrites_of_error {e : RunError}
    (refused : distributor.beginJob ledger jobId = .error e) :
    distributor.runByWrites ledger jobId givenUp = (ledger, .error e) := by
  unfold runByWrites
  rw [refused]

theorem runByWrites_of_beginJob
    (begins : distributor.beginJob ledger jobId = .ok (job, ledger.withJob job)) :
    distributor.runByWrites ledger jobId givenUp =
      ((distributor.ended ledger job givenUp).2.withJob (distributor.ended ledger job givenUp).1,
        .ok (distributor.ended ledger job givenUp).1) := by
  obtain ⟨inProgress, ⟨old, known⟩, -⟩ := begun_of_beginJob begins
  have fails : ∀ reason, (ledger.withJob job).attempt
      (endJob (ledger.withJob job) (job.fail reason)) =
        (ledger.withJob (job.abandoned reason), .ok (job.abandoned reason)) := by
    intro reason
    rw [endJob_fail inProgress known]
    rfl
  unfold runByWrites
  rw [begins]
  dsimp only
  rw [buildWindow_withJob]
  unfold ended
  cases givenUp with
  | some reason => exact fails reason
  | none =>
      cases build : distributor.buildWindow ledger job with
      | error e => exact fails e.message
      | ok built =>
          change Ledger.attempt _ (endJob (built.2.withJob job) _) = _
          rw [endJob_complete inProgress known (buildWindow_eq_ok.mp build).2]
          rfl

/-- A run ends exactly if it begins, and then as its job ends. -/
theorem runByWrites_eq_ok :
    distributor.runByWrites ledger jobId givenUp = (after, .ok job) ↔
      ∃ started, distributor.beginJob ledger jobId = .ok (started, ledger.withJob started) ∧
        job = (distributor.ended ledger started givenUp).1 ∧
        after = (distributor.ended ledger started givenUp).2.withJob job := by
  constructor
  · intro ran
    cases begins : distributor.beginJob ledger jobId with
    | error e =>
        rw [runByWrites_of_error begins] at ran
        cases ran
    | ok begun =>
        obtain ⟨started, begun⟩ := begun
        obtain ⟨-, -, rfl⟩ := begun_of_beginJob begins
        rw [runByWrites_of_beginJob begins] at ran
        cases ran
        exact ⟨started, rfl, rfl, rfl⟩
  · rintro ⟨started, begins, rfl, rfl⟩
    exact runByWrites_of_beginJob begins

/-- A run that is not given up writes what it says: no write is followed by a refusal. -/
theorem runByWrites_none (distributor : Distributor) (ledger : Ledger) (jobId : String) :
    distributor.runByWrites ledger jobId none =
      ledger.attempt (distributor.runJob ledger jobId) := by
  cases begins : distributor.beginJob ledger jobId with
  | error e =>
      have refused : distributor.runJob ledger jobId = .error e := by
        unfold runJob
        rw [begins]
        rfl
      rw [runByWrites_of_error begins, refused]
      rfl
  | ok begun =>
      obtain ⟨job, started⟩ := begun
      obtain ⟨-, -, rfl⟩ := begun_of_beginJob begins
      rw [runByWrites_of_beginJob begins, runJob_eq_ended begins]
      rfl

theorem runByWrites_of_runJob (ran : distributor.runJob ledger jobId = .ok (job, after)) :
    distributor.runByWrites ledger jobId none = (after, .ok job) := by
  rw [runByWrites_none, ran]
  rfl

/-- A job that ends as failed was abandoned, and the ledger has not changed. -/
theorem ended_of_failed
    (failed : (distributor.ended ledger job givenUp).1.status = .failed) :
    ∃ reason, distributor.ended ledger job givenUp = (job.abandoned reason, ledger) := by
  cases givenUp with
  | some reason => exact ⟨reason, rfl⟩
  | none =>
      unfold ended at failed ⊢
      cases build : distributor.buildWindow ledger job with
      | error e => exact ⟨e.message, rfl⟩
      | ok built =>
          rw [build] at failed
          cases failed

/-- A run is refused exactly if it is barred, and then nothing has changed. -/
theorem refusedIf_runByWrites (distributor : Distributor) (ledger : Ledger) (jobId : String)
    (givenUp : Option String) :
    ledger.RefusedIf (distributor.Barred ledger jobId)
      (distributor.runByWrites ledger jobId givenUp) := by
  cases begins : distributor.beginJob ledger jobId with
  | error e =>
      rw [runByWrites_of_error begins]
      have barred := exists_beginJob_error_iff.mp ⟨e, begins⟩
      exact ⟨⟨fun _ => barred, fun _ => ⟨e, rfl⟩⟩, fun _ _ => rfl⟩
  | ok begun =>
      obtain ⟨job, started⟩ := begun
      obtain ⟨-, -, rfl⟩ := begun_of_beginJob begins
      have free := exists_beginJob_iff.mp ⟨_, begins⟩
      rw [runByWrites_of_beginJob begins]
      refine ⟨⟨fun ⟨e, refused⟩ => ?_, fun barred => (free barred).elim⟩, fun e refused => ?_⟩
      · cases refused
      · cases refused

theorem onlyFails_runByWrites (distributor : Distributor) (ledger : Ledger) (jobId : String)
    (givenUp : Option String) :
    OnlyFails ledger jobId (distributor.runByWrites ledger jobId givenUp) := by
  intro job isOk isFailed
  obtain ⟨started, begins, rfl, written⟩ := runByWrites_eq_ok.mp (Prod.ext rfl isOk)
  obtain ⟨initial, found, -, -, -, rfl, -⟩ := beginJob_eq_ok.mp begins
  obtain ⟨reason, isEnded⟩ := ended_of_failed isFailed
  rw [isEnded] at written ⊢
  exact ⟨initial, reason, found, rfl, written⟩

/-! ## Creating and recovering jobs -/

theorem exists_createJob_error_iff {now : Instant} {index : Nat} {config : JobConfig} :
    (∃ e, distributor.createJob now ledger jobId index config = .error e) ↔
      distributor.Uncreatable now ledger jobId index config := by
  rw [Outcome.exists_error_iff]
  constructor
  · intro refused
    by_contra creatable
    have past : config.validate now = .ok () := if_neg fun future => creatable (.early future)
    have usable := checkIndex_eq_ok.mpr fun usedUp => creatable (.usedUp usedUp)
    refine refused ⟨_, createJob_eq_ok.mpr ⟨past, usable, ?_, ?_, rfl, rfl⟩⟩
    · intro other runs same
      obtain ⟨member, inProgress⟩ := Ledger.mem_jobsIn.mp runs
      exact creatable (.building member inProgress same)
    · exact fun other member same => creatable (.known member same)
  · rintro uncreatable ⟨⟨_, _⟩, isOk⟩
    obtain ⟨valid, usable, others, fresh, -, -⟩ := createJob_eq_ok.mp isOk
    cases uncreatable with
    | early future =>
        unfold JobConfig.validate at valid
        rw [if_pos future] at valid
        cases valid
    | usedUp usedUp => exact checkIndex_eq_ok.mp usable usedUp
    | building member inProgress same =>
        exact others _ (Ledger.mem_jobsIn.mpr ⟨member, inProgress⟩) same
    | known member same => exact fresh _ member same

theorem exists_recoverJob_error_iff {reason : String} :
    (∃ e, distributor.recoverJob ledger jobId reason = .error e) ↔
      Unrecoverable ledger jobId := by
  rw [Outcome.exists_error_iff]
  constructor
  · intro refused
    by_contra recoverable
    obtain ⟨job, found⟩ := (ledger.getJob_or_absent jobId).resolve_right fun absent =>
      recoverable (.unknown absent)
    have inProgress : job.status = .inProgress := by
      by_contra status
      exact recoverable (.ended found status)
    exact refused ⟨_, recoverJob_eq_ok.mpr ⟨job, found, inProgress, rfl, rfl⟩⟩
  · rintro unrecoverable ⟨⟨_, _⟩, isOk⟩
    obtain ⟨job, found, inProgress, -⟩ := recoverJob_eq_ok.mp isOk
    cases unrecoverable with
    | unknown absent =>
        exact absent job (Ledger.mem_of_getJob found) (Ledger.jobId_of_getJob found)
    | ended same status =>
        obtain rfl := Except.ok.inj (found.symm.trans same)
        exact status inProgress

/-! ## No trace is left -/

/-- **A job that does not end well leaves no trace**, whatever the ledger.  A run writes as it says
it does, and whether it is given up or not: it is refused exactly if it is barred, and then nothing
has changed, and if its job has failed then nothing else has changed.  A job that is not created or
not recovered changes nothing. -/
theorem leaves_no_trace (distributor : Distributor) (ledger : Ledger) (jobId : String) :
    distributor.runByWrites ledger jobId none = ledger.attempt (distributor.runJob ledger jobId) ∧
    (∀ givenUp,
      ledger.RefusedIf (distributor.Barred ledger jobId)
        (distributor.runByWrites ledger jobId givenUp) ∧
      OnlyFails ledger jobId (distributor.runByWrites ledger jobId givenUp)) ∧
    (∀ now index config,
      ledger.RefusedIf (distributor.Uncreatable now ledger jobId index config)
        (ledger.attempt (distributor.createJob now ledger jobId index config))) ∧
    ∀ reason, ledger.RefusedIf (Unrecoverable ledger jobId)
      (ledger.attempt (distributor.recoverJob ledger jobId reason)) :=
  ⟨runByWrites_none distributor ledger jobId,
    fun givenUp => ⟨refusedIf_runByWrites distributor ledger jobId givenUp,
      onlyFails_runByWrites distributor ledger jobId givenUp⟩,
    fun _ _ _ => Ledger.refusedIf_attempt exists_createJob_error_iff,
    fun _ => Ledger.refusedIf_attempt exists_recoverJob_error_iff⟩

/-- The job of the trial fails with nothing else written, as the reward token is worth nothing, and
then it is not run again. -/
theorem leaves_no_trace_worthless : ∃ reason,
    let failed := (Job.new "job" 0 ⟨.epoch, .lpFee⟩).abandoned reason
    let after := (Ledger.empty.run Trial.worthless).withJob failed
    Trial.distributor.runByWrites (Ledger.empty.run Trial.worthless) "job" none =
      (after, .ok failed) ∧
    ∃ e, Trial.distributor.runByWrites after "job" none = (after, .error e) := by
  obtain ⟨-, runs, -⟩ :=
    leaves_no_trace Trial.distributor (Ledger.empty.run Trial.worthless) "job"
  obtain ⟨-, onlyFails⟩ := runs none
  obtain ⟨job, isOk, isFailed⟩ : ∃ job,
      (Trial.distributor.runByWrites (Ledger.empty.run Trial.worthless) "job" none).2 = .ok job ∧
        job.status = .failed := by
    have status : (Trial.distributor.runByWrites (Ledger.empty.run Trial.worthless) "job"
        none).2.toOption.map (·.status) = some .failed := by
      decide +kernel
    generalize (Trial.distributor.runByWrites _ "job" none).2 = outcome at status ⊢
    cases outcome with
    | error e => cases status
    | ok job => exact ⟨job, rfl, Option.some.inj status⟩
  obtain ⟨initial, reason, found, rfl, written⟩ := onlyFails job isOk isFailed
  obtain rfl : initial = .new "job" 0 ⟨.epoch, .lpFee⟩ := by
    have known : (Ledger.empty.run Trial.worthless).getJob "job" =
        .ok (.new "job" 0 ⟨.epoch, .lpFee⟩) := by
      decide +kernel
    exact Except.ok.inj (found.symm.trans known)
  refine ⟨reason, Prod.ext written isOk, ?_⟩
  have stands := @Ledger.getJob_withJob (Ledger.empty.run Trial.worthless)
    ((Job.new "job" 0 ⟨.epoch, .lpFee⟩).abandoned reason) _ found
  obtain ⟨-, again, -⟩ := leaves_no_trace Trial.distributor
    ((Ledger.empty.run Trial.worthless).withJob _) "job"
  exact (again none).1.eq_of_condition (.started stands (by rw [isFailed]; decide))

end Distributor

end BridgeRewards
