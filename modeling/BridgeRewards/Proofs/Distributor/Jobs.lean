import BridgeRewards.Distributor.Jobs
import BridgeRewards.Proofs.Ledger.Jobs
import BridgeRewards.Proofs.Ledger.Windows

/-!
# What a run of a job does

An index passes if the line has neither a window with it nor one with a higher index (`UsedUp`).  A
run begins if its job is initial, no job is in progress and the index passes, and it always ends: if
the window can be prepared and committed, then with the committed window and the job done, and
otherwise with nothing but the job failed (`runJob_eq_ok`).
-/

set_option autoImplicit false

namespace BridgeRewards

namespace Job

/-- A job in progress. -/
def begun (job : Job) : Job := { job with status := .inProgress }

/-- A job whose window was written. -/
def finished (job : Job) (root : Hash32) (recipients : Nat) : Job :=
  { job with
    status := .done, merkleRoot := some root, recipientCount := recipients, isTimed := true }

/-- A job whose window was not written. -/
def abandoned (job : Job) (reason : String) : Job :=
  { job with status := .failed, error := some reason, isTimed := true }

variable {job after : Job}

theorem become_eq_ok {status : JobStatus} :
    job.become status = .ok after ↔
      job.status.canBecome status = true ∧ after = { job with status } := by
  unfold become
  split
  · next allowed => simp [allowed, eq_comm]
  · next refused => simp [refused]

theorem complete_of_inProgress (inProgress : job.status = .inProgress) (root : Hash32)
    (recipients : Nat) : job.complete root recipients = .ok (job.finished root recipients) := by
  simp [complete, become, inProgress, JobStatus.canBecome, finished, bind, Except.bind, pure,
    Except.pure]

theorem fail_of_inProgress (inProgress : job.status = .inProgress) (reason : String) :
    job.fail reason = .ok (job.abandoned reason) := by
  simp [fail, become, inProgress, JobStatus.canBecome, abandoned, bind, Except.bind, pure,
    Except.pure]

end Job

namespace Distributor

variable {distributor : Distributor} {ledger after : Ledger} {jobId : String} {job : Job}

/-- A job can be created if its cutoff has passed, its index is free and not that of a job in
progress, and its name is new.  It is appended to the jobs, and nothing else is written. -/
theorem createJob_eq_ok {now : Instant} {index : Nat} {config : JobConfig} :
    distributor.createJob now ledger jobId index config = .ok (job, after) ↔
      config.validate now = .ok () ∧ distributor.checkIndex ledger index = .ok () ∧
        (∀ other ∈ ledger.jobsIn .inProgress, other.windowIndex ≠ index) ∧
        (∀ other ∈ ledger.jobs, other.jobId ≠ jobId) ∧ job = Job.new jobId index config ∧
        after = { ledger with jobs := ledger.jobs ++ [job] } := by
  unfold createJob
  constructor
  · intro h
    obtain ⟨⟨⟩, valid, h⟩ := Outcome.bind_eq_ok.mp h
    obtain ⟨⟨⟩, free, h⟩ := Outcome.bind_eq_ok.mp h
    rw [Outcome.mapError_eq_ok] at valid free
    split at h
    · cases h
    · next none =>
        obtain ⟨created, isCreated, equal⟩ := Outcome.bind_eq_ok.mp h
        rw [Outcome.mapError_eq_ok] at isCreated
        obtain ⟨fresh, rfl⟩ := Ledger.createJob_eq_ok.mp isCreated
        cases equal
        refine ⟨valid, free, fun other member same => ?_, fresh, rfl, rfl⟩
        exact List.find?_eq_none.mp none other member (beq_iff_eq.mpr same)
  · rintro ⟨valid, free, idle, fresh, rfl, rfl⟩
    have none : (ledger.jobsIn .inProgress).find? (·.windowIndex == index) = none :=
      List.find?_eq_none.mpr fun other member same => idle other member (beq_iff_eq.mp same)
    have written : ledger.createJob (Job.new jobId index config) =
        .ok { ledger with jobs := ledger.jobs ++ [Job.new jobId index config] } :=
      Ledger.createJob_eq_ok.mpr ⟨fresh, rfl⟩
    rw [valid, free, none]
    dsimp only
    rw [written]
    rfl

theorem free_of_checkIndex {index : Nat} (h : distributor.checkIndex ledger index = .ok ()) :
    ledger.windows.find? (distributor.line, index) = none := by
  unfold checkIndex Ledger.hasWindow Table.contains at h
  split at h
  · cases h
  · next free => exact Option.not_isSome_iff_eq_none.mp free

/-- The line of a distributor has a window with an index, or its last window has a higher one. -/
inductive UsedUp (distributor : Distributor) (ledger : Ledger) (index : Nat) : Prop
  | taken {window : Window}
      (found : ledger.windows.find? (distributor.line, index) = some window)
  | passed {latest : Window}
      (isLatest : (ledger.windowsOn distributor.line).getLast? = some latest)
      (lower : index < latest.windowIndex)

/-- Where windows stand at their places, an index is used up exactly if the line has a window with
this index or a higher one. -/
theorem usedUp_iff {index : Nat} (placed : ledger.Placed) :
    distributor.UsedUp ledger index ↔
      ∃ held, ledger.hasWindow distributor.line held = true ∧ index ≤ held := by
  constructor
  · intro usedUp
    cases usedUp with
    | taken found => exact ⟨index, Ledger.hasWindow_eq_true.mpr ⟨_, found⟩, Nat.le_refl index⟩
    | @passed latest isLatest lower =>
        obtain ⟨held, found⟩ := Ledger.mem_windowsOn.mp (List.mem_of_getLast? isLatest)
        have own : latest.windowIndex = held := placed _ _ found
        exact ⟨held, Ledger.hasWindow_eq_true.mpr ⟨latest, found⟩, own ▸ Nat.le_of_lt lower⟩
  · rintro ⟨held, has, lower⟩
    obtain ⟨window, found⟩ := Ledger.hasWindow_eq_true.mp has
    rcases Nat.eq_or_lt_of_le lower with rfl | lower
    · exact .taken found
    · have member := Ledger.mem_windowsOn.mpr ⟨held, found⟩
      have isLatest := List.getLast?_eq_some_getLast (List.ne_nil_of_mem member)
      exact .passed isLatest (Nat.lt_of_lt_of_le lower (placed.le_latest isLatest has))

theorem checkIndex_eq_ok {index : Nat} :
    distributor.checkIndex ledger index = .ok () ↔ ¬ distributor.UsedUp ledger index := by
  constructor
  · intro passes usedUp
    have free := free_of_checkIndex passes
    cases usedUp with
    | taken found =>
        rw [free] at found
        cases found
    | passed isLatest lower =>
        unfold checkIndex Ledger.hasWindow Table.contains at passes
        rw [free, if_neg (by simp), isLatest] at passes
        dsimp only at passes
        rw [if_pos lower] at passes
        cases passes
  · intro usable
    have free : ledger.windows.find? (distributor.line, index) = none :=
      Option.eq_none_iff_forall_ne_some.mpr fun window found => usable (.taken found)
    unfold checkIndex Ledger.hasWindow Table.contains
    rw [free, if_neg (by simp)]
    split
    · next latest isLatest => exact if_neg fun lower => usable (.passed isLatest lower)
    · rfl

theorem checkIndex_of_le {index : Nat}
    (free : ledger.windows.find? (distributor.line, index) = none)
    (least : ∀ window ∈ ledger.windowsOn distributor.line, window.windowIndex ≤ index) :
    distributor.checkIndex ledger index = .ok () := by
  rw [checkIndex_eq_ok]
  intro usedUp
  cases usedUp with
  | taken found =>
      rw [free] at found
      cases found
  | passed isLatest lower =>
      exact Nat.not_lt.mpr (least _ (List.mem_of_getLast? isLatest)) lower

/-- A job begins if it is initial, no job is in progress and its index is free. -/
theorem beginJob_eq_ok :
    distributor.beginJob ledger jobId = .ok (job, after) ↔
      ∃ initial, ledger.getJob jobId = .ok initial ∧ initial.status = .initial ∧
        ledger.jobsIn .inProgress = [] ∧
        distributor.checkIndex ledger initial.windowIndex = .ok () ∧
        job = initial.begun ∧ after = ledger.withJob job := by
  unfold beginJob
  rw [Outcome.bind_eq_ok]
  refine exists_congr fun initial => ?_
  rw [Outcome.mapError_eq_ok]
  refine and_congr_right fun found => ?_
  by_cases status : initial.status = .initial
  · rw [if_neg (not_not.mpr status)]
    simp only [status, true_and]
    cases busy : ledger.jobsIn .inProgress with
    | cons other rest => simp [throw, throwThe, MonadExceptOf.throw, bind, Except.bind]
    | nil =>
        simp only [true_and]
        rw [Outcome.bind_eq_ok]
        constructor
        · rintro ⟨⟨⟩, free, rest⟩
          obtain ⟨started, begun, rest⟩ := Outcome.bind_eq_ok.mp rest
          obtain ⟨written, update, rest⟩ := Outcome.bind_eq_ok.mp rest
          rw [Outcome.mapError_eq_ok] at free begun update
          obtain ⟨-, rfl⟩ := Job.become_eq_ok.mp begun
          obtain ⟨-, rfl⟩ := Ledger.updateJob_eq_ok.mp update
          cases rest
          exact ⟨free, rfl, rfl⟩
        · rintro ⟨free, rfl, rfl⟩
          have begun : initial.start = .ok initial.begun :=
            Job.become_eq_ok.mpr ⟨by rw [status]; rfl, rfl⟩
          have update : ledger.updateJob initial.begun = .ok (ledger.withJob initial.begun) := by
            refine Ledger.updateJob_eq_ok.mpr ⟨⟨initial, ?_⟩, rfl⟩
            rw [← Ledger.jobId_of_getJob found] at found
            exact found
          refine ⟨(), by rw [free]; rfl, ?_⟩
          rw [begun]
          refine Outcome.bind_eq_ok.mpr ⟨_, rfl, ?_⟩
          rw [update]
          rfl
  · rw [if_pos status]
    simp [status, throw, throwThe, MonadExceptOf.throw, bind, Except.bind]

theorem beginJob_of_createJob {now : Instant} {index : Nat} {config : JobConfig} {created : Ledger}
    (isCreated : distributor.createJob now ledger jobId index config = .ok (job, created))
    (idle : ledger.jobsIn .inProgress = []) :
    distributor.beginJob created jobId = .ok (job.begun, created.withJob job.begun) := by
  obtain ⟨-, free, -, fresh, rfl, rfl⟩ := createJob_eq_ok.mp isCreated
  have stillIdle : Ledger.jobsIn { ledger with jobs := ledger.jobs ++ [Job.new jobId index config] }
      .inProgress = [] := by
    unfold Ledger.jobsIn at idle ⊢
    rw [List.filter_append, idle]
    rfl
  exact beginJob_eq_ok.mpr ⟨_, Ledger.getJob_append fresh, rfl, stillIdle, free, rfl, rfl⟩

theorem buildWindow_eq_ok {commit : WindowCommit} :
    distributor.buildWindow ledger job = .ok (commit, after) ↔
      distributor.prepare ledger job = .ok commit ∧ ledger.commit commit = .ok after := by
  unfold buildWindow
  rw [Outcome.bind_eq_ok]
  constructor
  · rintro ⟨prepared, isPrepared, rest⟩
    obtain ⟨written, isWritten, rest⟩ := Outcome.bind_eq_ok.mp rest
    rw [Outcome.mapError_eq_ok] at isPrepared isWritten
    cases rest
    exact ⟨isPrepared, isWritten⟩
  · rintro ⟨isPrepared, isWritten⟩
    refine ⟨commit, by rw [isPrepared]; rfl, ?_⟩
    rw [isWritten]
    rfl

/-- Whether a window can be built does not depend on the jobs, and building it leaves them. -/
theorem buildWindow_withJob_eq_ok {commit : WindowCommit} :
    distributor.buildWindow (ledger.withJob job) job = .ok (commit, after) ↔
      distributor.prepare ledger job = .ok commit ∧
        ∃ written, ledger.commit commit = .ok written ∧ after = written.withJob job := by
  rw [buildWindow_eq_ok, Ledger.commit_withJob, Outcome.map_eq_ok]
  refine and_congr_right fun _ => exists_congr fun written => and_congr_right fun _ => eq_comm

/-- A window that cannot be built for a reason that is no matter of the ledger could not be
prepared. -/
theorem prepare_of_buildWindow {e : RewardError}
    (h : distributor.buildWindow ledger job = .error (.reward e)) :
    distributor.prepare ledger job = .error e := by
  unfold buildWindow at h
  cases isPrepared : distributor.prepare ledger job with
  | error other =>
      rw [isPrepared] at h
      cases h
      rfl
  | ok commit =>
      rw [isPrepared] at h
      change ((ledger.commit commit).mapError RunError.ledger >>= _) = _ at h
      cases isWritten : ledger.commit commit with
      | error other =>
          rw [isWritten] at h
          cases h
      | ok written =>
          rw [isWritten] at h
          cases h

theorem endJob_eq_ok {ended : Except RewardError Job} :
    endJob ledger ended = .ok (job, after) ↔
      ended = .ok job ∧ (∃ old, ledger.getJob job.jobId = .ok old) ∧
        after = ledger.withJob job := by
  unfold endJob
  rw [Outcome.bind_eq_ok]
  constructor
  · rintro ⟨final, isFinal, rest⟩
    obtain ⟨written, update, rest⟩ := Outcome.bind_eq_ok.mp rest
    rw [Outcome.mapError_eq_ok] at isFinal update
    cases rest
    exact ⟨isFinal, Ledger.updateJob_eq_ok.mp update⟩
  · rintro ⟨isFinal, update⟩
    refine ⟨job, by rw [isFinal]; rfl, ?_⟩
    rw [Ledger.updateJob_eq_ok.mpr update]
    rfl

theorem begun_of_beginJob (h : distributor.beginJob ledger jobId = .ok (job, after)) :
    job.status = .inProgress ∧ (∃ old, ledger.getJob job.jobId = .ok old) ∧
      after = ledger.withJob job := by
  obtain ⟨initial, found, -, -, -, rfl, rfl⟩ := beginJob_eq_ok.mp h
  rw [← Ledger.jobId_of_getJob found] at found
  exact ⟨rfl, ⟨initial, found⟩, rfl⟩

theorem runJob_of_beginJob {started : Job} {begun : Ledger}
    (begins : distributor.beginJob ledger jobId = .ok (started, begun)) :
    distributor.runJob ledger jobId =
      match distributor.buildWindow begun started with
      | .ok (commit, built) =>
        endJob built (started.complete commit.window.merkleRoot commit.recipients.length)
      | .error e => endJob begun (started.fail e.message) := by
  unfold runJob
  rw [begins]
  rfl

theorem endJob_withJob {old started ended : Job} (known : ledger.getJob started.jobId = .ok old)
    (same : ended.jobId = started.jobId) :
    endJob (ledger.withJob started) (.ok ended) = .ok (ended, ledger.withJob ended) := by
  have stands : (ledger.withJob started).getJob ended.jobId = .ok started :=
    same ▸ Ledger.getJob_withJob known
  exact endJob_eq_ok.mpr ⟨rfl, ⟨started, stands⟩, (Ledger.withJob_withJob same).symm⟩

theorem endJob_fail {old : Job} (inProgress : job.status = .inProgress)
    (known : ledger.getJob job.jobId = .ok old) (reason : String) :
    endJob (ledger.withJob job) (job.fail reason) =
      .ok (job.abandoned reason, ledger.withJob (job.abandoned reason)) := by
  rw [Job.fail_of_inProgress inProgress]
  exact endJob_withJob known rfl

theorem endJob_complete {old : Job} {commit : WindowCommit} {written : Ledger}
    (inProgress : job.status = .inProgress) (known : ledger.getJob job.jobId = .ok old)
    (committed : ledger.commit commit = .ok written) (root : Hash32) (recipients : Nat) :
    endJob (written.withJob job) (job.complete root recipients) =
      .ok (job.finished root recipients, written.withJob (job.finished root recipients)) := by
  have stillKnown : written.getJob job.jobId = .ok old := by
    rw [Ledger.getJob_eq_ok, Ledger.eq_of_commit committed, ← Ledger.getJob_eq_ok]
    exact known
  rw [Job.complete_of_inProgress inProgress]
  exact endJob_withJob stillKnown rfl

/-- If the window can be prepared and committed then a run does so, and the job is done. -/
theorem runJob_of_commit {started : Job} {commit : WindowCommit} {written : Ledger}
    (begins : distributor.beginJob ledger jobId = .ok (started, ledger.withJob started))
    (prepared : distributor.prepare ledger started = .ok commit)
    (committed : ledger.commit commit = .ok written) :
    distributor.runJob ledger jobId =
      .ok (started.finished commit.window.merkleRoot commit.recipients.length,
        written.withJob (started.finished commit.window.merkleRoot commit.recipients.length)) := by
  obtain ⟨inProgress, ⟨old, known⟩, -⟩ := begun_of_beginJob begins
  have build : distributor.buildWindow (ledger.withJob started) started =
      .ok (commit, written.withJob started) :=
    buildWindow_withJob_eq_ok.mpr ⟨prepared, written, committed, rfl⟩
  rw [runJob_of_beginJob begins, build]
  exact endJob_complete inProgress known committed _ _

/-- If the window cannot be built then the job has failed, and nothing else has changed. -/
theorem runJob_of_error {started : Job} {e : RunError}
    (begins : distributor.beginJob ledger jobId = .ok (started, ledger.withJob started))
    (build : distributor.buildWindow (ledger.withJob started) started = .error e) :
    distributor.runJob ledger jobId =
      .ok (started.abandoned e.message, ledger.withJob (started.abandoned e.message)) := by
  obtain ⟨inProgress, ⟨old, known⟩, -⟩ := begun_of_beginJob begins
  rw [runJob_of_beginJob begins, build]
  exact endJob_fail inProgress known e.message

theorem buildWindow_jobs (jobs : List Job) :
    distributor.buildWindow { ledger with jobs } job =
      (distributor.buildWindow ledger job).map fun built => (built.1, { built.2 with jobs }) := by
  unfold buildWindow
  change ((distributor.prepare ledger job).mapError _ >>= _) = _
  cases distributor.prepare ledger job with
  | error e => rfl
  | ok commit =>
      change ((Ledger.commit { ledger with jobs } commit).mapError RunError.ledger >>= _) =
        ((ledger.commit commit).mapError RunError.ledger >>= _).map _
      rw [Ledger.commit_jobs]
      cases ledger.commit commit with
      | error e => rfl
      | ok written => rfl

theorem buildWindow_withJob (other : Job) :
    distributor.buildWindow (ledger.withJob other) job =
      (distributor.buildWindow ledger job).map fun built => (built.1, built.2.withJob other) := by
  refine (buildWindow_jobs _).trans ?_
  cases build : distributor.buildWindow ledger job with
  | error e => rfl
  | ok built =>
      obtain ⟨commit, written⟩ := built
      rw [Ledger.eq_of_commit (buildWindow_eq_ok.mp build).2]
      rfl

/-- A job that has begun as it ends, and the ledger with its window if it can be built.  The job may
be given up for some reason before. -/
def ended (distributor : Distributor) (ledger : Ledger) (started : Job) (givenUp : Option String) :
    Job × Ledger :=
  match givenUp, distributor.buildWindow ledger started with
  | some reason, _ => (started.abandoned reason, ledger)
  | none, .error e => (started.abandoned e.message, ledger)
  | none, .ok (commit, written) =>
    (started.finished commit.window.merkleRoot commit.recipients.length, written)

theorem ended_jobs (jobs : List Job) (started : Job) (givenUp : Option String) :
    distributor.ended { ledger with jobs } started givenUp =
      ((distributor.ended ledger started givenUp).1,
        { (distributor.ended ledger started givenUp).2 with jobs }) := by
  cases givenUp with
  | some reason => rfl
  | none =>
      unfold ended
      rw [buildWindow_jobs]
      cases distributor.buildWindow ledger started with
      | error e => rfl
      | ok built => rfl

theorem keeps_ended (started : Job) (givenUp : Option String) :
    (distributor.ended ledger started givenUp).1.jobId = started.jobId ∧
      (distributor.ended ledger started givenUp).1.status ≠ .inProgress := by
  unfold ended
  split
  · exact ⟨rfl, by simp [Job.abandoned]⟩
  · exact ⟨rfl, by simp [Job.abandoned]⟩
  · exact ⟨rfl, by simp [Job.finished]⟩

theorem jobs_ended (started : Job) (givenUp : Option String) :
    (distributor.ended ledger started givenUp).2.jobs = ledger.jobs := by
  unfold ended
  split
  · rfl
  · rfl
  · next build => rw [Ledger.eq_of_commit (buildWindow_eq_ok.mp build).2]

theorem runJob_eq_ended {started : Job}
    (begins : distributor.beginJob ledger jobId = .ok (started, ledger.withJob started)) :
    distributor.runJob ledger jobId = .ok ((distributor.ended ledger started none).1,
      (distributor.ended ledger started none).2.withJob
        (distributor.ended ledger started none).1) := by
  unfold ended
  cases build : distributor.buildWindow ledger started with
  | ok built =>
      obtain ⟨commit, written⟩ := built
      obtain ⟨prepared, committed⟩ := buildWindow_eq_ok.mp build
      exact runJob_of_commit begins prepared committed
  | error e =>
      refine runJob_of_error begins ((buildWindow_withJob started).trans ?_)
      rw [build]
      rfl

/-- A run puts its job in progress.  If the window can be prepared and committed, it is, and the
job is done; otherwise the job has failed and nothing else has changed. -/
theorem runJob_eq_ok :
    distributor.runJob ledger jobId = .ok (job, after) ↔
      ∃ started, distributor.beginJob ledger jobId = .ok (started, ledger.withJob started) ∧
        ((∃ commit written, distributor.prepare ledger started = .ok commit ∧
            ledger.commit commit = .ok written ∧
            job = started.finished commit.window.merkleRoot commit.recipients.length ∧
            after = written.withJob job) ∨
          (∃ e, distributor.buildWindow (ledger.withJob started) started = .error e ∧
            job = started.abandoned e.message ∧ after = ledger.withJob job)) := by
  constructor
  · intro ran
    obtain ⟨⟨started, begun⟩, begins, -⟩ := Outcome.bind_eq_ok.mp ran
    obtain ⟨-, -, rfl⟩ := begun_of_beginJob begins
    refine ⟨started, begins, ?_⟩
    cases build : distributor.buildWindow (ledger.withJob started) started with
    | ok built =>
        obtain ⟨commit, built⟩ := built
        obtain ⟨prepared, written, committed, -⟩ := buildWindow_withJob_eq_ok.mp build
        rw [runJob_of_commit begins prepared committed] at ran
        cases ran
        exact .inl ⟨commit, written, prepared, committed, rfl, rfl⟩
    | error e =>
        rw [runJob_of_error begins build] at ran
        cases ran
        exact .inr ⟨e, rfl, rfl, rfl⟩
  · rintro ⟨started, begins, h⟩
    rcases h with ⟨commit, written, prepared, committed, rfl, rfl⟩ | ⟨e, build, rfl, rfl⟩
    · exact runJob_of_commit begins prepared committed
    · exact runJob_of_error begins build

theorem execute_eq_ok {now : Instant} {index : Nat} {config : JobConfig} :
    distributor.execute now ledger jobId index config = (after, .ok job) ↔
      ∃ created, distributor.createJob now ledger jobId index config =
          .ok (Job.new jobId index config, created) ∧
        distributor.runJob created jobId = .ok (job, after) := by
  unfold execute
  constructor
  · intro h
    split at h
    · cases h
    · next created isCreated =>
        obtain ⟨-, -, -, -, rfl, -⟩ := createJob_eq_ok.mp isCreated
        split at h
        · cases h
        · next ran =>
            cases h
            exact ⟨_, isCreated, ran⟩
  · rintro ⟨created, isCreated, ran⟩
    rw [isCreated]
    dsimp only
    rw [ran]

/-- Where no job is in progress, a job of a new name whose window can be prepared and committed is
done once it is created and run. -/
theorem execute_of_commit {now : Instant} {index : Nat} {config : JobConfig}
    {commit : WindowCommit} {written : Ledger} (valid : config.validate now = .ok ())
    (free : distributor.checkIndex ledger index = .ok ())
    (idle : ledger.jobsIn .inProgress = []) (fresh : ∀ other ∈ ledger.jobs, other.jobId ≠ jobId)
    (prepared : distributor.prepare ledger (.new jobId index config) = .ok commit)
    (committed : ledger.commit commit = .ok written) :
    ∃ done, done.status = .done ∧ done.jobId = jobId ∧
      distributor.execute now ledger jobId index config =
        ({ written with jobs := ledger.jobs ++ [done] }, .ok done) := by
  have others : ∀ other ∈ ledger.jobsIn .inProgress, other.windowIndex ≠ index := by simp [idle]
  have isCreated := createJob_eq_ok.mpr ⟨valid, free, others, fresh, rfl, rfl⟩
  have begins := beginJob_of_createJob isCreated idle
  obtain ⟨isFree, checked, deposits, assigned, rfl⟩ := Ledger.commit_eq_ok.mp committed
  have ran := runJob_of_commit begins prepared
    (Ledger.commit_eq_ok.mpr ⟨isFree, checked, deposits, assigned, rfl⟩)
  generalize named : (Job.new jobId index config).begun.finished commit.window.merkleRoot
    commit.recipients.length = done at ran
  have sameId : done.jobId = jobId := named ▸ rfl
  have replaced := @Ledger.withJob_append (ledger.write commit deposits) ledger.jobs
    (.new jobId index config) done sameId.symm (sameId.symm ▸ fresh)
  refine ⟨done, named ▸ rfl, sameId, execute_eq_ok.mpr ⟨_, isCreated, ran.trans ?_⟩⟩
  exact congrArg (fun after => Except.ok (done, after)) replaced

/-- A job in progress as it is recovered: done if the window at its index is its own, and
abandoned otherwise. -/
def recovered (distributor : Distributor) (ledger : Ledger) (job : Job) (reason : String) : Job :=
  match ledger.windows.find? (distributor.line, job.windowIndex) with
  | some window =>
    if window.jobId = job.jobId then
      job.finished window.merkleRoot (ledger.recipientsOf distributor.line job.windowIndex).length
    else job.abandoned reason
  | none => job.abandoned reason

theorem recoverJob_eq_ok {reason : String} :
    distributor.recoverJob ledger jobId reason = .ok (job, after) ↔
      ∃ old, ledger.getJob jobId = .ok old ∧ old.status = .inProgress ∧
        job = distributor.recovered ledger old reason ∧ after = ledger.withJob job := by
  unfold recoverJob
  rw [Outcome.bind_eq_ok]
  refine exists_congr fun old => ?_
  rw [Outcome.mapError_eq_ok]
  refine and_congr_right fun found => ?_
  by_cases status : old.status = .inProgress
  · have known : ∃ other, ledger.getJob old.jobId = .ok other :=
      ⟨old, (Ledger.jobId_of_getJob found).symm ▸ found⟩
    have ends : ∀ {ended : Except RewardError Job} {final : Job}, final.jobId = old.jobId →
        ended = .ok final →
        (endJob ledger ended = .ok (job, after) ↔ job = final ∧ after = ledger.withJob job) := by
      rintro ended final sameId rfl
      rw [endJob_eq_ok, Except.ok.injEq, eq_comm]
      refine and_congr_right fun isFinal => and_iff_right ?_
      rw [isFinal, sameId]
      exact known
    have complete := Job.complete_of_inProgress status
    have fails := Job.fail_of_inProgress status
    rw [if_neg (not_not.mpr status)]
    simp only [status, true_and]
    unfold recovered
    cases ledger.windows.find? (distributor.line, old.windowIndex) with
    | none => exact ends rfl (fails reason)
    | some window =>
        dsimp only
        split
        · exact ends rfl (complete _ _)
        · exact ends rfl (fails reason)
  · rw [if_pos status]
    simp [status, throw, throwThe, MonadExceptOf.throw, bind, Except.bind]

end Distributor

end BridgeRewards
