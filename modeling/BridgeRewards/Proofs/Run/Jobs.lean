import BridgeRewards.Proofs.Distributor.Build
import BridgeRewards.Proofs.Ledger.Delivery
import BridgeRewards.Proofs.Run.Consistent
import Mathlib.Logic.Relation

/-!
# Jobs and windows agree

What an operation does to jobs and windows it does in single writes: a job is created, put in
progress, given its window, finished or abandoned (`Ledger.JobStep`).  Every operation is a chain
of such writes (`steps_of_operation`), and one that is cut off is the beginning of a chain; a run
that is given up for lack of time is one that is cut off and recovered.  So what each write keeps
holds after every run, wherever its operations were cut off: at most one job is in progress, and
each window belongs to one job, which is done or in progress (`Ledger.JobsAgree`).
-/

set_option autoImplicit false

namespace BridgeRewards.Ledger

variable {ledger after : Ledger} {line : Line} {job : Job}

/-! ## Single writes -/

/-- What one write does to the jobs and windows of a line. -/
inductive JobStep (line : Line) (before : Ledger) : Ledger → Prop
  /-- A write that is not one of a job leaves jobs and windows alone, and takes no claim away. -/
  | idle {after : Ledger} (jobs : after.jobs = before.jobs)
      (windows : after.windows = before.windows)
      (recipients : after.recipients = before.recipients)
      (claims : after.claims.Extends before.claims) : JobStep line before after
  | create {job : Job} (initial : job.status = .initial)
      (fresh : ∀ other ∈ before.jobs, other.jobId ≠ job.jobId) :
      JobStep line before { before with jobs := before.jobs ++ [job] }
  | start {job : Job} (member : job ∈ before.jobs) (initial : job.status = .initial)
      (idle : before.jobsIn .inProgress = []) : JobStep line before (before.withJob job.begun)
  /-- The window of a job in progress is written at the index of the job, with its name. -/
  | build {job : Job} {commit : WindowCommit} {after : Ledger} (member : job ∈ before.jobs)
      (inProgress : job.status = .inProgress) (place : commit.place = (line, job.windowIndex))
      (own : commit.window.jobId = job.jobId) (committed : before.commit commit = .ok after) :
      JobStep line before after
  /-- A job in progress is done once its window is written. -/
  | finish {job : Job} {window : Window} (member : job ∈ before.jobs)
      (inProgress : job.status = .inProgress)
      (written : before.windows.find? (line, job.windowIndex) = some window)
      (own : window.jobId = job.jobId) :
      JobStep line before (before.withJob
        (job.finished window.merkleRoot (before.recipientsOf line job.windowIndex).length))
  /-- A job in progress fails only if its window is not written. -/
  | abandon {job : Job} (member : job ∈ before.jobs) (inProgress : job.status = .inProgress)
      (missing : ∀ window, before.windows.find? (line, job.windowIndex) = some window →
        window.jobId ≠ job.jobId) (reason : String) :
      JobStep line before (before.withJob (job.abandoned reason))

/-- Any number of writes. -/
abbrev JobSteps (line : Line) : Ledger → Ledger → Prop := Relation.ReflTransGen (JobStep line)

theorem JobStep.claims (step : JobStep line ledger after) :
    after.claims.Extends ledger.claims := by
  cases step with
  | idle jobs windows recipients claims => exact claims
  | build member inProgress place own committed =>
      rw [eq_of_commit committed]
      exact .refl _
  | _ => exact .refl _

theorem JobSteps.claims (steps : JobSteps line ledger after) :
    after.claims.Extends ledger.claims := by
  induction steps with
  | refl => exact .refl _
  | tail _ last ih => exact ih.trans last.claims

/-! ## Operations as chains of writes -/

variable {distributor : Distributor} {jobId : String}

theorem start_of_beginJob (h : distributor.beginJob ledger jobId = .ok (job, after)) :
    JobStep line ledger after := by
  obtain ⟨initial, known, isInitial, idle, -, rfl, rfl⟩ := Distributor.beginJob_eq_ok.mp h
  exact .start (mem_of_getJob known) isInitial idle

/-- A job that begins stands among the jobs, in progress, and its place on the line is free. -/
theorem mem_of_beginJob (h : distributor.beginJob ledger jobId = .ok (job, after)) :
    job ∈ after.jobs ∧ job.status = .inProgress ∧
      after.windows.find? (distributor.line, job.windowIndex) = none := by
  obtain ⟨initial, known, -, -, free, rfl, rfl⟩ := Distributor.beginJob_eq_ok.mp h
  have stands : initial.begun ∈ (ledger.withJob initial.begun).jobs :=
    (mem_jobs_withJob (mem_of_getJob known) (show initial.jobId = initial.begun.jobId from rfl)).mpr
      (.inl rfl)
  exact ⟨stands, rfl, Distributor.free_of_checkIndex free⟩

/-- The window of a job that has begun is written as that of the job. -/
theorem build_of_prepare {commit : WindowCommit} {written : Ledger}
    (begins : distributor.beginJob ledger jobId = .ok (job, ledger.withJob job))
    (prepared : distributor.prepare ledger job = .ok commit)
    (committed : ledger.commit commit = .ok written) :
    JobStep distributor.line (ledger.withJob job) (written.withJob job) := by
  obtain ⟨member, inProgress, -⟩ := mem_of_beginJob begins
  refine .build member inProgress (Distributor.place_of_prepare prepared).1
    (Distributor.jobId_of_prepare prepared) ?_
  rw [commit_withJob, committed]
  rfl

/-- A run whose window is written puts its job in progress, writes the window and finishes the
job. -/
theorem steps_of_finished {commit : WindowCommit} {written : Ledger}
    (begins : distributor.beginJob ledger jobId = .ok (job, ledger.withJob job))
    (prepared : distributor.prepare ledger job = .ok commit)
    (committed : ledger.commit commit = .ok written) :
    JobSteps distributor.line ledger
      (written.withJob (job.finished commit.window.merkleRoot commit.recipients.length)) := by
  obtain ⟨member, inProgress, -⟩ := mem_of_beginJob begins
  refine .head (start_of_beginJob begins)
    (.head (build_of_prepare begins prepared committed) (.single ?_))
  have own := Distributor.jobId_of_prepare prepared
  have stands := Distributor.find?_windows_of_commit prepared committed
  have rows := Distributor.recipientsOf_of_commit prepared committed
  have count : ((written.withJob job).recipientsOf distributor.line job.windowIndex).length =
      commit.recipients.length := congrArg List.length rows
  have still : job ∈ (written.withJob job).jobs := by
    rw [eq_of_commit committed]
    exact member
  have finished := JobStep.finish still inProgress stands own
  have last := @withJob_withJob written job
    (job.finished commit.window.merkleRoot commit.recipients.length) rfl
  rwa [count, last] at finished

/-- A run whose window cannot be built puts its job in progress and abandons it. -/
theorem steps_of_abandoned (reason : String)
    (begins : distributor.beginJob ledger jobId = .ok (job, ledger.withJob job)) :
    JobSteps distributor.line ledger (ledger.withJob (job.abandoned reason)) := by
  obtain ⟨member, inProgress, free⟩ := mem_of_beginJob begins
  refine .head (start_of_beginJob begins) (.single ?_)
  have abandoned := JobStep.abandon member inProgress (fun window found => by
    rw [free] at found
    cases found) reason
  have last := @withJob_withJob ledger job (job.abandoned reason) rfl
  rwa [last] at abandoned

theorem step_of_recoverJob {reason : String}
    (h : distributor.recoverJob ledger jobId reason = .ok (job, after)) :
    JobStep distributor.line ledger after := by
  obtain ⟨old, known, inProgress, rfl, rfl⟩ := Distributor.recoverJob_eq_ok.mp h
  have member := mem_of_getJob known
  unfold Distributor.recovered
  split
  · next window found =>
      split
      · next own => exact .finish member inProgress found own
      · next other =>
          exact .abandon member inProgress (fun same isSame => by
            rw [found] at isSame
            exact Option.some.inj isSame ▸ other) reason
  · next missing =>
      exact .abandon member inProgress (fun window found => by
        rw [missing] at found
        cases found) reason

/-- **Every operation is a chain of single writes.** -/
theorem steps_of_operation {operation : Operation} (onLine : operation.OnLine line) :
    JobSteps line ledger (ledger.after operation) := by
  have operates := ledger.operates operation
  generalize ledger.after operation = after at operates ⊢
  cases operates with
  | unchanged => exact .refl
  | token => exact .single (.idle rfl rfl rfl (.refl _))
  | price => exact .single (.idle rfl rfl rfl (.refl _))
  | delivered =>
      obtain ⟨_, _, _, _, _, _, _, more, delivered⟩ := ledger.exists_deliver_eq _ _
      rw [delivered]
      exact .single (.idle rfl rfl rfl more)
  | priced => exact .single (.idle rfl rfl rfl (.refl _))
  | created fresh => exact .single (.create rfl fresh)
  | begun begins => exact .single (start_of_beginJob begins)
  | unbuilt begins => exact .single (start_of_beginJob begins)
  | built begins prepared committed =>
      obtain rfl := onLine
      exact .head (start_of_beginJob begins)
        (.single (build_of_prepare begins prepared committed))
  | finished begins prepared committed =>
      obtain rfl := onLine
      exact steps_of_finished begins prepared committed
  | abandoned begins reason =>
      obtain rfl := onLine
      exact steps_of_abandoned reason begins
  | recovered recovered =>
      obtain rfl := onLine
      exact .single (step_of_recoverJob recovered)

/-! ## What every write keeps -/

/-- The jobs and the windows of a line agree. -/
structure JobsAgree (line : Line) (ledger : Ledger) : Prop where
  /-- No two jobs have one name. -/
  distinct : (ledger.jobs.map (·.jobId)).Nodup
  /-- At most one job is in progress. -/
  exclusive : (ledger.jobsIn .inProgress).length ≤ 1
  /-- The window of a job that is done stands at its index with its name; the job has the root
  of the window and the number of its recipients. -/
  done : ∀ job ∈ ledger.jobs, job.status = .done → ∃ window,
    ledger.windows.find? (line, job.windowIndex) = some window ∧ window.jobId = job.jobId ∧
      job.merkleRoot = some window.merkleRoot ∧
      job.recipientCount = (ledger.recipientsOf line job.windowIndex).length
  /-- A window belongs to a job that is done or in progress, at whose index it stands. -/
  owned : ∀ place window, ledger.windows.find? place = some window →
    ∃ job ∈ ledger.jobs, job.jobId = window.jobId ∧ place = (line, job.windowIndex) ∧
      (job.status = .done ∨ job.status = .inProgress)

theorem jobsAgree_empty (line : Line) : JobsAgree line .empty where
  distinct := List.nodup_nil
  exclusive := Nat.zero_le 1
  done job member := by cases member
  owned place window found := by cases found

/-- Where jobs in some state have one name, there is at most one of them. -/
theorem length_jobsIn_le_one {status : JobStatus} (distinct : (ledger.jobs.map (·.jobId)).Nodup)
    (single : ∀ first ∈ ledger.jobsIn status, ∀ second ∈ ledger.jobsIn status,
      first.jobId = second.jobId) : (ledger.jobsIn status).length ≤ 1 := by
  have names : ((ledger.jobsIn status).map (·.jobId)).Nodup :=
    distinct.sublist (List.filter_sublist.map _)
  generalize ledger.jobsIn status = jobs at single names ⊢
  rcases jobs with _ | ⟨first, _ | ⟨second, rest⟩⟩
  · exact Nat.zero_le 1
  · exact le_refl 1
  · have same := single first List.mem_cons_self second (by simp)
    simp [same] at names

namespace JobsAgree

theorem eq_of_jobId (agree : JobsAgree line ledger) {other : Job} (member : job ∈ ledger.jobs)
    (isOther : other ∈ ledger.jobs) (same : job.jobId = other.jobId) : job = other :=
  List.inj_on_of_nodup_map agree.distinct member isOther same

theorem eq_of_inProgress (agree : JobsAgree line ledger) {other : Job}
    (inProgress : job ∈ ledger.jobsIn .inProgress) (isOther : other ∈ ledger.jobsIn .inProgress) :
    job = other := by
  have single := agree.exclusive
  generalize ledger.jobsIn .inProgress = jobs at inProgress isOther single
  rcases jobs with _ | ⟨first, _ | ⟨second, rest⟩⟩
  · cases inProgress
  · rw [List.mem_singleton.mp inProgress, List.mem_singleton.mp isOther]
  · simp at single

/-- A job that owns a window is done or in progress, and the window stands at its index. -/
theorem of_owner (agree : JobsAgree line ledger) (member : job ∈ ledger.jobs)
    {place : Line × Nat} {window : Window} (found : ledger.windows.find? place = some window)
    (own : window.jobId = job.jobId) :
    place = (line, job.windowIndex) ∧ (job.status = .done ∨ job.status = .inProgress) := by
  obtain ⟨owning, isOwning, sameName, isPlace, state⟩ := agree.owned place window found
  obtain rfl := agree.eq_of_jobId isOwning member (sameName.trans own)
  exact ⟨isPlace, state⟩

/-- A job replaces one of the same name and index.  It may be in progress only if no other job
is, be done only with a window of its own, and be neither only if no window has its name. -/
theorem withJob (agree : JobsAgree line ledger) {next : Job} (member : job ∈ ledger.jobs)
    (name : job.jobId = next.jobId) (index : job.windowIndex = next.windowIndex)
    (alone : next.status = .inProgress → ledger.jobsIn .inProgress = [])
    (done : next.status = .done → ∃ window,
      ledger.windows.find? (line, next.windowIndex) = some window ∧ window.jobId = next.jobId ∧
        next.merkleRoot = some window.merkleRoot ∧
        next.recipientCount = (ledger.recipientsOf line next.windowIndex).length)
    (owner : ∀ place window, ledger.windows.find? place = some window →
      window.jobId = job.jobId → next.status = .done ∨ next.status = .inProgress) :
    JobsAgree line (ledger.withJob next) := by
  have members : ∀ other, other ∈ (ledger.withJob next).jobs ↔
      other = next ∨ (other ∈ ledger.jobs ∧ other.jobId ≠ next.jobId) :=
    fun other => mem_jobs_withJob member name
  have distinct : ((ledger.withJob next).jobs.map (·.jobId)).Nodup := by
    rw [map_jobId_withJob]
    exact agree.distinct
  constructor
  · exact distinct
  · -- Either the new job is the only one in progress, or those in progress were so before.
    refine length_jobsIn_le_one distinct fun first isFirst second isSecond => ?_
    obtain ⟨memberFirst, firstRuns⟩ := mem_jobsIn.mp isFirst
    obtain ⟨memberSecond, secondRuns⟩ := mem_jobsIn.mp isSecond
    rcases (members first).mp memberFirst with rfl | ⟨oldFirst, -⟩
    · rcases (members second).mp memberSecond with rfl | ⟨oldSecond, -⟩
      · rfl
      · have runs := mem_jobsIn.mpr ⟨oldSecond, secondRuns⟩
        rw [alone firstRuns] at runs
        cases runs
    · have runs := mem_jobsIn.mpr ⟨oldFirst, firstRuns⟩
      rcases (members second).mp memberSecond with rfl | ⟨oldSecond, -⟩
      · rw [alone secondRuns] at runs
        cases runs
      · rw [agree.eq_of_inProgress runs (mem_jobsIn.mpr ⟨oldSecond, secondRuns⟩)]
  · intro other isOther isDone
    rcases (members other).mp isOther with rfl | ⟨old, -⟩
    · exact done isDone
    · exact agree.done other old isDone
  · intro place window found
    obtain ⟨owning, isOwning, sameName, isPlace, state⟩ := agree.owned place window found
    by_cases same : owning.jobId = next.jobId
    · obtain rfl := agree.eq_of_jobId isOwning member (same.trans name.symm)
      exact ⟨next, (members next).mpr (.inl rfl), same.symm.trans sameName, index ▸ isPlace,
        owner place window found sameName.symm⟩
    · exact ⟨owning, (members owning).mpr (.inr ⟨isOwning, same⟩), sameName, isPlace, state⟩

theorem create (agree : JobsAgree line ledger) (initial : job.status = .initial)
    (fresh : ∀ other ∈ ledger.jobs, other.jobId ≠ job.jobId) :
    JobsAgree line { ledger with jobs := ledger.jobs ++ [job] } := by
  constructor
  · rw [List.map_append, List.map_singleton, List.nodup_append]
    refine ⟨agree.distinct, List.nodup_singleton _, fun name isOld other isNew => ?_⟩
    obtain ⟨old, member, rfl⟩ := List.mem_map.mp isOld
    rw [List.mem_singleton.mp isNew]
    exact fresh old member
  · unfold jobsIn
    have exclusive := agree.exclusive
    unfold jobsIn at exclusive
    simpa [List.filter_append, initial] using exclusive
  · intro other isOther isDone
    rcases List.mem_append.mp isOther with member | isNew
    · exact agree.done other member isDone
    · rw [List.mem_singleton.mp isNew, initial] at isDone
      cases isDone
  · intro place window found
    obtain ⟨owning, isOwning, rest⟩ := agree.owned place window found
    exact ⟨owning, List.mem_append_left _ isOwning, rest⟩

theorem build (agree : JobsAgree line ledger) {commit : WindowCommit} (member : job ∈ ledger.jobs)
    (inProgress : job.status = .inProgress) (place : commit.place = (line, job.windowIndex))
    (own : commit.window.jobId = job.jobId) (committed : ledger.commit commit = .ok after) :
    JobsAgree line after := by
  obtain ⟨windows, recipients⟩ := tables_of_commit committed
  have free := (commit_eq_ok.mp committed).1
  have jobs : after.jobs = ledger.jobs := by rw [eq_of_commit committed]
  rw [place] at free windows recipients
  constructor
  · rw [jobs]
    exact agree.distinct
  · unfold jobsIn
    rw [jobs]
    exact agree.exclusive
  · -- The place was free, so the window of a job that is done stands elsewhere.
    intro other isOther isDone
    rw [jobs] at isOther
    obtain ⟨window, found, rest⟩ := agree.done other isOther isDone
    have elsewhere : (line, other.windowIndex) ≠ (line, job.windowIndex) := by
      intro here
      rw [here, free] at found
      cases found
    unfold recipientsOf
    rw [windows, recipients, Table.find?_insert, Table.find?_insert, if_neg elsewhere,
      if_neg elsewhere]
    exact ⟨window, found, rest⟩
  · intro at_ window found
    rw [jobs]
    rw [windows, Table.find?_insert] at found
    split at found
    · next here =>
        obtain rfl := Option.some.inj found
        exact ⟨job, member, own.symm, here, .inr inProgress⟩
    · exact agree.owned at_ window found

/-- **Every write keeps jobs and windows in agreement.** -/
theorem step (agree : JobsAgree line ledger) (step : JobStep line ledger after) :
    JobsAgree line after := by
  cases step with
  | idle jobs windows recipients _ =>
      constructor
      · rw [jobs]; exact agree.distinct
      · unfold jobsIn; rw [jobs]; exact agree.exclusive
      · unfold recipientsOf; rw [jobs, windows, recipients]; exact agree.done
      · rw [jobs, windows]; exact agree.owned
  | create initial fresh => exact agree.create initial fresh
  | start member initial idle =>
      refine agree.withJob member rfl rfl (fun _ => idle) (fun isDone => by cases isDone)
        (fun _ _ _ _ => .inr rfl)
  | build member inProgress place own committed =>
      exact agree.build member inProgress place own committed
  | finish member inProgress written own =>
      refine agree.withJob member rfl rfl (fun runs => by cases runs)
        (fun _ => ⟨_, written, own, rfl, rfl⟩) (fun _ _ _ _ => .inl rfl)
  | abandon member inProgress missing reason =>
      refine agree.withJob member rfl rfl (fun runs => by cases runs)
        (fun isDone => by cases isDone) (fun place window found own => ?_)
      obtain ⟨rfl, -⟩ := agree.of_owner member found own
      exact (missing window found own).elim

theorem steps (agree : JobsAgree line ledger) (steps : JobSteps line ledger after) :
    JobsAgree line after := by
  induction steps with
  | refl => exact agree
  | tail _ last ih => exact ih.step last

end JobsAgree

/-! ## What follows -/

/-- Some window has the name of a job. -/
def Owns (ledger : Ledger) (job : Job) : Prop :=
  ∃ place window, ledger.windows.find? place = some window ∧ window.jobId = job.jobId

/-- A job in progress is recovered: done, with the root and the number of recipients that were
committed, if it owns a window, and abandoned if it owns none. -/
def Recovers (distributor : Distributor) (ledger : Ledger) (job : Job) (reason : String) : Prop :=
  ∃ recovered, distributor.recoverJob ledger job.jobId reason =
      .ok (recovered, ledger.withJob recovered) ∧
    ((∃ window, ledger.windows.find? (distributor.line, job.windowIndex) = some window ∧
        window.jobId = job.jobId ∧ recovered = job.finished window.merkleRoot
          (ledger.recipientsOf distributor.line job.windowIndex).length) ∨
      (¬ ledger.Owns job ∧ recovered = job.abandoned reason))

namespace JobsAgree

theorem existsUnique_owner (agree : JobsAgree line ledger) {place : Line × Nat} {window : Window}
    (found : ledger.windows.find? place = some window) :
    ∃! job, job ∈ ledger.jobs ∧ job.jobId = window.jobId := by
  obtain ⟨job, member, own, -⟩ := agree.owned place window found
  exact ⟨job, ⟨member, own⟩, fun other ⟨isOther, same⟩ =>
    agree.eq_of_jobId isOther member (same.trans own.symm)⟩

theorem not_owns (agree : JobsAgree line ledger) (member : job ∈ ledger.jobs)
    (state : job.status = .initial ∨ job.status = .failed) : ¬ ledger.Owns job := by
  rintro ⟨place, window, found, own⟩
  obtain ⟨-, owns⟩ := agree.of_owner member found own
  rcases state with state | state <;> rcases owns with owns | owns <;> rw [state] at owns <;>
    cases owns

theorem recovers (agree : JobsAgree line ledger) {distributor : Distributor}
    (onLine : distributor.line = line) (member : job ∈ ledger.jobs)
    (inProgress : job.status = .inProgress) (reason : String) :
    Recovers distributor ledger job reason := by
  refine ⟨distributor.recovered ledger job reason, Distributor.recoverJob_eq_ok.mpr
    ⟨job, getJob_of_mem agree.distinct member, inProgress, rfl, rfl⟩, ?_⟩
  subst onLine
  unfold Distributor.recovered
  cases found : ledger.windows.find? (distributor.line, job.windowIndex) with
  | none =>
      refine .inr ⟨?_, rfl⟩
      rintro ⟨place, window, isThere, own⟩
      rw [(agree.of_owner member isThere own).1, found] at isThere
      cases isThere
  | some window =>
      dsimp only
      split
      · next own => exact .inl ⟨window, rfl, own, rfl⟩
      · next other =>
          refine .inr ⟨?_, rfl⟩
          rintro ⟨place, same, isThere, own⟩
          rw [(agree.of_owner member isThere own).1, found] at isThere
          exact other (Option.some.inj isThere ▸ own)

end JobsAgree

theorem jobsAgree_run {operations : List Operation}
    (onLine : ∀ operation ∈ operations, operation.OnLine line) :
    JobsAgree line (Ledger.empty.run operations) :=
  run_induction (·.OnLine line) (JobsAgree line)
    (fun _ _ isOnLine agree => agree.steps (steps_of_operation isOnLine)) (jobsAgree_empty line)
    onLine

/-- **Jobs and windows agree after every run**, wherever its runs of jobs were cut off.  A window
belongs to one job only, a job that has not run yet or has failed owns none, and a job in progress
is recovered as its window tells. -/
theorem jobs_agree_of_run (line : Line) {operations : List Operation}
    (onLine : ∀ operation ∈ operations, operation.OnLine line) :
    JobsAgree line (Ledger.empty.run operations) ∧
      (∀ place window, (Ledger.empty.run operations).windows.find? place = some window →
        ∃! job, job ∈ (Ledger.empty.run operations).jobs ∧ job.jobId = window.jobId) ∧
      (∀ job ∈ (Ledger.empty.run operations).jobs,
        job.status = .initial ∨ job.status = .failed → ¬ (Ledger.empty.run operations).Owns job) ∧
      (∀ job ∈ (Ledger.empty.run operations).jobs, job.status = .inProgress →
        ∀ (distributor : Distributor) (reason : String), distributor.line = line →
          Recovers distributor (Ledger.empty.run operations) job reason) := by
  have agree := jobsAgree_run onLine
  refine ⟨agree, fun place window found => agree.existsUnique_owner found,
    fun job member state => agree.not_owns member state, ?_⟩
  exact fun job member inProgress distributor reason isOnLine =>
    agree.recovers isOnLine member inProgress reason

/-- A run that is cut off once its window is written leaves its job in progress, with the window;
the job is then recovered as done. -/
theorem jobs_agree_of_run_cutOff :
    ∃ window, (Ledger.empty.run (Trial.operations ++
        [.runToWindow Trial.distributor "job"])).windows.find? (Trial.distributor.line, 0) =
          some window ∧ window.jobId = "job" ∧
      Recovers Trial.distributor (Ledger.empty.run (Trial.operations ++
        [.runToWindow Trial.distributor "job"])) Trial.job "timeout" := by
  obtain ⟨commit, written, prepared, committed⟩ := Trial.exists_commit
  have build : Trial.distributor.buildWindow (Trial.ledger.withJob Trial.job) Trial.job =
      .ok (commit, written.withJob Trial.job) :=
    Distributor.buildWindow_eq_ok.mpr ⟨prepared, by rw [commit_withJob, committed]; rfl⟩
  have reached : Ledger.empty.run (Trial.operations ++
      [.runToWindow Trial.distributor "job"]) = written.withJob Trial.job := by
    rw [run_append]
    change Trial.ledger.after (.runToWindow Trial.distributor "job") = _
    unfold Ledger.after
    dsimp only
    rw [Trial.beginJob_eq]
    change Ledger.orUnchanged _ (Trial.distributor.buildWindow _ _) = _
    rw [build]
    rfl
  have onLine : ∀ operation ∈ Trial.operations ++ [.runToWindow Trial.distributor "job"],
      operation.OnLine Trial.distributor.line := by decide
  obtain ⟨agree, -, -, recovers⟩ := jobs_agree_of_run Trial.distributor.line onLine
  rw [reached] at recovers ⊢
  have stands := Distributor.find?_windows_of_commit prepared committed
  refine ⟨commit.window, stands, Distributor.jobId_of_prepare prepared, ?_⟩
  refine recovers Trial.job ?_ rfl Trial.distributor "timeout" rfl
  obtain ⟨member, -⟩ := mem_of_beginJob Trial.beginJob_eq
  rw [eq_of_commit committed]
  exact member

end BridgeRewards.Ledger
