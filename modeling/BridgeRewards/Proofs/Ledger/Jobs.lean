import BridgeRewards.Proofs.Ledger.Commit
import Mathlib.Data.List.Nodup

/-!
# The jobs of a ledger

A job is found under its name, is added if its name is new, and is replaced where its name is
(`Ledger.withJob`).  Jobs of other names are not affected, and a commit does not look at jobs
(`commit_jobs`).
-/

set_option autoImplicit false

namespace BridgeRewards.Ledger

variable {ledger after : Ledger}

/-- The ledger with a job in the place of one with its name. -/
def withJob (ledger : Ledger) (job : Job) : Ledger :=
  { ledger with jobs := ledger.jobs.map fun other =>
      if other.jobId == job.jobId then job else other }

theorem getJob_eq_ok {jobId : String} {job : Job} :
    ledger.getJob jobId = .ok job ↔ ledger.jobs.find? (·.jobId == jobId) = some job := by
  unfold getJob
  cases ledger.jobs.find? (·.jobId == jobId) <;> simp

theorem exists_getJob_iff {jobId : String} :
    (∃ job, ledger.getJob jobId = .ok job) ↔ ∃ job ∈ ledger.jobs, job.jobId = jobId := by
  simp only [getJob_eq_ok, ← Option.isSome_iff_exists, List.find?_isSome, beq_iff_eq]

theorem getJob_or_absent (ledger : Ledger) (jobId : String) :
    (∃ job, ledger.getJob jobId = .ok job) ∨ ∀ job ∈ ledger.jobs, job.jobId ≠ jobId := by
  rw [exists_getJob_iff]
  by_cases known : ∃ job ∈ ledger.jobs, job.jobId = jobId
  · exact .inl known
  · exact .inr fun job member same => known ⟨job, member, same⟩

theorem jobId_of_getJob {jobId : String} {job : Job} (h : ledger.getJob jobId = .ok job) :
    job.jobId = jobId := by
  simpa using List.find?_some (getJob_eq_ok.mp h)

theorem mem_jobsIn {job : Job} {status : JobStatus} :
    job ∈ ledger.jobsIn status ↔ job ∈ ledger.jobs ∧ job.status = status := by
  unfold jobsIn
  rw [List.mem_filter, beq_iff_eq]

theorem updateJob_eq_ok {job : Job} :
    ledger.updateJob job = .ok after ↔
      (∃ old, ledger.getJob job.jobId = .ok old) ∧ after = ledger.withJob job := by
  unfold updateJob
  rw [Outcome.bind_eq_ok]
  constructor
  · rintro ⟨old, found, h⟩
    exact ⟨⟨old, found⟩, (Except.ok.inj h).symm⟩
  · rintro ⟨⟨old, found⟩, rfl⟩
    exact ⟨old, found, rfl⟩

theorem createJob_eq_ok {job : Job} :
    ledger.createJob job = .ok after ↔
      (∀ other ∈ ledger.jobs, other.jobId ≠ job.jobId) ∧
        after = { ledger with jobs := ledger.jobs ++ [job] } := by
  unfold createJob
  by_cases taken : ledger.jobs.any (·.jobId == job.jobId) = true
  · obtain ⟨other, member, same⟩ := List.any_eq_true.mp taken
    rw [if_pos taken]
    refine ⟨fun h => (by cases h), fun ⟨fresh, _⟩ => ?_⟩
    exact (fresh other member (beq_iff_eq.mp same)).elim
  · have fresh : ∀ other ∈ ledger.jobs, other.jobId ≠ job.jobId := fun other member same =>
      taken (List.any_eq_true.mpr ⟨other, member, beq_iff_eq.mpr same⟩)
    rw [if_neg taken, Except.ok.injEq, eq_comm, and_iff_right fresh]

theorem mem_of_getJob {jobId : String} {job : Job} (h : ledger.getJob jobId = .ok job) :
    job ∈ ledger.jobs :=
  List.mem_of_find?_eq_some (getJob_eq_ok.mp h)

theorem getJob_of_mem (distinct : (ledger.jobs.map (·.jobId)).Nodup) {job : Job}
    (member : job ∈ ledger.jobs) : ledger.getJob job.jobId = .ok job := by
  rw [getJob_eq_ok]
  cases found : ledger.jobs.find? (·.jobId == job.jobId) with
  | none => exact (List.find?_eq_none.mp found job member (beq_iff_eq.mpr rfl)).elim
  | some other =>
      have same : other.jobId = job.jobId := by simpa using List.find?_some found
      rw [List.inj_on_of_nodup_map distinct (List.mem_of_find?_eq_some found) member same]

theorem getJob_append {job : Job} (fresh : ∀ other ∈ ledger.jobs, other.jobId ≠ job.jobId) :
    getJob { ledger with jobs := ledger.jobs ++ [job] } job.jobId = .ok job := by
  have absent : ledger.jobs.find? (·.jobId == job.jobId) = none :=
    List.find?_eq_none.mpr fun other member same => fresh other member (beq_iff_eq.mp same)
  rw [getJob_eq_ok]
  simp [List.find?_append, absent]

/-- After a known job was replaced there are the new job and those of other names. -/
theorem mem_jobs_withJob {job old other : Job} (known : old ∈ ledger.jobs)
    (same : old.jobId = job.jobId) :
    other ∈ (ledger.withJob job).jobs ↔
      other = job ∨ (other ∈ ledger.jobs ∧ other.jobId ≠ job.jobId) := by
  change other ∈ ledger.jobs.map _ ↔ _
  rw [List.mem_map]
  constructor
  · rintro ⟨before, member, rfl⟩
    by_cases here : before.jobId = job.jobId
    · exact .inl (if_pos (beq_iff_eq.mpr here))
    · rw [if_neg (by simpa using here)]
      exact .inr ⟨member, here⟩
  · rintro (rfl | ⟨member, here⟩)
    · exact ⟨old, known, if_pos (beq_iff_eq.mpr same)⟩
    · exact ⟨other, member, if_neg (by simpa using here)⟩

theorem map_jobId_withJob (job : Job) :
    (ledger.withJob job).jobs.map (·.jobId) = ledger.jobs.map (·.jobId) := by
  change (ledger.jobs.map _).map _ = _
  rw [List.map_map]
  refine List.map_congr_left fun other _ => ?_
  rw [Function.comp_apply]
  split
  · next same => exact (beq_iff_eq.mp same).symm
  · rfl

theorem getJob_withJob {job old : Job} (found : ledger.getJob job.jobId = .ok old) :
    (ledger.withJob job).getJob job.jobId = .ok job := by
  rw [getJob_eq_ok] at found ⊢
  change (ledger.jobs.map _).find? _ = some job
  generalize ledger.jobs = jobs at found ⊢
  induction jobs with
  | nil => cases found
  | cons first rest ih =>
      rw [List.map_cons]
      by_cases here : (first.jobId == job.jobId) = true
      · rw [if_pos here]
        simp
      · have other : (first.jobId == job.jobId) = false := by simpa using here
        rw [List.find?_cons, other] at found
        rw [if_neg here, List.find?_cons, other]
        exact ih found

theorem getJob_withJob_of_ne {job : Job} {jobId : String} (other : jobId ≠ job.jobId) :
    (ledger.withJob job).getJob jobId = ledger.getJob jobId := by
  have same : (ledger.withJob job).jobs.find? (·.jobId == jobId) =
      ledger.jobs.find? (·.jobId == jobId) := by
    change (ledger.jobs.map _).find? _ = _
    induction ledger.jobs with
    | nil => rfl
    | cons first rest ih =>
        rw [List.map_cons, List.find?_cons, List.find?_cons, ih]
        by_cases here : first.jobId = job.jobId
        · have differs : (job.jobId == jobId) = false := beq_false_of_ne other.symm
          simp [here, differs]
        · simp [here]
  unfold getJob
  rw [same]

theorem getJob_append_of_ne {job : Job} {jobId : String} (other : jobId ≠ job.jobId) :
    getJob { ledger with jobs := ledger.jobs ++ [job] } jobId = ledger.getJob jobId := by
  unfold getJob
  simp [List.find?_append, other.symm]

theorem withJob_withJob {first second : Job} (same : second.jobId = first.jobId) :
    (ledger.withJob first).withJob second = ledger.withJob second := by
  unfold withJob
  simp only [List.map_map]
  congr 1
  refine List.map_congr_left fun other _ => ?_
  by_cases here : other.jobId = first.jobId
  · simp [here, same]
  · simp [here, same]

theorem withJob_append {jobs : List Job} {old job : Job} (same : old.jobId = job.jobId)
    (fresh : ∀ other ∈ jobs, other.jobId ≠ job.jobId) :
    withJob { ledger with jobs := jobs ++ [old] } job = { ledger with jobs := jobs ++ [job] } := by
  have others : jobs.map (fun other => if other.jobId == job.jobId then job else other) = jobs :=
    (List.map_congr_left fun other member => if_neg (by simpa using fresh other member)).trans
      (List.map_id' jobs)
  unfold withJob
  rw [List.map_append, others, List.map_singleton, if_pos (beq_iff_eq.mpr same)]

theorem commit_jobs (commit : WindowCommit) (jobs : List Job) :
    Ledger.commit { ledger with jobs } commit =
      (ledger.commit commit).map fun written => { written with jobs } := by
  unfold Ledger.commit
  change (if ledger.hasWindow _ _ = true then _ else _) = _
  by_cases taken : ledger.hasWindow commit.window.line commit.window.windowIndex = true
  · rw [if_pos taken, if_pos taken]
    rfl
  · rw [if_neg taken, if_neg taken]
    change (checkRecipients _ _ _ _ >>= _) = Except.map _ (checkRecipients _ _ _ _ >>= _)
    cases checkRecipients commit.window.line commit.window.windowIndex [] commit.recipients with
    | error e => rfl
    | ok _ =>
        change (commit.deposits.mapM _ >>= _) = Except.map _ (commit.deposits.mapM _ >>= _)
        change (commit.deposits.mapM (ledger.assigned commit.kind commit.window.windowIndex) >>=
          _) = _
        cases commit.deposits.mapM (ledger.assigned commit.kind commit.window.windowIndex) with
        | error e => rfl
        | ok deposits => rfl

theorem commit_withJob (commit : WindowCommit) (job : Job) :
    (ledger.withJob job).commit commit = (ledger.commit commit).map (·.withJob job) := by
  refine (commit_jobs commit _).trans ?_
  cases committed : ledger.commit commit with
  | error e => rfl
  | ok written =>
      rw [eq_of_commit committed]
      rfl

end BridgeRewards.Ledger
