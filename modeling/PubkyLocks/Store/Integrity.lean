/-
  The integrity of the tables along every run.
-/
import PubkyLocks.Store.System

namespace PubkyLocks

open Deletion TaskRow Table Database

/-! ## Soundness -/

/-- The tables of a reachable database: task ids, job ids and locks of jobs are
    unique, tasks pass the CHECKs and belong to the creator of their lock, only
    tasks of the version-1 lane await an invoice or carry a Paykit proof, a frozen
    task was frozen by the job of its lock, and the obligations frozen for Paykit
    are tasks of the version-1 lane. -/
structure Database.Sound (db : Database) : Prop where
  taskIds : (db.tasks.map TaskRow.taskId).Nodup
  jobIds : (db.jobs.map DeletionJob.jobId).Nodup
  jobLocks : (db.jobs.map fun j => (j.creator, j.lockId)).Nodup
  checks : ∀ r ∈ db.tasks, r.checks
  creator : ∀ r ∈ db.tasks, r.resource.creator = r.creator
  phase : ∀ r ∈ db.tasks, r.invoiceAdmissionPhase = .invoicePending → r.lane = .v1
  proof : ∀ r ∈ db.tasks, r.hasPaykitProof → r.lane = .v1
  job : ∀ r ∈ db.tasks, ∀ id, r.deletionJobId = some id →
    ∃ j ∈ db.jobs, j.jobId = id ∧ j.creator = r.creator ∧ j.lockId = r.resource.lockId
  paykit : ∀ s ∈ db.snapshots, s.paykitAdmissionRequired →
    ∃ r ∈ db.tasks, r.taskId = s.verificationTaskId ∧ r.lane = .v1

theorem Database.sound_empty : empty.Sound where
  taskIds := List.nodup_nil
  jobIds := List.nodup_nil
  jobLocks := List.nodup_nil
  checks := List.forall_mem_nil _
  creator := List.forall_mem_nil _
  phase := List.forall_mem_nil _
  proof := List.forall_mem_nil _
  job := List.forall_mem_nil _
  paykit := List.forall_mem_nil _

theorem TaskRow.stateCheck_of_checks {r : TaskRow} (h : r.checks) : r.stateCheck := by
  simp only [checks, Bool.and_eq_true] at h
  exact h.1.1

namespace Database

variable {db : Database}

variable {j k : DeletionJob} {r : TaskRow}

theorem job?_eq_some {id : Uuid} (h : db.job? id = some j) : j ∈ db.jobs ∧ j.jobId = id :=
  ⟨List.mem_of_find?_eq_some h, by simpa using List.find?_some h⟩

theorem ownedJob?_eq_some {l : JobLease} {now : Timestamp} (h : db.ownedJob? l now = some j) :
    j ∈ db.jobs ∧ j.jobId = l.jobId ∧ j.state = .running := by
  obtain ⟨hj, hown⟩ := Option.filter_eq_some_iff.1 h
  obtain ⟨hmem, hid⟩ := job?_eq_some hj
  simp only [DeletionJob.owned, Bool.and_eq_true, beq_iff_eq] at hown
  exact ⟨hmem, hid, hown.1.1.1⟩

theorem running_of_drainClaim {worker : String} {token : Uuid} {now : Timestamp}
    {phase : ContentLockDeletionPhase} (h : j.ownsLiveDrainClaim worker token now phase) :
    j.state = .running ∧ j.phase = phase ∧ j.forceRequestedAt = none := by
  simp only [DeletionJob.ownsLiveDrainClaim, DeletionJob.owned, Bool.and_eq_true, beq_iff_eq,
    Option.isNone_iff_eq_none] at h
  exact ⟨h.1.1.1.1.1, h.1.2, h.2⟩

theorem Sound.eq_of_jobId (hs : db.Sound) (hj : j ∈ db.jobs) (hk : k ∈ db.jobs)
    (h : j.jobId = k.jobId) : j = k :=
  List.inj_on_of_nodup_map hs.jobIds hj hk h

theorem Sound.eq_of_lock (hs : db.Sound) (hj : j ∈ db.jobs)
    (hk : k ∈ db.jobs) (hc : j.creator = k.creator) (hl : j.lockId = k.lockId) : j = k :=
  List.inj_on_of_nodup_map hs.jobLocks hj hk (by simp only [hc, hl])

theorem Sound.lane_of_unresolved (hs : db.Sound) {jobId : Uuid} (hr : r ∈ db.tasks)
    (h : db.unresolved jobId true r.taskId) : r.lane = .v1 := by
  obtain ⟨s, hmem, hs'⟩ := List.any_eq_true.1 h
  simp only [Bool.and_eq_true, beq_iff_eq] at hs'
  obtain ⟨q, hq, hid, hlane⟩ := hs.paykit s hmem hs'.1.2
  rw [List.inj_on_of_nodup_map hs.taskIds hr hq (hs'.1.1.2.symm.trans hid.symm)]
  exact hlane

theorem Sound.job_of_frozen (hs : db.Sound) (hr : r ∈ db.tasks)
    (hj : j ∈ db.jobs) (h : r.deletionJobId = some j.jobId) :
    j.creator = r.creator ∧ j.lockId = r.resource.lockId := by
  obtain ⟨k, hk, hid, hc, hl⟩ := hs.job r hr _ h
  rw [hs.eq_of_jobId hj hk hid.symm]
  exact ⟨hc, hl⟩

end Database

/-! ## Effects -/

/-- An update of jobs keeps their keys and touches no terminal job of a lock
    with a receipt. -/
structure JobUpdate (db : Database) (p : DeletionJob → Bool) (f : DeletionJob → DeletionJob) :
    Prop where
  id : ∀ j, (f j).jobId = j.jobId
  creator : ∀ j, (f j).creator = j.creator
  lockId : ∀ j, (f j).lockId = j.lockId
  may : ∀ j ∈ db.jobs, p j → ¬ j.state.isTerminal ∨ ¬ db.hasReceipt j.creator j.lockId

/-- A snapshot row is resolved once at most, and otherwise stays as it is. -/
structure TaskSnapshotRow.Kept (old new : TaskSnapshotRow) : Prop where
  job : new.deletionJobId = old.deletionJobId
  task : new.verificationTaskId = old.verificationTaskId
  cutoff : new.statusAtCutoff = old.statusAtCutoff
  paykit : new.paykitAdmissionRequired = old.paykitAdmissionRequired
  resolved : old.resolvedStatus.isSome → new.resolvedStatus = old.resolvedStatus

theorem TaskSnapshotRow.Kept.refl (s : TaskSnapshotRow) : s.Kept s :=
  ⟨rfl, rfl, rfl, rfl, fun _ => rfl⟩

def SnapshotsKept (old new : List TaskSnapshotRow) : Prop :=
  List.Forall₂ TaskSnapshotRow.Kept old new

theorem SnapshotsKept.refl (l : List TaskSnapshotRow) : SnapshotsKept l l :=
  List.forall₂_same.2 fun s _ => .refl s

theorem SnapshotsKept.exists_old {old new : List TaskSnapshotRow} (h : SnapshotsKept old new)
    {s : TaskSnapshotRow} (hs : s ∈ new) : ∃ t ∈ old, t.Kept s :=
  exists_of_forall₂ h.flip hs

theorem snapshotsKept_updateWhere {p : TaskSnapshotRow → Bool}
    {f : TaskSnapshotRow → TaskSnapshotRow} (l : List TaskSnapshotRow)
    (hf : ∀ s, p s → s.Kept (f s)) : SnapshotsKept l (updateWhere p f l) :=
  forall₂_updateWhere (fun s _ hp => hf s hp) fun s _ _ => .refl s

inductive Effect (db : Database) : Operation → Database → Prop
  | admitted (a : Admission) (r : TaskRow) (attempts : List FoldedAuthAttempt) :
      Admitted db r → a.Targets r →
      Effect db (.admission a) { db with tasks := r :: db.tasks, attempts }
  | attempts (op : Operation) (attempts : List FoldedAuthAttempt) :
      Effect db op { db with attempts }
  | intents (op : Operation) (intents : List IntentKey) :
      (∀ i ∈ intents, i ∈ db.intents ∨ op = .beginPublication i.creator i.lockId ∧
        db.deletionCutoff i.creator i.lockId = false) →
      Effect db op { db with intents }
  | statement (st : TaskStatement) (snapshots : List TaskSnapshotRow) :
      st.standsAlone → SnapshotsKept db.snapshots snapshots →
      (∀ r ∈ db.tasks, (st.update db).guard r → ((st.update db).set r).checks) →
      Effect db (.statement st)
        { db with tasks := updateWhere (st.update db).guard (st.update db).set db.tasks,
                  snapshots }
  | jobInserted (job : DeletionJob) (seen : TaskId → VerificationTaskStatus)
      (admissionCutoff : Timestamp) :
      (∀ k ∈ db.jobs, k.jobId ≠ job.jobId ∧ ¬ (k.creator = job.creator ∧ k.lockId = job.lockId)) →
      ¬ db.hasReceipt job.creator job.lockId →
      (∀ r ∈ db.tasks, ofLock job.creator job.lockId r →
        ¬ inPublication r ∧
          ((freeze job.jobId job.creator job.lockId).set r).checks) →
      Effect db (.insertJob job seen admissionCutoff)
        { db with jobs := job.stored admissionCutoff :: db.jobs
                  snapshots := (db.tasks.filter (ofLock job.creator job.lockId)).map
                    (snapshotOf job.jobId seen) ++ db.snapshots
                  tasks := updateWhere (ofLock job.creator job.lockId)
                    (freeze job.jobId job.creator job.lockId).set db.tasks }
  | jobsUpdated (op : Operation) (p : DeletionJob → Bool) (f : DeletionJob → DeletionJob)
      (snapshots : List TaskSnapshotRow) : JobUpdate db p f →
      SnapshotsKept db.snapshots snapshots →
      Effect db op { db with jobs := updateWhere p f db.jobs, snapshots }
  | expired (l : JobLease) (now : Timestamp) (snapshots : List TaskSnapshotRow) :
      TaskStatement.mayExpire db l now → SnapshotsKept db.snapshots snapshots →
      (∀ r ∈ db.tasks, (expireUnresolved db l.jobId now).guard r →
        ((expireUnresolved db l.jobId now).set r).checks) →
      Effect db (.expireUnresolvedTasks l now)
        { db with tasks := updateWhere (expireUnresolved db l.jobId now).guard
                    (expireUnresolved db l.jobId now).set db.tasks,
                  snapshots }
  | receiptsUpdated (op : Operation) (p : ForceReceipt → Bool) (f : ForceReceipt → ForceReceipt) :
      (∀ x, (f x).creator = x.creator ∧ (f x).lockId = x.lockId) →
      Effect db op { db with receipts := updateWhere p f db.receipts }
  | receiptWritten (c : CreatorPubky) (l : LockId) (manifest frozen : Option ContentLock)
      (now : Timestamp) : forcePreparation db c l manifest = .receipt frozen →
      Effect db (.prepareForceDeletion c l manifest now)
        { db with receipts := ⟨c, l, now, frozen, none⟩ :: db.receipts }
  | forceCompleted (l : JobLease) (now : Timestamp) (job : DeletionJob) (receipt : ForceReceipt) :
      job ∈ db.jobs → job.jobId = l.jobId → job.state = .running →
      receipt.creator = job.creator ∧ receipt.lockId = job.lockId →
      Effect db (.completeForceDeletion l now)
        ({ db with receipts := receipt :: db.receipts }.deleteJob l.jobId)

variable {db db' : Database}

variable {op : Operation} {p : TaskRow → Bool} {f : DeletionJob → DeletionJob} {j job : DeletionJob}
  {c : CreatorPubky} {l : LockId} {now : Timestamp} {st : TaskStatement}
  {snapshots : List TaskSnapshotRow} {E : Externals} {ok : Bool} {m : Option ContentLock}
  {r : TaskRow}

theorem Effect.jobs {p : DeletionJob → Bool}
    (hu : JobUpdate db p f) : Effect db op { db with jobs := updateWhere p f db.jobs } :=
  .jobsUpdated op p f db.snapshots hu (.refl _)

theorem jobUpdate_of_id (hs : db.Sound) {id : Uuid} (hj : j ∈ db.jobs)
    (hid : j.jobId = id) (hstate : ¬ j.state.isTerminal)
    (hf : ∀ j, (f j).jobId = j.jobId ∧ (f j).creator = j.creator ∧ (f j).lockId = j.lockId) :
    JobUpdate db (·.jobId == id) f where
  id := fun k => (hf k).1
  creator := fun k => (hf k).2.1
  lockId := fun k => (hf k).2.2
  may := by
    intro k hk hp
    have he : k = j := hs.eq_of_jobId hk hj ((beq_iff_eq.1 hp).trans hid.symm)
    rw [he]
    exact .inl hstate

theorem jobUpdate_of_lock (hr : ¬ db.hasReceipt c l)
    (hf : ∀ j, (f j).jobId = j.jobId ∧ (f j).creator = j.creator ∧ (f j).lockId = j.lockId) :
    JobUpdate db (fun j => j.creator == c && j.lockId == l) f where
  id := fun k => (hf k).1
  creator := fun k => (hf k).2.1
  lockId := fun k => (hf k).2.2
  may := by
    intro k _ hp
    simp only [Bool.and_eq_true, beq_iff_eq] at hp
    rw [hp.1, hp.2]
    exact .inr hr

theorem not_terminal_of_claimable (h : j.claimable now) : ¬ j.state.isTerminal := by
  simp only [DeletionJob.claimable, Bool.or_eq_true, Bool.and_eq_true, beq_iff_eq] at h
  rcases h with ⟨h, -⟩ | ⟨h, -⟩ <;> rw [h] <;> decide

theorem jobUpdate_of_owned (hs : db.Sound) {l : JobLease} (h : db.ownedJob? l now = some j)
    (hf : ∀ j, (f j).jobId = j.jobId ∧ (f j).creator = j.creator ∧ (f j).lockId = j.lockId) :
    JobUpdate db (·.jobId == l.jobId) f := by
  obtain ⟨hj, hid, hrun⟩ := ownedJob?_eq_some h
  exact jobUpdate_of_id hs hj hid (by rw [hrun]; decide) hf

theorem snapshotsKept_of_statement
    (h : st.snapshotsAfter db = some snapshots) : SnapshotsKept db.snapshots snapshots := by
  have hresolve : ∀ {jobId id status},
      resolveSnapshot db.snapshots jobId id status = some snapshots →
      SnapshotsKept db.snapshots snapshots := by
    intro jobId id status h
    simp only [resolveSnapshot] at h
    split at h
    · cases h
      refine snapshotsKept_updateWhere _ fun s hs => ⟨rfl, rfl, rfl, rfl, fun hres => ?_⟩
      simp only [Bool.and_eq_true] at hs
      exact absurd hres (by simp [Option.isNone_iff_eq_none.1 hs.2])
    · cases h
  unfold TaskStatement.snapshotsAfter at h
  split at h
  · exact hresolve h
  · exact hresolve h
  · split at h
    · exact hresolve h
    · cases h
      exact .refl _
  · cases h
    exact .refl _

theorem effect_of_statement (h : st.run db = some db') : Effect db (.statement st) db' := by
  simp only [TaskStatement.run] at h
  split at h
  · rename_i hc
    rw [Bool.and_eq_true] at hc
    split at h
    · rename_i snapshots db₁ hsnap hu
      obtain ⟨hchecks, rfl⟩ := updateTasks_eq_some.1 hu
      cases h
      exact .statement st snapshots hc.1 (snapshotsKept_of_statement hsnap) hchecks
    · cases h
  · cases h

theorem effect_of_insertJob {seen : TaskId → VerificationTaskStatus} {t : Timestamp}
    (h : insertJob E db job seen t = some db') :
    Effect db (.insertJob job seen t) db' := by
  unfold insertJob at h
  split at h
  · rename_i hc
    simp only [Bool.and_eq_true, Bool.not_eq_true'] at hc
    obtain ⟨⟨⟨⟨-, hpub⟩, -⟩, hrec⟩, hkey⟩ := hc
    obtain ⟨hchecks, rfl⟩ := updateTasks_eq_some.1 h
    refine .jobInserted job seen t ?_ (by simp [hrec]) ?_
    · intro k hk
      have hk := List.all_eq_true.1 hkey k hk
      simp only [Bool.and_eq_true, bne_iff_ne, Bool.not_eq_true', Bool.and_eq_false_iff,
        beq_eq_false_iff_ne] at hk
      exact ⟨hk.1, by have := hk.2; tauto⟩
    · intro r hr hl
      refine ⟨fun hp => ?_, hchecks r hr hl⟩
      have hnone := List.any_eq_false.1 hpub r hr
      rw [hl, hp] at hnone
      exact hnone rfl
  · cases h

theorem effect_of_advancePhase (hs : db.Sound) {l : JobLease} {next : ContentLockDeletionPhase}
    (h : advancePhase db l next ok now = some db') :
    Effect db (.advancePhase l next ok now) db' := by
  unfold advancePhase at h
  split at h
  · cases h
  · rename_i job hjob
    split at h
    · cases h
    · split at h
      · cases h
      · split at h
        · cases h
        · cases h
          refine .jobsUpdated _ _ _ _ (jobUpdate_of_owned hs hjob fun _ => ⟨rfl, rfl, rfl⟩) ?_
          split
          · refine snapshotsKept_updateWhere _ fun s _ => ⟨rfl, rfl, rfl, rfl, fun hres => ?_⟩
            obtain ⟨status, hstatus⟩ := Option.isSome_iff_exists.1 hres
            simp [statusResolvedAtCutoff, hstatus]
          · exact .refl _

theorem effect_of_finish (hs : db.Sound) {l : JobLease}
    {code : Option ContentLockDeletionFailureCode}
    (h : finish db l code ok now = some db') : Effect db (.finish l code ok now) db' := by
  unfold finish at h
  split at h
  · cases h
  · rename_i job hjob
    split at h
    · cases h
    · cases h
      exact .jobs (jobUpdate_of_owned hs hjob fun _ => ⟨rfl, rfl, rfl⟩)

theorem forcePreparation_no_receipt {p : ForcePreparation} (h : forcePreparation db c l m = p)
    (hk : p ≠ .known) (hp : p ≠ .publicationInProgress) : ¬ db.hasReceipt c l := by
  intro hr
  rw [forcePreparation, if_pos hr] at h
  split at h
  · exact hp h.symm
  · exact hk h.symm

theorem effect_of_prepareForceDeletion (h : prepareForceDeletion db c l m now = some db') :
    Effect db (.prepareForceDeletion c l m now) db' := by
  unfold prepareForceDeletion forcePrepared at h
  split at h
  · cases h
  · cases h
    refine .receiptsUpdated _ _ _ fun x => ?_
    unfold fillManifest
    split <;> exact ⟨rfl, rfl⟩
  · rename_i hp
    cases h
    exact .jobs (jobUpdate_of_lock
      (forcePreparation_no_receipt hp (by simp) (by simp)) fun _ => ⟨rfl, rfl, rfl⟩)
  · rename_i hp
    cases h
    exact .jobs (jobUpdate_of_lock
      (forcePreparation_no_receipt hp (by simp) (by simp)) fun _ => ⟨rfl, rfl, rfl⟩)
  · rename_i frozen hp
    cases h
    exact .receiptWritten c l m frozen now hp

theorem effect_of_completeForceDeletion {l : JobLease}
    (h : completeForceDeletion db l now = some db') :
    Effect db (.completeForceDeletion l now) db' := by
  unfold completeForceDeletion at h
  split at h
  · cases h
  · rename_i job hjob
    obtain ⟨hmem, hid, hrun⟩ := ownedJob?_eq_some hjob
    split at h
    · cases h
    · split at h
      · cases h
      · cases h
        exact .forceCompleted l now job _ hmem hid hrun ⟨rfl, rfl⟩

/-- **Effects.**  On sound tables a transaction does what `Effect` allows. -/
theorem effect_of_run (hs : db.Sound) (h : op.run E db = some db') : Effect db op db' := by
  cases op with
  | admission a =>
    rcases Admission.run_spec h with ⟨r, hr, htargets, attempts, rfl⟩ | ⟨attempts, rfl⟩
    · exact .admitted a r attempts hr htargets
    · exact .attempts _ attempts
  | statement st => exact effect_of_statement h
  | attempt st =>
    obtain ⟨attempts, -, rfl⟩ := Option.map_eq_some_iff.1 h
    exact .attempts _ attempts
  | beginPublication c l =>
    simp only [Operation.run] at h
    split at h
    · cases h
    · rename_i hc
      simp only [Bool.or_eq_true, not_or, Bool.not_eq_true] at hc
      cases h
      exact .intents _ _ (List.forall_mem_cons.2 ⟨.inr ⟨rfl, hc.1⟩, fun i hi => .inl hi⟩)
  | endPublication c l =>
    cases h
    exact .intents _ _ fun i hi => .inl (List.mem_of_mem_filter hi)
  | insertJob job seen t => exact effect_of_insertJob h
  | claimNextJob l ttl now =>
    simp only [Operation.run, claimNextJob] at h
    split at h
    · rename_i hc
      obtain ⟨j, hj, hclaim⟩ := (Option.any_eq_true _ _).1 hc
      obtain ⟨hmem, hid⟩ := job?_eq_some hj
      cases h
      exact .jobs (jobUpdate_of_id hs hmem hid
        (not_terminal_of_claimable hclaim) fun _ => ⟨rfl, rfl, rfl⟩)
    · cases h
  | scheduleJobRetry l d now =>
    simp only [Operation.run, scheduleJobRetry] at h
    split at h
    · rename_i hc
      obtain ⟨j, hj⟩ := Option.isSome_iff_exists.1 hc
      cases h
      exact .jobs (jobUpdate_of_owned hs hj fun _ => ⟨rfl, rfl, rfl⟩)
    · cases h
  | deferJob l d now =>
    simp only [Operation.run, deferJob] at h
    split at h
    · rename_i hc
      obtain ⟨j, hj⟩ := Option.isSome_iff_exists.1 hc
      cases h
      exact .jobs (jobUpdate_of_owned hs hj fun _ => ⟨rfl, rfl, rfl⟩)
    · cases h
  | advancePhase l next ok now => exact effect_of_advancePhase hs h
  | finish l code ok now => exact effect_of_finish hs h
  | failGracefulWithdrawal id code =>
    simp only [Operation.run, failGracefulWithdrawal] at h
    split at h
    · rename_i hc
      obtain ⟨j, hj, hfail⟩ := (Option.any_eq_true _ _).1 hc
      obtain ⟨hmem, hid⟩ := job?_eq_some hj
      simp only [Bool.and_eq_true, Bool.not_eq_true'] at hfail
      cases h
      exact .jobs (jobUpdate_of_id hs hmem hid
        (by simp [hfail.1.1]) fun _ => ⟨rfl, rfl, rfl⟩)
    · cases h
  | resumeFailedJob c l =>
    simp only [Operation.run, resumeFailedJob] at h
    split at h
    · rename_i hc
      simp only [Bool.and_eq_true, Bool.not_eq_true'] at hc
      cases h
      exact .jobs (jobUpdate_of_lock (by simp [hc.1])
        fun _ => ⟨rfl, rfl, rfl⟩)
    · cases h
  | expireUnresolvedTasks l now =>
    simp only [Operation.run, expireUnresolvedTasks] at h
    split at h
    · rename_i hmay
      obtain ⟨db₁, hu, rfl⟩ := Option.map_eq_some_iff.1 h
      obtain ⟨hchecks, rfl⟩ := updateTasks_eq_some.1 hu
      refine .expired l now _ hmay (snapshotsKept_updateWhere _ fun s hs => ?_) hchecks
      refine ⟨rfl, rfl, rfl, rfl, fun hres => ?_⟩
      simp only [Bool.and_eq_true] at hs
      exact absurd hres (by simp [Option.isNone_iff_eq_none.1 hs.2])
    · cases h
  | prepareForceDeletion c l m now => exact effect_of_prepareForceDeletion h
  | completeSynchronousForceDeletion c l t =>
    simp only [Operation.run, completeSynchronousForceDeletion] at h
    split at h
    · cases h
      exact .receiptsUpdated _ _ _ fun _ => ⟨rfl, rfl⟩
    · cases h
  | completeForceDeletion l now => exact effect_of_completeForceDeletion h

/-! ## Integrity along runs -/

theorem TaskRow.hasPaykitProof_of_identity {q : TaskRow} (h : q.identity = r.identity) :
    q.hasPaykitProof = r.hasPaykitProof := by
  unfold hasPaykitProof
  rw [submitted_of_identity h]

theorem paykit_updateWhere (hs : db.Sound) {f : TaskRow → TaskRow}
    (hid : ∀ r ∈ db.tasks, p r → (f r).identity = r.identity)
    (hkept : SnapshotsKept db.snapshots snapshots) :
    ∀ s ∈ snapshots, s.paykitAdmissionRequired →
      ∃ r ∈ updateWhere p f db.tasks, r.taskId = s.verificationTaskId ∧ r.lane = .v1 := by
  intro s hmem hp
  obtain ⟨t, ht, hkept⟩ := hkept.exists_old hmem
  obtain ⟨r, hr, hrid, hlane⟩ := hs.paykit t ht (hkept.paykit ▸ hp)
  have htask := hkept.task
  refine ⟨if p r then f r else r, List.mem_map.2 ⟨r, hr, rfl⟩, ?_⟩
  split
  · rename_i hpr
    have hid := hid r hr hpr
    exact ⟨(taskId_of_identity hid).trans (hrid.trans htask.symm),
      (lane_of_identity hid).trans hlane⟩
  · exact ⟨hrid.trans htask.symm, hlane⟩

theorem taskIds_updateWhere (hs : db.Sound) {f : TaskRow → TaskRow}
    (hid : ∀ r ∈ db.tasks, p r → (f r).identity = r.identity) :
    ((updateWhere p f db.tasks).map TaskRow.taskId).Nodup := by
  rw [map_updateWhere fun r hr hp => taskId_of_identity (hid r hr hp)]
  exact hs.taskIds

theorem proof_updateWhere (hs : db.Sound) {f : TaskRow → TaskRow}
    (hid : ∀ r ∈ db.tasks, p r → (f r).identity = r.identity) :
    ∀ r ∈ updateWhere p f db.tasks, r.hasPaykitProof → r.lane = .v1 := by
  refine forall_mem_updateWhere hs.proof (fun r hr hp hg => ?_) fun _ _ hp _ => hp
  rw [hasPaykitProof_of_identity (hid r hr hg), lane_of_identity (hid r hr hg)]
  exact hp

theorem sound_updateTasks (hs : db.Sound) {u : TaskUpdate}
    (hkept : SnapshotsKept db.snapshots snapshots)
    (hchecks : ∀ r ∈ db.tasks, u.guard r → (u.set r).checks)
    (hframe : ∀ r ∈ db.tasks, u.guard r → u.Frame r) :
    Sound { db with tasks := updateWhere u.guard u.set db.tasks, snapshots } where
  taskIds := taskIds_updateWhere hs fun r hr hg => (hframe r hr hg).identity
  jobIds := hs.jobIds
  jobLocks := hs.jobLocks
  checks := forall_mem_updateWhere hs.checks (fun r hr _ hg => hchecks r hr hg)
    fun _ _ hc _ => hc
  creator := by
    refine forall_mem_updateWhere hs.creator (fun r hr hc hg => ?_) fun _ _ hc _ => hc
    have hid := (hframe r hr hg).identity
    rw [resource_of_identity hid, creator_of_identity hid]
    exact hc
  phase := by
    refine forall_mem_updateWhere hs.phase (fun r hr hp hg hpending => ?_) fun _ _ hp _ => hp
    have hf := hframe r hr hg
    rw [lane_of_identity hf.identity]
    refine hp ?_
    by_contra hne
    exact hne ((hf.phase hne).symm.trans hpending)
  proof := proof_updateWhere hs fun r hr hg => (hframe r hr hg).identity
  paykit := paykit_updateWhere hs (fun r hr hg => (hframe r hr hg).identity) hkept
  job := by
    refine forall_mem_updateWhere hs.job (fun r hr hj hg => ?_) fun _ _ hj _ => hj
    have hf := hframe r hr hg
    rw [hf.job, resource_of_identity hf.identity, creator_of_identity hf.identity]
    exact hj

theorem Database.ofLock_iff : ofLock c l r ↔ r.creator = c ∧ r.resource = .of c l := by
  simp only [ofLock, Bool.and_eq_true, beq_iff_eq]

theorem sound_jobInserted (hs : db.Sound)
    (seen : TaskId → VerificationTaskStatus) (admissionCutoff : Timestamp)
    (hkey : ∀ k ∈ db.jobs, k.jobId ≠ job.jobId ∧
      ¬ (k.creator = job.creator ∧ k.lockId = job.lockId))
    (hchecks : ∀ r ∈ db.tasks, ofLock job.creator job.lockId r →
      ¬ inPublication r ∧
        ((freeze job.jobId job.creator job.lockId).set r).checks) :
    Sound
      { db with jobs := job.stored admissionCutoff :: db.jobs
                snapshots := (db.tasks.filter (ofLock job.creator job.lockId)).map
                  (snapshotOf job.jobId seen) ++ db.snapshots
                tasks := updateWhere (ofLock job.creator job.lockId)
                  (freeze job.jobId job.creator job.lockId).set db.tasks } where
  taskIds := taskIds_updateWhere hs fun _ _ _ => rfl
  proof := proof_updateWhere hs fun _ _ _ => rfl
  paykit := by
    intro s hmem hp
    rcases List.mem_append.1 hmem with hmem | hmem
    · -- a new obligation is frozen for Paykit if the task has a Paykit proof
      obtain ⟨r, hr, rfl⟩ := List.mem_map.1 hmem
      obtain ⟨hr, hof⟩ := List.mem_filter.1 hr
      exact ⟨_, List.mem_map.2 ⟨r, hr, if_pos hof⟩, rfl, hs.proof r hr hp⟩
    · refine paykit_updateWhere hs ?_ (.refl _) s hmem hp
      exact fun _ _ _ => rfl
  jobIds := by
    refine List.nodup_cons.2 ⟨?_, hs.jobIds⟩
    rintro hmem
    obtain ⟨k, hk, hid⟩ := List.mem_map.1 hmem
    exact (hkey k hk).1 hid
  jobLocks := by
    refine List.nodup_cons.2 ⟨?_, hs.jobLocks⟩
    rintro hmem
    obtain ⟨k, hk, hid⟩ := List.mem_map.1 hmem
    exact (hkey k hk).2 (Prod.mk.injEq .. ▸ hid)
  checks := forall_mem_updateWhere hs.checks (fun r hr _ hg => (hchecks r hr hg).2)
    fun _ _ hc _ => hc
  creator := forall_mem_updateWhere hs.creator (fun _ _ hc _ => hc) fun _ _ hc _ => hc
  phase := forall_mem_updateWhere hs.phase (fun _ _ hp _ => hp) fun _ _ hp _ => hp
  job := by
    refine forall_mem_updateWhere hs.job (fun r _ _ hg => ?_) fun r _ hj _ => ?_
    · -- a frozen task names the new job, which is the job of its lock
      intro id hid
      obtain ⟨hc, hres⟩ := ofLock_iff.1 hg
      have hid : job.jobId = id := by simpa [freeze] using hid
      refine ⟨_, List.mem_cons_self, hid, hc.symm, ?_⟩
      show job.lockId = r.resource.lockId
      rw [hres]
      rfl
    · intro id hid
      obtain ⟨j, hj, h⟩ := hj id hid
      exact ⟨j, List.mem_cons_of_mem _ hj, h⟩

theorem sound_jobsUpdated (hs : db.Sound) {p : DeletionJob → Bool} (hu : JobUpdate db p f)
    (hkept : SnapshotsKept db.snapshots snapshots) :
    Sound { db with jobs := updateWhere p f db.jobs, snapshots } where
  taskIds := hs.taskIds
  proof := hs.proof
  paykit := by
    intro s hmem hp
    obtain ⟨t, ht, hkept⟩ := hkept.exists_old hmem
    rw [hkept.task]
    exact hs.paykit t ht (hkept.paykit ▸ hp)
  jobIds := by
    rw [map_updateWhere fun j _ _ => hu.id j]
    exact hs.jobIds
  jobLocks := by
    rw [map_updateWhere fun j _ _ => by rw [hu.creator, hu.lockId]]
    exact hs.jobLocks
  checks := hs.checks
  creator := hs.creator
  phase := hs.phase
  job := by
    intro r hr id hid
    obtain ⟨j, hj, hji, hjc, hjl⟩ := hs.job r hr id hid
    refine ⟨if p j then f j else j, List.mem_map.2 ⟨j, hj, rfl⟩, ?_⟩
    split
    · rw [hu.id, hu.creator, hu.lockId]
      exact ⟨hji, hjc, hjl⟩
    · exact ⟨hji, hjc, hjl⟩

theorem sound_deleteJob (hs : db.Sound) (id : Uuid) : (db.deleteJob id).Sound where
  taskIds := taskIds_updateWhere hs fun _ _ _ => rfl
  proof := proof_updateWhere hs fun _ _ _ => rfl
  paykit := by
    intro s hmem hp
    refine paykit_updateWhere hs ?_ (.refl _) s (List.mem_filter.1 hmem).1 hp
    exact fun _ _ _ => rfl
  jobIds := hs.jobIds.sublist (List.filter_sublist.map _)
  jobLocks := hs.jobLocks.sublist (List.filter_sublist.map _)
  checks := forall_mem_updateWhere hs.checks (fun _ _ hc _ => hc) fun _ _ hc _ => hc
  creator := forall_mem_updateWhere hs.creator (fun _ _ hc _ => hc) fun _ _ hc _ => hc
  phase := forall_mem_updateWhere hs.phase (fun _ _ hp _ => hp) fun _ _ hp _ => hp
  job := by
    refine forall_mem_updateWhere hs.job (fun r _ _ _ k hk => by cases hk) ?_
    intro r _ hj hp k hk
    obtain ⟨j, hmem, hji, h⟩ := hj k hk
    refine ⟨j, List.mem_filter.2 ⟨hmem, ?_⟩, hji, h⟩
    rw [hji]
    rw [hk] at hp
    simpa using hp

theorem lane_of_pristine (h : r.Pristine)
    (hp : r.invoiceAdmissionPhase = .invoicePending) : r.lane = .v1 := by
  unfold Pristine at h
  split at h
  · rename_i he
    simp [lane, he]
  · rw [h.1] at hp
    cases hp
  · rw [h.1] at hp
    cases hp

theorem proof_of_pristine (h : r.Pristine) (hp : r.hasPaykitProof) : r.lane = .v1 := by
  unfold Pristine at h
  split at h
  · rename_i he
    simp [lane, he]
  · rw [h.1] at hp
    cases hp
  · rw [h.1] at hp
    cases hp

/-- **Integrity.**  Every transaction keeps the tables sound. -/
theorem sound_of_effect (hs : db.Sound) (h : Effect db op db') : db'.Sound := by
  cases h with
  | admitted a r attempts hr _ =>
    exact
      { taskIds := by
          refine List.nodup_cons.2 ⟨fun hmem => ?_, hs.taskIds⟩
          obtain ⟨q, hq, hid⟩ := List.mem_map.1 hmem
          exact (hr.fresh q hq).1 hid
        proof := List.forall_mem_cons.2 ⟨proof_of_pristine hr.pristine, hs.proof⟩
        paykit := by
          intro s hmem hp
          obtain ⟨q, hq, h⟩ := hs.paykit s hmem hp
          exact ⟨q, List.mem_cons_of_mem _ hq, h⟩
        jobIds := hs.jobIds
        jobLocks := hs.jobLocks
        checks := List.forall_mem_cons.2 ⟨hr.checks, hs.checks⟩
        creator := List.forall_mem_cons.2 ⟨hr.creator, hs.creator⟩
        phase := List.forall_mem_cons.2 ⟨lane_of_pristine hr.pristine, hs.phase⟩
        job := List.forall_mem_cons.2
          ⟨fun id hid => (by rw [hr.unfrozen] at hid; cases hid), hs.job⟩ }
  | attempts op attempts => exact { hs with }
  | intents op intents _ => exact { hs with }
  | statement st snapshots hst hkept hchecks =>
    refine sound_updateTasks hs hkept hchecks fun r _ hg => update_frame db st ?_ hg
    rintro j c l rfl
    cases hst
  | jobInserted job seen t hkey _ hchecks => exact sound_jobInserted hs seen t hkey hchecks
  | jobsUpdated op p f snapshots hu hkept => exact sound_jobsUpdated hs hu hkept
  | expired l now snapshots _ hkept hchecks =>
    exact sound_updateTasks hs hkept hchecks fun r _ _ =>
      expireUnresolved_frame db l.jobId now r
  | receiptsUpdated op p f _ => exact { hs with }
  | receiptWritten c l m frozen now _ =>
    exact { hs with }
  | forceCompleted l now job receipt _ _ _ _ =>
    have hs' : Sound { db with receipts := receipt :: db.receipts } :=
      { hs with }
    exact sound_deleteJob hs' l.jobId

end PubkyLocks
