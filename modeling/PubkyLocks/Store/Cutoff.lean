/-
  The cutoff of a deletion: the job of a lock has frozen all of its tasks.

  `insert_job` and the admissions decide under the advisory lock of the content
  lock.  An admission that has passed the check of the cutoff commits before a
  job of its lock can read the tasks, and the rows a job has read are all tasks
  of the lock until it commits.
-/
import PubkyLocks.Store.Interleavings
import PubkyLocks.Store.Replays

namespace PubkyLocks

open Database Table TaskRow

open Transactions (State Event)

/-! ## Jobs and the tasks of their locks -/

/-- The tasks of the lock of a job carry its id and are its snapshot rows. -/
structure Database.Cutoff (db : Database) : Prop where
  frozen : ∀ j ∈ db.jobs, ∀ r ∈ db.tasks, Database.ofLock j.creator j.lockId r →
    r.deletionJobId = some j.jobId
  tasks : ∀ j ∈ db.jobs, ∀ r ∈ db.tasks, Database.ofLock j.creator j.lockId r →
    ∃ s ∈ db.snapshots, s.deletionJobId = j.jobId ∧ s.verificationTaskId = r.taskId
  rows : ∀ s ∈ db.snapshots, ∃ j ∈ db.jobs, j.jobId = s.deletionJobId ∧
    ∃ r ∈ db.tasks, Database.ofLock j.creator j.lockId r ∧ r.taskId = s.verificationTaskId

structure DeletionJob.SameKeys (j k : DeletionJob) : Prop where
  jobId : k.jobId = j.jobId
  creator : k.creator = j.creator
  lockId : k.lockId = j.lockId

/-- The identity of a row and the job that froze it are kept. -/
structure TaskRow.StaysFrozen (r q : TaskRow) : Prop where
  identity : q.identity = r.identity
  job : q.deletionJobId = r.deletionJobId

variable {db db' : Database} {op : Operation}

theorem Database.cutoff_empty : empty.Cutoff :=
  ⟨List.forall_mem_nil _, List.forall_mem_nil _,
    List.forall_mem_nil _⟩

theorem Database.Cutoff.kept (h : db.Cutoff)
    (htasks : List.Forall₂ TaskRow.StaysFrozen db.tasks db'.tasks)
    (hjobs : List.Forall₂ DeletionJob.SameKeys db.jobs db'.jobs)
    (hrows : SnapshotsKept db.snapshots db'.snapshots) : db'.Cutoff := by
  have hold : ∀ j' ∈ db'.jobs, ∀ r' ∈ db'.tasks, ofLock j'.creator j'.lockId r' →
      ∃ j ∈ db.jobs, ∃ r ∈ db.tasks, ofLock j.creator j.lockId r ∧ j.SameKeys j' ∧
        r.StaysFrozen r' := by
    intro j' hj' r' hr' hof
    obtain ⟨j, hj, hkeys⟩ := exists_of_forall₂ hjobs.flip hj'
    obtain ⟨r, hr, hstays⟩ := exists_of_forall₂ htasks.flip hr'
    rw [hkeys.creator, hkeys.lockId, ofLock_of_identity hstays.identity] at hof
    exact ⟨j, hj, r, hr, hof, hkeys, hstays⟩
  refine ⟨fun j' hj' r' hr' hof => ?_, fun j' hj' r' hr' hof => ?_, fun s' hs' => ?_⟩
  · obtain ⟨j, hj, r, hr, hof, hkeys, hstays⟩ := hold j' hj' r' hr' hof
    rw [hstays.job, hkeys.jobId]
    exact h.frozen j hj r hr hof
  · obtain ⟨j, hj, r, hr, hof, hkeys, hstays⟩ := hold j' hj' r' hr' hof
    obtain ⟨s, hs, hsj, hst⟩ := h.tasks j hj r hr hof
    obtain ⟨s', hs', hkept⟩ := exists_of_forall₂ hrows hs
    refine ⟨s', hs', ?_, ?_⟩
    · rw [hkept.job, hsj, hkeys.jobId]
    · rw [hkept.task, hst, taskId_of_identity hstays.identity]
  · obtain ⟨s, hs, hkept⟩ := hrows.exists_old hs'
    obtain ⟨j, hj, hsj, r, hr, hof, hst⟩ := h.rows s hs
    obtain ⟨j', hj', hkeys⟩ := exists_of_forall₂ hjobs hj
    obtain ⟨r', hr', hstays⟩ := exists_of_forall₂ htasks hr
    refine ⟨j', hj', ?_, r', hr', ?_, ?_⟩
    · rw [hkeys.jobId, hsj, hkept.job]
    · rw [hkeys.creator, hkeys.lockId, ofLock_of_identity hstays.identity]
      exact hof
    · rw [taskId_of_identity hstays.identity, hst, hkept.task]

theorem jobs_sameKeys (jobs : List DeletionJob) : List.Forall₂ DeletionJob.SameKeys jobs jobs :=
  List.forall₂_same.2 fun _ _ => ⟨rfl, rfl, rfl⟩

theorem tasks_stayFrozen (tasks : List TaskRow) : List.Forall₂ TaskRow.StaysFrozen tasks tasks :=
  List.forall₂_same.2 fun _ _ => ⟨rfl, rfl⟩

theorem cutoff_jobInserted (h : db.Cutoff) {job : DeletionJob}
    {seen : TaskId → VerificationTaskStatus} {t : Timestamp}
    (hkey : ∀ k ∈ db.jobs, k.jobId ≠ job.jobId ∧
      ¬ (k.creator = job.creator ∧ k.lockId = job.lockId)) :
    Cutoff
      { db with jobs := job.stored t :: db.jobs
                snapshots := (db.tasks.filter (ofLock job.creator job.lockId)).map
                  (Deletion.snapshotOf job.jobId seen) ++ db.snapshots
                tasks := Table.updateWhere (ofLock job.creator job.lockId)
                  (Deletion.freeze job.jobId job.creator job.lockId).set db.tasks } where
  frozen := by
    intro j hj
    refine forall_mem_updateWhere (P := fun r => r ∈ db.tasks) (fun r hr => hr)
      (fun r hr _ hof hofj => ?_) fun r hr _ hof hofj => ?_
    · -- a frozen row names the new job, whose lock is its own
      rcases List.mem_cons.1 hj with rfl | hj
      · rfl
      · obtain ⟨hc, hres⟩ := ofLock_iff.1 hof
        obtain ⟨hc', hres'⟩ := ofLock_iff.1 hofj
        refine absurd ⟨hc'.symm.trans hc, ?_⟩ (hkey j hj).2
        exact congrArg PubkyLockResource.lockId (hres'.symm.trans hres)
    · rcases List.mem_cons.1 hj with rfl | hj
      · exact absurd hofj (by simp [hof, DeletionJob.stored])
      · exact h.frozen j hj r hr hofj
  tasks := by
    intro j hj r hr hof
    obtain ⟨q, hq, hid⟩ : ∃ q ∈ db.tasks, r.identity = q.identity := by
      obtain ⟨q, hq, ⟨-, rfl⟩ | ⟨-, rfl⟩⟩ := mem_updateWhere.1 hr
      · exact ⟨q, hq, rfl⟩
      · exact ⟨r, hq, rfl⟩
    rw [ofLock_of_identity hid] at hof
    rw [taskId_of_identity hid]
    rcases List.mem_cons.1 hj with rfl | hj
    · refine ⟨_, List.mem_append_left _ (List.mem_map.2 ⟨q, List.mem_filter.2 ⟨hq, hof⟩, rfl⟩), ?_⟩
      exact ⟨rfl, rfl⟩
    · obtain ⟨s, hs, hsj, hst⟩ := h.tasks j hj q hq hof
      exact ⟨s, List.mem_append_right _ hs, hsj, hst⟩
  rows := by
    intro s hs
    have hrow : ∀ q ∈ db.tasks, ∃ r ∈ updateWhere (ofLock job.creator job.lockId)
        (Deletion.freeze job.jobId job.creator job.lockId).set db.tasks,
        r.identity = q.identity := by
      intro q hq
      refine ⟨_, List.mem_map.2 ⟨q, hq, rfl⟩, ?_⟩
      split <;> rfl
    rcases List.mem_append.1 hs with hs | hs
    · obtain ⟨q, hq, rfl⟩ := List.mem_map.1 hs
      obtain ⟨hq, hof⟩ := List.mem_filter.1 hq
      obtain ⟨r, hr, hid⟩ := hrow q hq
      refine ⟨_, List.mem_cons_self, rfl, r, hr, ?_, taskId_of_identity hid⟩
      exact (ofLock_of_identity hid).trans hof
    · obtain ⟨j, hj, hsj, q, hq, hof, hst⟩ := h.rows s hs
      obtain ⟨r, hr, hid⟩ := hrow q hq
      refine ⟨j, List.mem_cons_of_mem _ hj, hsj, r, hr, ?_,
        (taskId_of_identity hid).trans hst⟩
      exact (ofLock_of_identity hid).trans hof

theorem cutoff_deleteJob (h : db.Cutoff) (id : Uuid) : (db.deleteJob id).Cutoff where
  frozen := by
    intro j hj
    obtain ⟨hj, hne⟩ := List.mem_filter.1 hj
    rw [bne_iff_ne] at hne
    refine forall_mem_updateWhere (P := fun r => r ∈ db.tasks) (fun r hr => hr)
      (fun r hr _ hrel hof => ?_) fun r hr _ _ hof => h.frozen j hj r hr hof
    have hid := h.frozen j hj r hr hof
    rw [beq_iff_eq, hid, Option.some.injEq] at hrel
    exact absurd hrel hne
  tasks := by
    intro j hj r hr hof
    obtain ⟨hj, hne⟩ := List.mem_filter.1 hj
    rw [bne_iff_ne] at hne
    obtain ⟨q, hq, hid⟩ : ∃ q ∈ db.tasks, r.identity = q.identity := by
      obtain ⟨q, hq, ⟨-, rfl⟩ | ⟨-, rfl⟩⟩ := mem_updateWhere.1 hr
      · exact ⟨q, hq, rfl⟩
      · exact ⟨r, hq, rfl⟩
    rw [ofLock_of_identity hid] at hof
    obtain ⟨s, hmem, hsj, hst⟩ := h.tasks j hj q hq hof
    refine ⟨s, List.mem_filter.2 ⟨hmem, ?_⟩, hsj, hst.trans (taskId_of_identity hid).symm⟩
    rw [bne_iff_ne, hsj]
    exact hne
  rows := by
    intro s hmem
    obtain ⟨hmem, hne⟩ := List.mem_filter.1 hmem
    rw [bne_iff_ne] at hne
    obtain ⟨j, hj, hsj, q, hq, hof, hst⟩ := h.rows s hmem
    refine ⟨j, List.mem_filter.2 ⟨hj, by rw [bne_iff_ne, hsj]; exact hne⟩, hsj,
      if q.deletionJobId == some id then { q with deletionJobId := none } else q,
      List.mem_map.2 ⟨q, hq, rfl⟩, ?_⟩
    split <;> exact ⟨hof, hst⟩

/-- **The cutoff** is kept by every transaction. -/
theorem cutoff_of_effect (h : db.Cutoff) (heffect : Effect db op db') : db'.Cutoff := by
  cases heffect with
  | admitted a r attempts hr _ =>
    -- a job of the lock of the new task would have refused it
    have hnew : ∀ j ∈ db.jobs, ¬ ofLock j.creator j.lockId r := by
      intro j hj hof
      obtain ⟨hc, hres⟩ := ofLock_iff.1 hof
      refine (deletionCutoff_eq_false.1 hr.cutoff).1 j hj ⟨hc.symm, ?_⟩
      rw [hres]
      rfl
    refine ⟨fun j hj => List.forall_mem_cons.2 ⟨fun hof => absurd hof (hnew j hj), h.frozen j hj⟩,
      fun j hj => List.forall_mem_cons.2 ⟨fun hof => absurd hof (hnew j hj), h.tasks j hj⟩,
      fun s hs => ?_⟩
    obtain ⟨j, hj, hsj, q, hq, hof⟩ := h.rows s hs
    exact ⟨j, hj, hsj, q, List.mem_cons_of_mem _ hq, hof⟩
  | attempts op attempts => exact ⟨h.frozen, h.tasks, h.rows⟩
  | intents op intents _ => exact ⟨h.frozen, h.tasks, h.rows⟩
  | statement st snapshots hst hkept _ =>
    refine h.kept (forall₂_updateWhere (fun r _ hg => ?_) fun _ _ _ => ⟨rfl, rfl⟩)
      (jobs_sameKeys _) hkept
    have hframe := update_frame db st (by rintro j c l rfl; cases hst) hg
    exact ⟨hframe.identity, hframe.job⟩
  | jobInserted job seen t hkey _ _ => exact cutoff_jobInserted h hkey
  | jobsUpdated op p f snapshots hu hkept =>
    refine h.kept (tasks_stayFrozen _) (forall₂_updateWhere (fun j _ _ => ?_) fun _ _ _ =>
      ⟨rfl, rfl, rfl⟩) hkept
    exact ⟨hu.id j, hu.creator j, hu.lockId j⟩
  | expired l now snapshots _ hkept _ =>
    refine h.kept (forall₂_updateWhere (fun r _ _ => ?_) fun _ _ _ => ⟨rfl, rfl⟩)
      (jobs_sameKeys _) hkept
    have hframe := Deletion.expireUnresolved_frame db l.jobId now r
    exact ⟨hframe.identity, hframe.job⟩
  | receiptsUpdated op p f _ => exact ⟨h.frozen, h.tasks, h.rows⟩
  | receiptWritten c l m frozen now _ => exact ⟨h.frozen, h.tasks, h.rows⟩
  | forceCompleted l now job receipt _ _ _ _ =>
    have h' : Cutoff { db with receipts := receipt :: db.receipts } :=
      ⟨h.frozen, h.tasks, h.rows⟩
    exact cutoff_deleteJob h' l.jobId

theorem handlesUnique_of_effect (h : db.HandlesUnique) (heffect : Effect db op db') :
    db'.HandlesUnique := by
  rcases rows_of_effect heffect with hrows | ⟨a, q, -, hadm, htasks⟩
  · have hkeys : db'.tasks.map (fun r => (r.creator, r.bundleId)) =
        db.tasks.map fun r => (r.creator, r.bundleId) := by
      refine List.forall₂_eq_eq_eq ▸ List.forall₂_map_left_iff.2 (List.forall₂_map_right_iff.2 ?_)
      refine hrows.flip.imp fun q r hstep => ?_
      have hid := identity_of_rowStep hstep
      exact Prod.ext (creator_of_identity hid) (bundleId_of_identity hid)
    rw [HandlesUnique, hkeys]
    exact h
  · rw [HandlesUnique, htasks]
    refine List.nodup_cons.2 ⟨fun hmem => ?_, h⟩
    obtain ⟨r, hr, hkey⟩ := List.mem_map.1 hmem
    exact (hadm.fresh r hr).2 (Prod.mk.injEq .. ▸ hkey)

/-! ## Interleavings -/

/-- The committed tables of an interleaving: jobs have frozen the tasks of their
    locks, rows are readable and handles unique. -/
structure CutoffInvariant (E : Externals) (s : State Database Transaction) : Prop where
  consistent : Consistent E s
  cutoff : s.db.Cutoff
  readable : ∀ r ∈ s.db.tasks, r.Readable
  unique : s.db.HandlesUnique

variable {E : Externals} {s s' : State Database Transaction} {e : Event Transaction}

theorem cutoffInvariant_init : CutoffInvariant E ⟨.empty, []⟩ :=
  ⟨consistent_init, cutoff_empty, List.forall_mem_nil _, List.nodup_nil⟩

theorem readable_of_commit {db db' : Database} {t : Transaction} (hs : db.Sound)
    (hread : ∀ r ∈ db.tasks, r.Readable) (hr : t.Relies E (t.checks E).length db)
    (hw : t.write E db = some db') : ∀ q ∈ db'.tasks, q.Readable := by
  intro q hq
  rcases rowStep_of_effect (commit_effect hs hr hw) hq with ⟨r, hmem, hstep⟩ | ⟨a, hop, hadm⟩
  · exact readable_of_rowStep hs hmem (hread r hmem) hstep
  · -- only an admission admits, and its write inserts the row of its input
    cases t with
    | admission b =>
      cases hop
      have hspec := Admission.spec_of_kept fun k hk f hf => hr.passed hk hf
      have hnew : q ∉ db.tasks := fun hold => (hadm.fresh q hold).1 rfl
      rcases Admission.newRow_of_write hspec.1 hw with htasks | ⟨r, hrow, htasks⟩
      · exact absurd (htasks ▸ hq) hnew
      · rw [htasks, List.mem_cons] at hq
        rcases hq with rfl | hq
        · exact readable_of_newRow hrow hadm
        · exact absurd hq hnew
    | single op =>
      simp only [Transaction.write] at hw
      split at hw
      · rename_i hun
        cases hop
        cases hun
      · cases hw
    | _ => cases hop

/-- **One event** keeps the cutoff. -/
theorem cutoffInvariant_exec (h : CutoffInvariant E s)
    (hstep : Transactions.exec (Transaction.program E) s e = some s') : CutoffInvariant E s' := by
  obtain ⟨hcons, hdb | ⟨t, -, hr, hw, heffect⟩⟩ := consistent_exec h.consistent hstep
  · refine ⟨hcons, ?_, ?_, ?_⟩ <;> rw [hdb]
    · exact h.cutoff
    · exact h.readable
    · exact h.unique
  · exact ⟨hcons, cutoff_of_effect h.cutoff heffect,
      readable_of_commit h.consistent.sound h.readable hr hw,
      handlesUnique_of_effect h.unique heffect⟩

theorem cutoffInvariant_of_run {events : List (Event Transaction)}
    (h : Runs.Run (Runs.ofExec (Transactions.exec (Transaction.program E))) ⟨.empty, []⟩ events s) :
    CutoffInvariant E s :=
  h.invariant cutoffInvariant_init fun _ _ _ hi hstep => cutoffInvariant_exec hi hstep

theorem Admission.tasks_of_job {db db' : Database} {j : DeletionJob} (hj : j ∈ db.jobs)
    {a : Admission} (hc : a.creator = j.creator) (hl : a.lockId = j.lockId)
    (hrun : a.program.run db = some db') : a.checksCutoff = false ∧ db'.tasks = db.tasks := by
  have hcut : db.deletionCutoff a.creator a.lockId ≠ false := fun h =>
    (deletionCutoff_eq_false.1 h).1 j hj ⟨hc.symm, hl.symm⟩
  constructor
  · rw [← Bool.not_eq_true]
    intro hchecks
    obtain ⟨hall, -⟩ := Transactions.Program.run_eq_some.1 hrun
    exact hcut ((Admission.spec_of_checks hall).2 hchecks)
  · rcases Admission.run_spec hrun with ⟨r, hadm, htargets, -⟩ | ⟨attempts, rfl⟩
    · refine absurd ?_ hcut
      rw [← htargets.creator, ← htargets.lockId]
      exact hadm.cutoff
    · rfl

/-- **The cutoff is total.**  In every committed state of every interleaving, for
    every deletion job: the tasks of its lock are the tasks of its snapshot rows;
    each carries the id of the job and answers its exact replay; an admission for
    the lock inserts no task, and the four that insert a task directly are
    refused; and no event adds a task of the lock. -/
theorem cutoff_total {events : List (Event Transaction)}
    (h : Runs.Run (Runs.ofExec (Transactions.exec (Transaction.program E))) ⟨.empty, []⟩ events s)
    {j : DeletionJob} (hj : j ∈ s.db.jobs) :
    (∀ id, (∃ r ∈ s.db.tasks, r.resource = .of j.creator j.lockId ∧ r.taskId = id) ↔
      ∃ q ∈ s.db.snapshots, q.deletionJobId = j.jobId ∧ q.verificationTaskId = id) ∧
    (∀ r ∈ s.db.tasks, r.resource = .of j.creator j.lockId →
      r.deletionJobId = some j.jobId ∧ s.db.Replays r) ∧
    (∀ a : Admission, a.creator = j.creator → a.lockId = j.lockId →
      (a.checksCutoff → a.program.run s.db = none) ∧
        ∀ db', a.program.run s.db = some db' → db'.tasks = s.db.tasks) ∧
    ∀ e s', Transactions.exec (Transaction.program E) s e = some s' →
      ∀ r ∈ s'.db.tasks, r.resource = .of j.creator j.lockId →
        ∃ q ∈ s.db.tasks, q.taskId = r.taskId := by
  have hinv := cutoffInvariant_of_run h
  have hs := hinv.consistent.sound
  have hof : ∀ r ∈ s.db.tasks, r.resource = .of j.creator j.lockId →
      ofLock j.creator j.lockId r := by
    intro r hr hres
    refine ofLock_iff.2 ⟨?_, hres⟩
    rw [← hs.creator r hr, hres]
    rfl
  refine ⟨fun id => ⟨?_, ?_⟩, fun r hr hres => ⟨?_, ?_⟩, fun a hc hl => ⟨fun hchecks => ?_, ?_⟩, ?_⟩
  · rintro ⟨r, hr, hres, rfl⟩
    exact hinv.cutoff.tasks j hj r hr (hof r hr hres)
  · rintro ⟨q, hq, hqj, rfl⟩
    obtain ⟨k, hk, hid, r, hr, hofr, htask⟩ := hinv.cutoff.rows q hq
    rw [hs.eq_of_jobId hk hj (hid.trans hqj)] at hofr
    exact ⟨r, hr, (ofLock_iff.1 hofr).2, htask⟩
  · exact hinv.cutoff.frozen j hj r hr (hof r hr hres)
  · exact replays_of_readable hs hinv.unique hr (hinv.readable r hr)
  · cases hrun : a.program.run s.db with
    | none => rfl
    | some db' =>
      have hfalse := (Admission.tasks_of_job hj hc hl hrun).1
      rw [hchecks] at hfalse
      cases hfalse
  · exact fun db' hrun => (Admission.tasks_of_job hj hc hl hrun).2
  · intro e s' hstep r hr hres
    obtain ⟨-, hdb | ⟨t, -, -, -, heffect⟩⟩ := consistent_exec hinv.consistent hstep
    · exact ⟨r, hdb ▸ hr, rfl⟩
    · rcases rowStep_of_effect heffect hr with ⟨q, hq, hrow⟩ | ⟨a, -, hadm⟩
      · exact ⟨q, hq, (taskId_of_identity (identity_of_rowStep hrow)).symm⟩
      · -- a task that is admitted now is not of the lock of a job
        refine absurd ⟨?_, ?_⟩ ((deletionCutoff_eq_false.1 hadm.cutoff).1 j hj)
        · rw [← hadm.creator, hres]
          rfl
        · rw [hres]
          rfl

/-- A graph task is admitted, a job reads it into its snapshot, a worker claims
    it, and the job commits. -/
def claimedAtCutoff : List (Event Transaction) :=
  let lock := LockId.fromHash (.replicate 7)
  let task : GraphTaskRecord :=
    ⟨⟨⟨1⟩⟩, admittedGraphSnapshot, 0, .pending, none, none, none⟩
  let job : DeletionJob := ⟨⟨2⟩, ⟨"creator"⟩, lock, staticLock ⟨"creator"⟩, 0, .queued, .withdraw, 0,
    none, none, none, none, none, none⟩
  [.begin 1 (.admission (.insertGraphTask task)), .check 1, .check 1, .check 1, .check 1, .commit 1,
    .begin 2 (.insertJob job [⟨⟨2⟩, ⟨⟨1⟩⟩, .pending, false, none⟩] 0),
    .check 2, .check 2, .check 2, .check 2, .check 2,
    .begin 3 (.single (.statement (.graphClaim ⟨⟨⟨1⟩⟩, "worker", ⟨3⟩⟩ 0 (Duration.seconds 60) 0))),
    .commit 3, .commit 2]

/-- The job has frozen that task, and refuses the task of another bundle. -/
theorem claimed_at_cutoff : let E := Externals.constant (.replicate 7)
    let another : Admission := .insertGraphTask ⟨⟨⟨4⟩⟩,
      { admittedGraphSnapshot with bundleId := ⟨"another"⟩ }, 0, .pending, none, none, none⟩
    ∃ s j r, Runs.execList (Transactions.exec (Transaction.program E)) ⟨.empty, []⟩
        claimedAtCutoff = some s ∧ j ∈ s.db.jobs ∧ r ∈ s.db.tasks ∧
      r.deletionJobId = some j.jobId ∧ s.db.Replays r ∧
      (another.program).run s.db = none := by
  intro E another
  have h : (Runs.execList (Transactions.exec (Transaction.program E)) ⟨.empty, []⟩
    claimedAtCutoff).isSome := by decide +kernel
  have htotal := cutoff_total (Runs.run_of_execList _ (Option.some_get h).symm) List.mem_cons_self
  exact ⟨_, _, _, (Option.some_get h).symm, List.mem_cons_self, List.mem_cons_self,
    (htotal.2.1 _ List.mem_cons_self rfl).1, (htotal.2.1 _ List.mem_cons_self rfl).2,
    (htotal.2.2.1 _ rfl rfl).1 rfl⟩

end PubkyLocks
