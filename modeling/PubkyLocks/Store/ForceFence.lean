/-
  Force-deletion receipts and the lanes.

  A receipt is permanent, and only the payment lane looks at it.  The other
  lanes are stopped by the deletion job that froze a task, or by the end of the
  task.  So a receipt fences the tasks of its lock exactly as long as it is
  written when each of them is a payment task, is over, or is frozen and keeps
  the job that froze it.
-/
import PubkyLocks.Store.Integrity

namespace PubkyLocks

open TaskRow TaskStatement Database Payment

/-! ## Statements that advance a task -/

/-- The claims of the four lanes, the persists that begin a publication, and
    the completions. -/
def TaskStatement.advances : TaskStatement → Bool
  | v1Claim _ _ _ _ | invoiceClaim _ _ _ | graphClaim _ _ _ _ | paymentClaim _ _ _ _ => true
  | v1Persist _ _ (.publish _) _ | v1Persist _ _ (.complete _) _ => true
  | graphPersist _ _ next _ _ => next.root == .satisfied
  | paymentPersist _ _ _ _ _ => true
  | graphComplete _ _ _ _ | paymentComplete _ _ _ _ => true
  | drainBegin _ _ _ _ _ | drainComplete _ _ _ _ => true
  | _ => false

variable {r : TaskRow} {db : Database} {now : Timestamp}

/-- What stands between an advancing statement and a row it matches: the row is
    not frozen, its invoice is awaited, no receipt names its lock, or the job
    that froze it drains payments. -/
theorem advances_cases {db : Database} {st : TaskStatement} (hst : st.advances)
    (hg : (st.update db).guard r) :
    (r.deletionJobId = none ∧ r.lane ≠ .payment) ∨ r.invoiceAdmissionPhase = .invoicePending ∨
      Payment.receiptFence db r ∨ ∃ l now, db.drains l now ∧ r.deletionJobId = some l.jobId := by
  cases st with
  | v1Claim l now e dbNow =>
    simp only [update, V1.claimNext, Bool.and_eq_true, Option.isNone_iff_eq_none,
      isV1_iff] at hg
    exact .inl ⟨hg.1.1.2, by simp [hg.1.2]⟩
  | v1Persist l claimed c dbNow =>
    simp only [update] at hg
    split at hg
    · simp only [V1.persistTransition, Bool.and_eq_true, Option.isNone_iff_eq_none,
        isV1_iff] at hg
      exact .inl ⟨hg.1.2, by simp [hg.2]⟩
    · cases hg
  | invoiceClaim l ttl dbNow =>
    simp only [update, Invoice.claimNext, Bool.and_eq_true, Invoice.awaiting_iff] at hg
    exact .inr (.inl hg.1.1.2.1)
  | graphClaim l now e dbNow =>
    simp only [update, Graph.claimNext, Graph.fence, Bool.and_eq_true,
      Option.isNone_iff_eq_none] at hg
    obtain ⟨root, hroot, -⟩ := (Option.any_eq_true _ _).1 hg.2
    have hlane : r.lane = .graph := isGraph_iff.1 (by rw [isGraph, hroot]; rfl)
    exact .inl ⟨hg.1.2.1, by simp [hlane]⟩
  | graphPersist l n next k dbNow =>
    simp only [update, Graph.persist, Bool.and_eq_true, Graph.claimed_iff,
      Graph.fence, Option.isNone_iff_eq_none] at hg
    have hlane := Graph.lane_of_persistChecks hg.1.2
    exact .inl ⟨hg.1.1.2.2.2.2.1, by simp [hlane]⟩
  | graphComplete l n k dbNow =>
    simp only [update, Graph.complete, Graph.fence, Bool.and_eq_true,
      Option.isNone_iff_eq_none, isGraph_iff] at hg
    exact .inl ⟨hg.2.1, by simp [hg.1.1.1]⟩
  | paymentClaim l now e dbNow =>
    simp only [update, claimNext, fence, Bool.and_eq_true] at hg
    exact .inr (.inr (.inl hg.1.2.1))
  | paymentPersist l n input k dbNow =>
    simp only [update, TaskUpdate.ofRow] at hg
    split at hg
    · simp only [persist, Bool.and_eq_true, claimed_iff] at hg
      exact .inr (.inr (.inl hg.1.1.2.2.2.2))
    · cases hg
  | paymentComplete l n k dbNow =>
    simp only [update, complete, fence, Bool.and_eq_true] at hg
    exact .inr (.inr (.inl hg.2.1))
  | drainBegin l id e k now =>
    simp only [update, Drain.beginPublication, Bool.and_eq_true, beq_iff_eq] at hg
    exact .inr (.inr (.inr ⟨l, now, hg.1.1.1.2, hg.1.2⟩))
  | drainComplete l id k now =>
    simp only [update, Drain.persistCompleted, Bool.and_eq_true, beq_iff_eq] at hg
    exact .inr (.inr (.inr ⟨l, now, hg.1.1.1.1.1.2, hg.1.1.1.2⟩))
  | v1Retry _ _ _ _ | invoiceReady _ _ _ _ | invoiceRetry _ _ _ | invoiceFail _ _ _ => cases hst
  | graphRetry _ _ _ _ _ _ | graphRelease _ | paymentRetry _ _ _ _ | paymentRelease _ => cases hst
  | drainExpire _ _ _ _ _ | freeze _ _ _ | expireUnresolved _ _ => cases hst

/-! ## The fence -/

/-- The task is not worked on by a lane that ignores receipts: it is a payment
    task, it is over, or it is frozen and does not await an invoice. -/
def TaskRow.settled (r : TaskRow) : Bool :=
  r.isPayment || r.status.isTerminal ||
    (r.deletionJobId.isSome && r.invoiceAdmissionPhase != .invoicePending)

/-- The tasks of a lock with a receipt are settled, and its job is over. -/
structure Database.Fenced (db : Database) : Prop where
  tasks : ∀ r ∈ db.tasks, db.hasReceipt r.creator r.resource.lockId → r.settled
  jobs : ∀ j ∈ db.jobs, db.hasReceipt j.creator j.lockId → j.state.isTerminal

/-- `prepare_force_deletion` finds nothing that keeps it from writing the
    receipt. -/
def Database.willWriteReceipt (db : Database) (c : CreatorPubky) (l : LockId) : Bool :=
  !db.hasIntent c l && !db.hasReceipt c l &&
    (db.jobFor? c l).all fun j => j.state.isTerminal &&
      !db.tasks.any fun r => r.deletionJobId == some j.jobId &&
        r.entitlementPublicationClaimToken.isSome

/-- The condition on transactions: when a receipt is written, every task of the
    lock is settled; a force deletion that releases the frozen tasks is
    completed only when those that are not payment tasks are over. -/
def receiptSafe (db : Database) : Operation → Bool
  | .prepareForceDeletion c l _ _ =>
    !db.willWriteReceipt c l || db.tasks.all fun r => r.resource != .of c l || r.settled
  | .completeForceDeletion l _ =>
    db.jobs.all fun j => j.jobId != l.jobId || db.tasks.all fun r =>
      r.resource != .of j.creator j.lockId || (r.isPayment || r.status.isTerminal)
  | _ => true

theorem settled_of_receiptSafe {c : CreatorPubky} {l : LockId} {m : Option ContentLock}
    (h : receiptSafe db (.prepareForceDeletion c l m now))
    (hw : db.willWriteReceipt c l) (hr : r ∈ db.tasks)
    (hres : r.resource = .of c l) : r.settled := by
  simp only [receiptSafe, hw, Bool.not_true, Bool.false_or] at h
  simpa [hres] using List.all_eq_true.1 h r hr

theorem over_of_receiptSafe {l : JobLease}
    (h : receiptSafe db (.completeForceDeletion l now)) {j : DeletionJob} (hj : j ∈ db.jobs)
    (hid : j.jobId = l.jobId) (hr : r ∈ db.tasks)
    (hres : r.resource = .of j.creator j.lockId) : r.isPayment ∨ r.status.isTerminal := by
  simp only [receiptSafe] at h
  have hj := List.all_eq_true.1 h j hj
  simp only [hid, bne_self_eq_false, Bool.false_or] at hj
  simpa [hres] using List.all_eq_true.1 hj r hr

theorem TaskRow.settled_iff : r.settled ↔ (r.lane = .payment ∨ r.status.isTerminal) ∨
      (r.deletionJobId.isSome ∧ r.invoiceAdmissionPhase ≠ .invoicePending) := by
  simp only [settled, Bool.or_eq_true, Bool.and_eq_true, bne_iff_ne, isPayment_iff]

variable {db' : Database}

variable {u : TaskUpdate} {c : CreatorPubky} {l : LockId} {m frozen : Option ContentLock}
  {op : Operation}

theorem settled_update (hf : u.Frame r) (ha : ¬ r.status.isTerminal)
    (hr : r.settled) : (u.set r).settled := by
  rw [settled_iff] at hr ⊢
  rcases hr with (hlane | hterm) | ⟨hjob, hphase⟩
  · exact .inl (.inl ((lane_of_identity hf.identity).trans hlane))
  · exact absurd hterm ha
  · exact .inr ⟨by rw [hf.job]; exact hjob, by rw [hf.phase hphase]; exact hphase⟩

theorem settled_updateTasks (hf : db.Fenced)
    (hset : ∀ r ∈ db.tasks, u.guard r → r.settled → (u.set r).settled)
    (hframe : ∀ r ∈ db.tasks, u.guard r → u.Frame r) :
    ∀ r ∈ Table.updateWhere u.guard u.set db.tasks,
      db.hasReceipt r.creator r.resource.lockId → r.settled := by
  refine Table.forall_mem_updateWhere hf.tasks (fun r hr hs hg hrec => ?_) fun _ _ hs _ => hs
  have hid := (hframe r hr hg).identity
  rw [resource_of_identity hid, creator_of_identity hid] at hrec
  exact hset r hr hg (hs hrec)

theorem willWriteReceipt_of_receipt (h : Deletion.forcePreparation db c l m = .receipt frozen) :
    db.willWriteReceipt c l := by
  have hnone := forcePreparation_no_receipt h (by simp) (by simp)
  unfold Deletion.forcePreparation Deletion.jobForcePreparation at h
  unfold willWriteReceipt
  rw [Bool.not_eq_true] at hnone
  rw [hnone] at h ⊢
  split at h
  · cases h
  · rename_i hintent
    rw [Bool.not_eq_true] at hintent
    rw [hintent]
    simp only [Bool.false_eq_true, if_false] at h
    split at h
    · rename_i hjob
      rw [hjob]
      rfl
    · rename_i job hjob
      rw [hjob]
      split at h
      · split at h <;> cases h
      · rename_i htoken
        split at h
        · rename_i hterm
          rw [Bool.not_eq_true] at htoken
          simp only [Option.all_some, hterm, htoken]
          rfl
        · cases h

theorem terminal_of_willWriteReceipt (hs : db.Sound)
    (h : db.willWriteReceipt c l) {j : DeletionJob} (hj : j ∈ db.jobs) (hc : j.creator = c)
    (hl : j.lockId = l) : j.state.isTerminal := by
  simp only [willWriteReceipt, Bool.and_eq_true] at h
  cases hfind : db.jobFor? c l with
  | none =>
    have := List.find?_eq_none.1 hfind j hj
    simp [hc, hl] at this
  | some k =>
    have hk := List.mem_of_find?_eq_some hfind
    have hkey : k.creator = c ∧ k.lockId = l := by simpa using List.find?_some hfind
    have he : j = k := hs.eq_of_lock hj hk (hc.trans hkey.1.symm) (hl.trans hkey.2.symm)
    rw [hfind, Option.all_some, Bool.and_eq_true] at h
    rw [he]
    exact h.2.1

/-- **The job of a lock with a receipt is over**, after every transaction. -/
theorem jobsOver_of_effect (hs : db.Sound)
    (hf : ∀ j ∈ db.jobs, db.hasReceipt j.creator j.lockId → j.state.isTerminal)
    (h : Effect db op db') :
    ∀ j ∈ db'.jobs, db'.hasReceipt j.creator j.lockId → j.state.isTerminal := by
  cases h with
  | jobInserted job seen t _ hrec _ =>
    exact List.forall_mem_cons.2 ⟨fun h => absurd h hrec, hf⟩
  | jobsUpdated op p f snapshots hu _ =>
    refine Table.forall_mem_updateWhere hf (fun j hj hterm hp hrec => ?_) fun _ _ hterm _ => hterm
    have hrec : db.hasReceipt j.creator j.lockId := by
      rw [← hu.creator j, ← hu.lockId j]
      exact hrec
    rcases hu.may j hj hp with h | h
    · exact absurd (hterm hrec) h
    · exact absurd hrec h
  | receiptsUpdated op p f hkey =>
    intro j hj hrec
    rw [hasReceipt_updateWhere hkey] at hrec
    exact hf j hj hrec
  | receiptWritten c l m frozen now hp =>
    intro j hj hrec
    rcases hasReceipt_cons.1 hrec with ⟨hc, hl⟩ | hrec
    · exact terminal_of_willWriteReceipt hs (willWriteReceipt_of_receipt hp) hj hc.symm hl.symm
    · exact hf j hj hrec
  | forceCompleted l now job receipt hj hid _ hrec =>
    intro j hmem hrec'
    obtain ⟨hmem, hne⟩ := List.mem_filter.1 hmem
    rcases hasReceipt_cons.1 hrec' with ⟨hc, hl⟩ | hold
    · have he : j = job := hs.eq_of_lock hmem hj (hc.symm.trans hrec.1) (hl.symm.trans hrec.2)
      simp [he, hid] at hne
    · exact hf j hmem hold
  | _ => exact hf

theorem settled_receiptWritten (hs : db.Sound) (hf : db.Fenced) {now : Timestamp}
    (hp : Deletion.forcePreparation db c l m = .receipt frozen)
    (hsafe : db.willWriteReceipt c l → ∀ r ∈ db.tasks, r.resource = .of c l → r.settled) :
    ∀ r ∈ db.tasks, Database.hasReceipt
      { db with receipts := ⟨c, l, now, frozen, none⟩ :: db.receipts } r.creator
        r.resource.lockId → r.settled := by
  intro r hr hrec
  rcases hasReceipt_cons.1 hrec with ⟨hc, hl⟩ | hrec
  · refine hsafe (willWriteReceipt_of_receipt hp) r hr ?_
    rw [r.resource.eq_of, hs.creator r hr]
    exact congrArg₂ PubkyLockResource.of hc.symm hl.symm
  · exact hf.tasks r hr hrec

theorem settled_forceCompleted (hs : db.Sound) (hf : db.Fenced) {job : DeletionJob} {id : Uuid}
    {receipt : ForceReceipt} (hj : job ∈ db.jobs) (hid : job.jobId = id)
    (hrec : receipt.creator = job.creator ∧ receipt.lockId = job.lockId)
    (hsafe : ∀ r ∈ db.tasks, r.resource = .of job.creator job.lockId →
      r.isPayment ∨ r.status.isTerminal) :
    let db' := { db with receipts := receipt :: db.receipts }.deleteJob id
    ∀ r ∈ db'.tasks, db'.hasReceipt r.creator r.resource.lockId → r.settled := by
  intro db'
  refine Table.forall_mem_updateWhere (P := fun r => r.resource.creator = r.creator ∧
    (db.hasReceipt r.creator r.resource.lockId → r.settled)) ?_ ?_ ?_
  · exact fun r hr => ⟨hs.creator r hr, hf.tasks r hr⟩
  · -- a released task is one of the job's lock
    intro r hr _ hp hrec'
    have hp : r.deletionJobId = some id := by simpa using hp
    obtain ⟨hc, hl⟩ := hs.job_of_frozen hr hj (hp.trans (congrArg some hid.symm))
    have hres : r.resource = .of job.creator job.lockId := by
      rw [r.resource.eq_of, hs.creator r hr, hc, hl]
    rw [settled_iff]
    rcases hsafe r hr hres with hpay | hterm
    · exact .inl (.inl (isPayment_iff.1 hpay))
    · exact .inl (.inr hterm)
  · intro r hr hs' _ hrec'
    rcases hasReceipt_cons.1 hrec' with ⟨hc, hl⟩ | hold
    · have hres : r.resource = .of job.creator job.lockId := by
        rw [r.resource.eq_of, hs'.1, ← hc, ← hl, hrec.1, hrec.2]
      rw [settled_iff]
      rcases hsafe r hr hres with hpay | hterm
      · exact .inl (.inl (isPayment_iff.1 hpay))
      · exact .inl (.inr hterm)
    · exact hs'.2 hold

/-- **The fence is kept** by every transaction that meets the condition. -/
theorem fenced_of_effect (hs : db.Sound) (hf : db.Fenced)
    (h : Effect db op db') (hsafe : receiptSafe db op) : db'.Fenced := by
  refine ⟨?_, jobsOver_of_effect hs hf.jobs h⟩
  cases h with
  | admitted a r attempts hr _ =>
    refine List.forall_mem_cons.2 ⟨fun hrec => ?_, hf.tasks⟩
    -- the insert was refused if there was a receipt
    have hcut := hr.cutoff
    simp only [deletionCutoff, Bool.or_eq_false_iff] at hcut
    have hrec : db.hasReceipt r.creator r.resource.lockId := hrec
    rw [hcut.2] at hrec
    cases hrec
  | attempts op attempts => exact hf.tasks
  | intents op intents _ => exact hf.tasks
  | statement st snapshots hst _ _ =>
    have hfreeze : ∀ j c l, st ≠ .freeze j c l := by
      rintro j c l rfl
      cases hst
    refine settled_updateTasks hf (fun r hr hg => ?_) fun r _ hg => update_frame db st hfreeze hg
    have hcheck := stateCheck_of_checks (hs.checks r hr)
    exact settled_update (update_frame db st hfreeze hg) (update_active db st hfreeze hcheck hg)
  | jobInserted job seen t _ hrec _ =>
    refine Table.forall_mem_updateWhere hf.tasks (fun r _ _ hg h => ?_) fun _ _ hs _ => hs
    -- the frozen tasks are those of a lock without a receipt
    obtain ⟨hc, hres⟩ := ofLock_iff.1 hg
    have h : db.hasReceipt r.creator r.resource.lockId := h
    rw [hc, hres] at h
    exact absurd h hrec
  | jobsUpdated op p f snapshots hu _ => exact hf.tasks
  | expired l now snapshots _ _ _ =>
    refine settled_updateTasks hf (fun r _ _ _ => ?_) fun r _ _ =>
      Deletion.expireUnresolved_frame db l.jobId now r
    exact settled_iff.2 (.inl (.inr rfl))
  | receiptsUpdated op p f hkey =>
    intro r hr hrec
    rw [hasReceipt_updateWhere hkey] at hrec
    exact hf.tasks r hr hrec
  | receiptWritten c l m frozen now hp =>
    exact settled_receiptWritten hs hf hp fun hw r hr hres =>
      settled_of_receiptSafe hsafe hw hr hres
  | forceCompleted l now job receipt hj hid _ hrec =>
    exact settled_forceCompleted hs hf hj hid hrec fun r hr hres =>
      over_of_receiptSafe hsafe hj hid hr hres

section
variable (hs : db.Sound) (hf : db.Fenced) (hr : r ∈ db.tasks) (hrec : db.hasReceipt r.creator
  r.resource.lockId)
include hs hf hr hrec

theorem not_advances_of_fenced {st : TaskStatement} (hst : st.advances) :
    ¬ (st.update db).guard r := by
  intro hg
  have hcheck := stateCheck_of_checks (hs.checks r hr)
  have hfreeze : ∀ j c l, st ≠ .freeze j c l := by
    rintro j c l rfl
    cases hst
  rcases advances_cases hst hg with ⟨hjob, hlane⟩ | hphase | hfence | ⟨l, now, hdrain, hjob⟩
  · rcases settled_iff.1 (hf.tasks r hr hrec) with (h | h) | ⟨h, -⟩
    · exact hlane h
    · exact update_active db st hfreeze hcheck hg h
    · simp [hjob] at h
  · rcases settled_iff.1 (hf.tasks r hr hrec) with (h | h) | ⟨-, h⟩
    · rw [hs.phase r hr hphase] at h
      cases h
    · exact update_active db st hfreeze hcheck hg h
    · exact h hphase
  · simp only [receiptFence, Bool.and_eq_true, Bool.not_eq_true'] at hfence
    rw [receiptFor_iff.2 ⟨hs.creator r hr, hrec⟩] at hfence
    cases hfence.2
  · -- the job that froze the task would have to be running
    obtain ⟨j, hj, hown⟩ := (Option.any_eq_true _ _).1 hdrain
    obtain ⟨hmem, hid⟩ := job?_eq_some hj
    obtain ⟨hc, hl⟩ := hs.job_of_frozen hr hmem (hjob.trans (congrArg some hid.symm))
    have hterm := hf.jobs j hmem (by rw [hc, hl]; exact hrec)
    rw [(running_of_drainClaim hown).1] at hterm
    cases hterm

theorem not_acquire_of_fenced (l : Lease) (n : ℕ) (k : Uuid) (now : Timestamp) :
    ¬ Graph.acquireLive db l n k now r ∧ ¬ Payment.acquireLive db l n k now r := by
  constructor
  · intro h
    simp only [Graph.acquireLive, Graph.fence, Bool.and_eq_true, Option.isNone_iff_eq_none] at h
    obtain ⟨⟨hgraph, hpub⟩, hjob, -⟩ := h
    rcases settled_iff.1 (hf.tasks r hr hrec) with (h | h) | ⟨h, -⟩
    · rw [isGraph_iff.1 hgraph] at h
      cases h
    · rw [Evaluator.status_of_publishing hpub] at h
      cases h
    · simp [hjob] at h
  · intro h
    simp only [acquireLive, fence, receiptFence, Bool.and_eq_true,
      Bool.not_eq_true'] at h
    rw [receiptFor_iff.2 ⟨hs.creator r hr, hrec⟩] at h
    cases h.2.1.2

end

/-! ## Runs -/

/-- The tasks of the lock are fenced: no lane claims them, begins or completes
    their publication, or acquires it. -/
def Database.FencesLock (db : Database) (c : CreatorPubky) (l : LockId) : Prop :=
  ∀ r ∈ db.tasks, r.resource = .of c l →
    (∀ st : TaskStatement, st.advances → ¬ (st.update db).guard r) ∧
    ∀ lease n k now, ¬ Graph.acquireLive db lease n k now r ∧
      ¬ Payment.acquireLive db lease n k now r

/-- **Receipts fence every lane** in the runs whose force deletions meet
    `receiptSafe`. -/
theorem receipt_fences (E : Externals) (ops : List Operation) (db : Database)
    (h : Runs.Run (Runs.restrict (Runs.ofExec (Operation.run E)) fun db op => receiptSafe db op)
      .empty ops db)
    (c : CreatorPubky) (l : LockId) (hrec : db.hasReceipt c l) : db.FencesLock c l := by
  have hinv : db.Sound ∧ db.Fenced := by
    refine h.invariant (I := fun db => db.Sound ∧ db.Fenced) ⟨sound_empty, ?_⟩ ?_
    · exact ⟨List.forall_mem_nil _, List.forall_mem_nil _⟩
    · rintro db op db' ⟨hs, hf⟩ ⟨hstep, hsafe⟩
      have heffect := effect_of_run hs hstep
      exact ⟨sound_of_effect hs heffect, fenced_of_effect hs hf heffect hsafe⟩
  obtain ⟨hs, hf⟩ := hinv
  intro r hr hres
  have hrec : db.hasReceipt r.creator r.resource.lockId := by
    rw [← hs.creator r hr, hres]
    exact hrec
  exact ⟨fun st hst => not_advances_of_fenced hs hf hr hrec hst,
    not_acquire_of_fenced hs hf hr hrec⟩

/-- The admission of a graph task for a lock, and the request to delete that
    lock at once. -/
def graphThenForce : List Operation :=
  [.admission (.insertGraphTask ⟨⟨⟨1⟩⟩, admittedGraphSnapshot, 0, .pending, none, none, none⟩),
    .prepareForceDeletion ⟨"creator"⟩ (LockId.fromHash (.replicate 7)) none 1]

/-- The state these two transactions lead to. -/
def graphForced : Database :=
  { Database.empty with
    tasks := [Graph.newRow ⟨⟨1⟩⟩ admittedGraphSnapshot]
    receipts := [⟨⟨"creator"⟩, LockId.fromHash (.replicate 7), 1, none, none⟩] }

/-- After the receipt is committed, a graph worker still claims the task. -/
theorem claim_after_receipt : let E := Externals.constant (.replicate 7)
    Runs.Run (Runs.ofExec (Operation.run E)) .empty graphThenForce graphForced ∧
      graphForced.hasReceipt ⟨"creator"⟩ (LockId.fromHash (.replicate 7)) ∧
      ¬ graphForced.FencesLock ⟨"creator"⟩ (LockId.fromHash (.replicate 7)) := by
  intro E
  refine ⟨Runs.run_of_execList (Operation.run E) rfl, by decide, fun h => ?_⟩
  refine (h _ List.mem_cons_self rfl).1
    (.graphClaim ⟨⟨⟨1⟩⟩, "worker", ⟨2⟩⟩ 1 (Duration.seconds 60) 1) rfl ?_
  decide

/-- A graph task and a payment task that a job freezes and closes, before the forced
    deletion of the lock is completed. -/
def closedThenForce : List Operation :=
  let lockId := LockId.fromHash (.replicate 7)
  let lease : JobLease := ⟨⟨2⟩, "worker", ⟨3⟩⟩
  [.admission (.insertGraphTask ⟨⟨⟨1⟩⟩, admittedGraphSnapshot, 0, .pending, none, none, none⟩),
    .admission (.admitPaymentTask
      ⟨⟨⟨2⟩⟩, ⟨2, ⟨"paid"⟩, .of ⟨"creator"⟩ lockId, some ⟨"reader"⟩⟩, .replicate 7,
        ⟨⟨"creator"⟩, "1000", "BTC", 1⟩, 600⟩ 0),
    .insertJob ⟨⟨2⟩, ⟨"creator"⟩, lockId, staticLock ⟨"creator"⟩, 0, .queued, .withdraw, 0, none,
      none, none, none, none, none⟩ (fun _ => .pending) 0,
    .claimNextJob lease (Duration.seconds 60) 0, .advancePhase lease .startPaymentDrain true 0,
    .claimNextJob lease (Duration.seconds 60) 0, .expireUnresolvedTasks lease 1,
    .prepareForceDeletion ⟨"creator"⟩ lockId none 2, .claimNextJob lease (Duration.seconds 60) 2,
    .completeForceDeletion lease 3]

theorem closed_tasks_fenced : let E := Externals.constant (.replicate 7)
    ∃ db, Runs.execList (Runs.guarded (Operation.run E) receiptSafe) .empty closedThenForce =
        some db ∧
      db.tasks.map (·.lane) = [.payment, .graph] ∧
      db.FencesLock ⟨"creator"⟩ (LockId.fromHash (.replicate 7)) := by
  intro E
  have h : (Runs.execList (Runs.guarded (Operation.run E) receiptSafe) .empty
    closedThenForce).isSome := rfl
  refine ⟨_, (Option.some_get h).symm, rfl, ?_⟩
  exact receipt_fences E closedThenForce _
    (Runs.run_of_guarded (Operation.run E) receiptSafe (Option.some_get h).symm)
    ⟨"creator"⟩ (LockId.fromHash (.replicate 7)) rfl

end PubkyLocks
