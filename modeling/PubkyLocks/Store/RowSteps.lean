/-
  What a transaction does to one row of `verification_tasks`.
-/
import PubkyLocks.Store.Integrity

namespace PubkyLocks

open TaskStatement TaskRow Payment Evaluator TaskUpdate Table

/-! ## Rows -/

inductive RowStep (db : Database) (r : TaskRow) : Operation → TaskRow → Prop
  | kept (op : Operation) : RowStep db r op r
  | statement (st : TaskStatement) : st.standsAlone → (st.update db).guard r →
      RowStep db r (.statement st) ((st.update db).set r)
  | frozen (job : DeletionJob) (seen : TaskId → VerificationTaskStatus) (t : Timestamp) :
      Database.ofLock job.creator job.lockId r → ¬ Deletion.inPublication r →
      RowStep db r (.insertJob job seen t)
        ((Deletion.freeze job.jobId job.creator job.lockId).set r)
  | expired (l : JobLease) (now : Timestamp) :
      (Deletion.expireUnresolved db l.jobId now).guard r →
      RowStep db r (.expireUnresolvedTasks l now) ((Deletion.expireUnresolved db l.jobId now).set r)
  | released (l : JobLease) (now : Timestamp) :
      RowStep db r (.completeForceDeletion l now) { r with deletionJobId := none }

variable {db db' : Database} {op : Operation} {r q : TaskRow}

theorem rows_kept (tasks : List TaskRow) :
    List.Forall₂ (fun r q => RowStep db r op q) tasks tasks :=
  List.forall₂_same.2 fun _ _ => .kept op

/-- **Rows.**  A transaction takes every row to a row, or admits one beside
    them. -/
theorem rows_of_effect (h : Effect db op db') :
    List.Forall₂ (fun r q => RowStep db r op q) db.tasks db'.tasks ∨
      ∃ a q, op = .admission a ∧ Admitted db q ∧ db'.tasks = q :: db.tasks := by
  cases h with
  | admitted a r attempts hr _ => exact .inr ⟨a, r, rfl, hr, rfl⟩
  | attempts op attempts => exact .inl (rows_kept db.tasks)
  | intents op intents _ => exact .inl (rows_kept db.tasks)
  | statement st snapshots hst _ _ =>
    exact .inl (forall₂_updateWhere (fun r _ hg => .statement st hst hg) fun _ _ _ => .kept _)
  | jobInserted job seen t _ _ hrows =>
    refine .inl (forall₂_updateWhere (fun r hr hof => ?_) fun _ _ _ => .kept _)
    exact .frozen job seen t hof (hrows r hr hof).1
  | jobsUpdated op p f snapshots _ _ => exact .inl (rows_kept db.tasks)
  | expired l now snapshots _ _ _ =>
    exact .inl (forall₂_updateWhere (fun r _ hg => .expired l now hg) fun _ _ _ => .kept _)
  | receiptsUpdated op p f _ => exact .inl (rows_kept db.tasks)
  | receiptWritten c l m frozen now _ => exact .inl (rows_kept db.tasks)
  | forceCompleted l now job receipt _ _ _ _ =>
    exact .inl (forall₂_updateWhere (fun r _ _ => .released l now) fun _ _ _ => .kept _)

theorem rowStep_of_effect (h : Effect db op db') (hq : q ∈ db'.tasks) :
    (∃ r ∈ db.tasks, RowStep db r op q) ∨ ∃ a, op = .admission a ∧ Admitted db q := by
  rcases rows_of_effect h with hrows | ⟨a, p, hop, hadm, htasks⟩
  · exact .inl (exists_of_forall₂ hrows.flip hq)
  · rw [htasks, List.mem_cons] at hq
    rcases hq with rfl | hq
    · exact .inr ⟨a, hop, hadm⟩
    · exact .inl ⟨q, hq, .kept op⟩

theorem rowStep_of_run {E : Externals} (hs : db.Sound) (h : op.run E db = some db')
    (hq : q ∈ db'.tasks) :
    (∃ r ∈ db.tasks, RowStep db r op q) ∨
      ∃ a, op = .admission a ∧ a.NewRow q ∧ Admitted db q := by
  rcases rowStep_of_effect (effect_of_run hs h) hq with hr | ⟨a, rfl, hadm⟩
  · exact .inl hr
  · have hnew : q ∉ db.tasks := fun hold => (hadm.fresh q hold).1 rfl
    rcases Admission.newRow_of_run h with heq | ⟨r, hins, heq⟩
    · exact absurd (heq ▸ hq) hnew
    · rw [heq, List.mem_cons] at hq
      rcases hq with rfl | hold
      · exact .inr ⟨a, rfl, hins, hadm⟩
      · exact absurd hold hnew

theorem identity_of_rowStep (h : RowStep db r op q) : q.identity = r.identity := by
  cases h with
  | kept => rfl
  | statement st hst hg =>
    refine (update_frame db st ?_ hg).identity
    rintro j c l rfl
    cases hst
  | frozen => rfl
  | expired l now => exact (Deletion.expireUnresolved_frame db l.jobId now r).identity
  | released => rfl

theorem rowStep_of_taskId (hs : db.Sound) (h : Effect db op db') (hr : r ∈ db.tasks)
    (hq : q ∈ db'.tasks) (hid : q.taskId = r.taskId) : RowStep db r op q := by
  rcases rowStep_of_effect h hq with ⟨p, hp, hstep⟩ | ⟨a, -, hadm⟩
  · have hpid : p.taskId = r.taskId :=
      (taskId_of_identity (identity_of_rowStep hstep)).symm.trans hid
    rw [← List.inj_on_of_nodup_map hs.taskIds hp hr hpid]
    exact hstep
  · exact absurd hid.symm (hadm.fresh r hr).1

theorem exists_identity_of_effect (h : Effect db op db') (hr : r ∈ db.tasks) :
    ∃ q ∈ db'.tasks, q.identity = r.identity := by
  rcases rows_of_effect h with hrows | ⟨a, p, -, -, htasks⟩
  · obtain ⟨q, hq, hstep⟩ := exists_of_forall₂ hrows hr
    exact ⟨q, hq, identity_of_rowStep hstep⟩
  · rw [htasks]
    exact ⟨r, List.mem_cons_of_mem _ hr, rfl⟩

theorem exists_row_of_effect (h : Effect db op db') (hr : r ∈ db.tasks) :
    ∃ q ∈ db'.tasks, q.taskId = r.taskId :=
  let ⟨q, hq, hid⟩ := exists_identity_of_effect h hr
  ⟨q, hq, taskId_of_identity hid⟩

theorem Database.exists_of_decoded {α : Type} {decode : TaskRow → Except ApplicationError α}
    {id : TaskId} {t : α}
    (h : ((db.task? id).bind fun r => (decode r).toOption) = some t) :
    ∃ r ∈ db.tasks, r.taskId = id ∧ decode r = .ok t := by
  obtain ⟨r, hr, ht⟩ := Option.bind_eq_some_iff.1 h
  have hid := List.find?_some hr
  exact ⟨r, List.mem_of_find?_eq_some hr, beq_iff_eq.1 hid, Checks.toOption_eq_some.1 ht⟩

theorem map_identity_of_rows {rows rows' : List TaskRow}
    (h : List.Forall₂ (fun r q => RowStep db r op q) rows rows') :
    rows'.map identity = rows.map identity := by
  induction h with
  | nil => rfl
  | cons hstep _ ih => rw [List.map_cons, List.map_cons, ih, identity_of_rowStep hstep]

/-! ## Rows of the version-2 lanes -/

/-- The statements a lane issues; the deletions' two are part of larger
    transactions. -/
def TaskStatement.lane : TaskStatement → Option Lane
  | v1Claim .. | v1Retry .. | v1Persist .. | invoiceClaim .. | invoiceReady .. | invoiceRetry ..
  | invoiceFail .. | drainBegin .. | drainComplete .. | drainExpire .. => some .v1
  | graphClaim .. | graphPersist .. | graphRetry .. | graphRelease .. | graphComplete .. =>
    some .graph
  | paymentClaim .. | paymentPersist .. | paymentRetry .. | paymentRelease ..
  | paymentComplete .. => some .payment
  | freeze .. | expireUnresolved .. => none

/-- **Lanes.**  On sound tables a statement only matches rows of its lane: the
    invoices and the drain only reach version-1 tasks. -/
theorem lane_of_guard {db : Database} {r : TaskRow} (hs : db.Sound) (hr : r ∈ db.tasks)
    {st : TaskStatement} (hst : st.standsAlone) (hg : (st.update db).guard r) :
    st.lane = some r.lane := by
  have hinvoice : Invoice.awaiting r → some Lane.v1 = some r.lane := fun h =>
    congrArg some (hs.phase r hr (Invoice.awaiting_iff.1 h).1).symm
  cases st with
  | v1Claim l now t dbNow =>
    simp only [update, V1.claimNext, Bool.and_eq_true, isV1_iff] at hg
    exact congrArg some hg.1.2.symm
  | v1Retry l now t dbNow =>
    simp only [update, V1.scheduleRetry, Bool.and_eq_true, isV1_iff] at hg
    exact congrArg some hg.2.symm
  | v1Persist l claimed c dbNow =>
    simp only [update] at hg
    split at hg
    · simp only [V1.persistTransition, Bool.and_eq_true, isV1_iff] at hg
      exact congrArg some hg.2.symm
    · cases hg
  | invoiceClaim l ttl dbNow =>
    simp only [update, Invoice.claimNext, Bool.and_eq_true] at hg
    exact hinvoice hg.1.1.2
  | invoiceReady l c d dbNow =>
    simp only [update, Invoice.markReady, Bool.and_eq_true] at hg
    exact hinvoice hg.2
  | invoiceRetry l d dbNow =>
    simp only [update, Invoice.scheduleRetry, Bool.and_eq_true] at hg
    exact hinvoice hg.1.2
  | invoiceFail l m dbNow =>
    simp only [update, Invoice.markFailed, Bool.and_eq_true] at hg
    exact hinvoice hg.2
  | graphClaim l now t dbNow =>
    simp only [update, Graph.claimNext, Bool.and_eq_true] at hg
    obtain ⟨root, hroot, -⟩ := (Option.any_eq_true _ _).1 hg.2
    exact congrArg some (isGraph_iff.1 (by rw [isGraph, hroot]; rfl)).symm
  | graphPersist l n next k dbNow =>
    simp only [update, Graph.persist, Bool.and_eq_true] at hg
    exact congrArg some (Graph.lane_of_persistChecks hg.1.2).symm
  | graphRetry l n next now due dbNow =>
    simp only [update, Graph.scheduleRetry, Bool.and_eq_true] at hg
    exact congrArg some (Graph.lane_of_scheduleChecks hg.2).symm
  | graphRelease l =>
    simp only [update, Graph.release, Bool.and_eq_true, isGraph_iff] at hg
    exact congrArg some hg.2.symm
  | graphComplete l n k dbNow =>
    simp only [update, Graph.complete, Bool.and_eq_true, isGraph_iff] at hg
    exact congrArg some hg.1.1.1.symm
  | paymentClaim l now t dbNow =>
    simp only [update, claimNext, Bool.and_eq_true] at hg
    obtain ⟨root, hroot, -⟩ := (Option.any_eq_true _ _).1 hg.2
    exact congrArg some (isPayment_iff.1 (by rw [isPayment, hroot]; rfl)).symm
  | paymentPersist l n input k dbNow =>
    simp only [update, ofRow] at hg
    split at hg
    · simp only [persist, Bool.and_eq_true] at hg
      exact congrArg some (lane_of_persistChecks hg.1.2).symm
    · cases hg
  | paymentRetry l n input dbNow =>
    simp only [update, ofRow] at hg
    split at hg
    · simp only [scheduleRetry, Bool.and_eq_true] at hg
      exact congrArg some (lane_of_scheduleChecks hg.2).symm
    · cases hg
  | paymentRelease l =>
    simp only [update, release, Bool.and_eq_true, isPayment_iff] at hg
    exact congrArg some hg.1.2.symm
  | paymentComplete l n k dbNow =>
    simp only [update, complete, Bool.and_eq_true,
      isPayment_iff] at hg
    exact congrArg some hg.1.1.1.symm
  | drainBegin l id p k now =>
    simp only [update, Drain.beginPublication, Bool.and_eq_true, beq_iff_eq] at hg
    exact congrArg some (hs.lane_of_unresolved hr (hg.1.1.1.1 ▸ hg.1.1.2)).symm
  | drainComplete l id k now =>
    simp only [update, Drain.persistCompleted, Bool.and_eq_true, beq_iff_eq] at hg
    exact congrArg some (hs.lane_of_unresolved hr (hg.1.1.1.1.1.1 ▸ hg.1.1.1.1.2)).symm
  | drainExpire l id status n now =>
    simp only [update] at hg
    split at hg
    · simp only [Drain.persistExpired, Bool.and_eq_true, beq_iff_eq] at hg
      exact congrArg some (hs.lane_of_unresolved hr (hg.1.1.1.1 ▸ hg.1.1.2)).symm
    · cases hg
  | freeze j c l => cases hst
  | expireUnresolved l now => cases hst

/-- The evaluator columns and the entitlement of a row are kept, and its status
    but for an open row that stays open and a publication that ends. -/
structure EvaluatorKept (r q : TaskRow) : Prop where
  evaluator : q.evaluator = r.evaluator
  revision : q.evaluatorRevision = r.evaluatorRevision
  entitlement : q.entitlementToPublish = r.entitlementToPublish
  reason : q.terminalReason = r.terminalReason
  status : q.status = r.status ∨ (Deletion.open_ r ∧ Deletion.open_ q) ∨
    (r.status = .publishingEntitlement ∧ q.status = .completed)

/-- What a transaction does to a row of a version-2 lane. -/
inductive EvaluatorStep (db : Database) (r : TaskRow) : Operation → TaskRow → Prop
  | kept (op : Operation) (q : TaskRow) : EvaluatorKept r q → EvaluatorStep db r op q
  | graphPersisted (l : Lease) (n : ℕ) (next : GraphTaskSnapshotV1) (k : Uuid)
      (dbNow : Timestamp) : (Graph.persist db l n next k dbNow).guard r →
      EvaluatorStep db r (.statement (.graphPersist l n next k dbNow))
        ((Graph.persist db l n next k dbNow).set r)
  | graphScheduled (l : Lease) (n : ℕ) (next : GraphTaskSnapshotV1) (now due dbNow : Timestamp) :
      (Graph.scheduleRetry db l n next now due dbNow).guard r →
      EvaluatorStep db r (.statement (.graphRetry l n next now due dbNow))
        ((Graph.scheduleRetry db l n next now due dbNow).set r)
  | paymentPersisted (l : Lease) (n : ℕ) (input : PaymentWorkerInput) (k : Uuid)
      (dbNow : Timestamp) (next : PaymentTaskSnapshotV1) (now : Timestamp) :
      workerAction input r = some (.persist next now) →
      (persist db l n next k dbNow).guard r →
      EvaluatorStep db r (.statement (.paymentPersist l n input k dbNow))
        ((persist db l n next k dbNow).set r)
  | paymentScheduled (l : Lease) (n : ℕ) (input : PaymentWorkerInput) (dbNow : Timestamp)
      (next : PaymentTaskSnapshotV1) (now due : Timestamp) :
      workerAction input r = some (.schedule next now due) →
      (scheduleRetry db l n next now due dbNow).guard r →
      EvaluatorStep db r (.statement (.paymentRetry l n input dbNow))
        ((scheduleRetry db l n next now due dbNow).set r)
  | closed (l : JobLease) (now : Timestamp) :
      (Deletion.expireUnresolved db l.jobId now).guard r →
      EvaluatorStep db r (.expireUnresolvedTasks l now)
        ((Deletion.expireUnresolved db l.jobId now).set r)

variable {dbNow : Timestamp}

theorem EvaluatorKept.refl (r : TaskRow) : EvaluatorKept r r := ⟨rfl, rfl, rfl, rfl, .inl rfl⟩

theorem evaluatorKept_claim {root : RootKind} (l : Lease) (now claimExpiresAt : Timestamp)
    (h : claimable root dbNow r) :
    EvaluatorKept r (claimSet l now claimExpiresAt dbNow r) := by
  refine ⟨rfl, rfl, rfl, rfl, ?_⟩
  rcases active_of_claimable h with hs | hs | hs
  · exact .inr (.inl ⟨by simp [Deletion.open_, hs], by simp [Deletion.open_, claimSet, hs]⟩)
  · exact .inl (by simp [claimSet, hs])
  · exact .inl (by simp [claimSet, hs])

theorem evaluatorKept_complete (hs : r.status = .publishingEntitlement) :
    EvaluatorKept r (completeSet dbNow r) :=
  ⟨rfl, rfl, rfl, rfl, .inr (.inr ⟨hs, rfl⟩)⟩

theorem evaluatorKept_freeze (jobId : Uuid) (c : CreatorPubky) (l : LockId) (r : TaskRow) :
    EvaluatorKept r ((Deletion.freeze jobId c l).set r) := by
  refine ⟨rfl, rfl, rfl, rfl, ?_⟩
  by_cases ho : Deletion.open_ r
  · have hq : ((Deletion.freeze jobId c l).set r).status = .pending := if_pos ho
    exact .inr (.inl ⟨ho, by simp [Deletion.open_, hq]⟩)
  · exact .inl (by simp [Deletion.freeze, ho])

theorem evaluatorKept_release {reopens : Bool} (hopen : reopens → r.status = .inProgress)
    (he : q.evaluator = r.evaluator) (hn : q.evaluatorRevision = r.evaluatorRevision)
    (hp : q.entitlementToPublish = r.entitlementToPublish)
    (ht : q.terminalReason = r.terminalReason)
    (hq : q.status = if reopens then .pending else r.status) : EvaluatorKept r q := by
  refine ⟨he, hn, hp, ht, ?_⟩
  cases reopens with
  | true => exact .inr (.inl ⟨by simp [Deletion.open_, hopen rfl], by simp [Deletion.open_, hq]⟩)
  | false => exact .inl (by simpa using hq)

/-- **Version-2 rows** are written by the statements of their lane. -/
theorem evaluatorStep_of_rowStep (hs : db.Sound) (hr : r ∈ db.tasks) (hlane : r.lane ≠ .v1)
    (h : RowStep db r op q) : EvaluatorStep db r op q := by
  cases h with
  | kept => exact .kept op r (.refl r)
  | frozen job seen t _ _ => exact .kept _ _ (evaluatorKept_freeze ..)
  | expired l now hg => exact .closed l now hg
  | released l now => exact .kept _ _ ⟨rfl, rfl, rfl, rfl, .inl rfl⟩
  | statement st hst hg =>
    have hst' := lane_of_guard hs hr hst hg
    have hv1 : st.lane ≠ some .v1 := fun h => hlane (Option.some.inj (hst'.symm.trans h))
    cases st with
    | graphClaim l now e dbNow =>
      simp only [update, Graph.claimNext, Bool.and_eq_true] at hg
      obtain ⟨root, -, hc⟩ := (Option.any_eq_true _ _).1 hg.2
      exact .kept _ _ (evaluatorKept_claim l now e hc)
    | graphPersist l n next k dbNow => exact .graphPersisted l n next k dbNow hg
    | graphRetry l n next now due dbNow => exact .graphScheduled l n next now due dbNow hg
    | graphRelease l =>
      refine .kept _ _ (evaluatorKept_release ?_ rfl rfl rfl rfl rfl)
      intro hre
      simp only [Graph.reopens, Bool.and_eq_true, beq_iff_eq] at hre
      exact hre.1
    | graphComplete l n k dbNow =>
      simp only [update, Graph.complete, Bool.and_eq_true] at hg
      exact .kept _ _ (evaluatorKept_complete (status_of_publishing hg.1.1.2))
    | paymentClaim l now e dbNow =>
      simp only [update, claimNext, Bool.and_eq_true] at hg
      obtain ⟨root, -, hc⟩ := (Option.any_eq_true _ _).1 hg.2
      exact .kept _ _ (evaluatorKept_claim l now e hc)
    | paymentPersist l n input k dbNow =>
      simp only [update, ofRow] at hg
      split at hg
      · rename_i next now hact
        have hset : ((paymentPersist l n input k dbNow).update db).set r =
            (persist db l n next k dbNow).set r := by
          simp only [update, ofRow, hact]
        rw [hset]
        exact .paymentPersisted l n input k dbNow next now hact hg
      · cases hg
    | paymentRetry l n input dbNow =>
      simp only [update, ofRow] at hg
      split at hg
      · rename_i next now due hact
        have hset : ((paymentRetry l n input dbNow).update db).set r =
            (scheduleRetry db l n next now due dbNow).set r := by
          simp only [update, ofRow, hact]
        rw [hset]
        exact .paymentScheduled l n input dbNow next now due hact hg
      · cases hg
    | paymentRelease l =>
      refine .kept _ _ (evaluatorKept_release ?_ rfl rfl rfl rfl rfl)
      intro hre
      simp only [reopens, Bool.and_eq_true, beq_iff_eq] at hre
      exact hre.1
    | paymentComplete l n k dbNow =>
      simp only [update, complete, Bool.and_eq_true] at hg
      exact .kept _ _ (evaluatorKept_complete (status_of_publishing hg.1.1.2))
    | freeze => cases hst
    | expireUnresolved => cases hst
    | _ => exact absurd rfl hv1

/-! ## Copies -/

/-- A snapshot of a task, read at a revision. -/
structure SnapshotCopy where
  taskId : TaskId
  revision : ℕ
  snapshot : EvaluatorSnapshot

/-- The task is in a version-2 lane and has the revision of the copy or a later
    one; while it still has its revision, it holds the snapshot of the copy. -/
def SnapshotCopy.Current (c : SnapshotCopy) (db : Database) : Prop :=
  ∀ r ∈ db.tasks, r.taskId = c.taskId → r.lane ≠ .v1 ∧ c.revision ≤ r.evaluatorRevision ∧
    (r.evaluatorRevision = c.revision → r.evaluator = some c.snapshot)

theorem EvaluatorStep.revision (h : EvaluatorStep db r op q) :
    (q.evaluator = r.evaluator ∧ q.evaluatorRevision = r.evaluatorRevision) ∨
      q.evaluatorRevision = r.evaluatorRevision + 1 := by
  cases h with
  | kept op q hk => exact .inl ⟨hk.evaluator, hk.revision⟩
  | graphPersisted => exact .inr rfl
  | graphScheduled => exact .inr rfl
  | paymentPersisted => exact .inr rfl
  | paymentScheduled => exact .inr rfl
  | closed l now hg =>
    cases he : r.evaluator with
    | none =>
      refine .inl ⟨by simp [Deletion.expireUnresolved, he], ?_⟩
      simp [Deletion.expireUnresolved, isPayment, paymentRoot?, he]
    | some e =>
      cases e with
      | graph s =>
        refine .inl ⟨by simp [Deletion.expireUnresolved, he, Deletion.closeSnapshot], ?_⟩
        simp [Deletion.expireUnresolved, isPayment, paymentRoot?, he]
      | payment s =>
        refine .inr ?_
        simp [Deletion.expireUnresolved, isPayment, paymentRoot?, he]

theorem SnapshotCopy.current_of_row (hs : db.Sound) (hr : r ∈ db.tasks) {e : EvaluatorSnapshot}
    (he : r.evaluator = some e) :
    SnapshotCopy.Current ⟨r.taskId, r.evaluatorRevision, e⟩ db := by
  intro p hp hid
  rw [List.inj_on_of_nodup_map hs.taskIds hp hr hid]
  refine ⟨fun hv1 => ?_, le_refl _, fun _ => he⟩
  rw [← isV1_iff, isV1, he] at hv1
  cases hv1

/-- **Revisions.**  A copy of a task that is in the table stays current. -/
theorem SnapshotCopy.current_of_effect {c : SnapshotCopy} (hs : db.Sound) (h : Effect db op db')
    (hc : c.Current db) (htask : ∃ r ∈ db.tasks, r.taskId = c.taskId) : c.Current db' := by
  obtain ⟨r, hr, hid⟩ := htask
  intro q hq hqid
  have hstep := rowStep_of_taskId hs h hr hq (hqid.trans hid.symm)
  obtain ⟨hlane, hle, hsnap⟩ := hc r hr hid
  refine ⟨(lane_of_identity (identity_of_rowStep hstep)).symm ▸ hlane, ?_⟩
  rcases (evaluatorStep_of_rowStep hs hr hlane hstep).revision with ⟨he, hn⟩ | hn
  · rw [he, hn]
    exact ⟨hle, hsnap⟩
  · rw [hn]
    exact ⟨by omega, fun heq => by omega⟩

/-! ## The writes of workers -/

/-- A statement as the repositories issue it: nothing is written if no row
    matches. -/
def Database.issue (db : Database) (u : TaskUpdate) : Option Database :=
  if db.tasks.any u.guard then db.updateTasks u else none

theorem run_of_issue {db db' : Database} {u : TaskUpdate} {st : TaskStatement}
    (hst : st.standsAlone) (hsnap : st.snapshotsAfter db = some db.snapshots)
    (hguard : ∀ r ∈ db.tasks, (st.update db).guard r = u.guard r)
    (hset : ∀ r ∈ db.tasks, u.guard r → (st.update db).set r = u.set r)
    (h : db.issue u = some db') : st.run db = some db' := by
  unfold Database.issue at h
  split at h
  · rename_i hany
    obtain ⟨r, hr, hg⟩ := List.any_eq_true.1 hany
    have hany' : db.tasks.any (st.update db).guard :=
      List.any_eq_true.2 ⟨r, hr, (hguard r hr).trans hg⟩
    obtain ⟨hchecks, rfl⟩ := Database.updateTasks_eq_some.1 h
    have hupdate : db.updateTasks (st.update db) =
        some { db with tasks := updateWhere u.guard u.set db.tasks } := by
      refine Database.updateTasks_eq_some.2 ⟨fun r hr hg => ?_, ?_⟩
      · rw [hguard r hr] at hg
        rw [hset r hr hg]
        exact hchecks r hr hg
      · congr 1
        unfold updateWhere
        refine List.map_congr_left fun r hr => ?_
        rw [hguard r hr]
        split
        · rename_i hg
          exact (hset r hr hg).symm
        · rfl
    rw [run, if_pos (by rw [hst, hany']; rfl), hsnap, hupdate]
  · cases h

theorem exists_written_of_run {st : TaskStatement} (h : st.run db = some db') :
    ∃ r ∈ db.tasks, (st.update db).guard r ∧ (st.update db).set r ∈ db'.tasks := by
  simp only [run] at h
  split at h
  · rename_i hc
    rw [Bool.and_eq_true] at hc
    obtain ⟨r, hr, hg⟩ := List.any_eq_true.1 hc.2
    split at h
    · rename_i snapshots db₁ hsnap hu
      obtain ⟨-, rfl⟩ := Database.updateTasks_eq_some.1 hu
      cases h
      exact ⟨r, hr, hg, mem_updateWhere.2 ⟨r, hr, .inl ⟨hg, rfl⟩⟩⟩
    · cases h
  · cases h

end PubkyLocks
