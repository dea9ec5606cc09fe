/-
  All updates of `verification_tasks` that the lanes, the payment drain and the
  deletions issue, and the lifecycle constraint they must respect.

  A `TaskStatement` is one statement with the values the code binds;
  `TaskStatement.update` is its WHERE clause, with the checks before it, and its
  assignments.  `stateCheck_update_iff` says which of them take an allowed row
  to an allowed row: all but the release of a graph claim on a row in progress
  whose root is pending.
-/
import PubkyLocks.Lanes.Deletion

namespace PubkyLocks

open Payment Invoice Checks TaskUpdate

/-- The statements, with the values the code binds.  Four of them bind only what
    their caller computes: `v1Persist` the record of `complete_verification_task`,
    `paymentPersist` and `paymentRetry` the action of the payment worker, and
    `drainExpire` the verdict of `classify_payment_task`. -/
inductive TaskStatement where
  | v1Claim (l : Lease) (now claimExpiresAt dbNow : Timestamp)
  | v1Retry (l : Lease) (now nextAttemptAt dbNow : Timestamp)
  | v1Persist (l : Lease) (claimed : VerificationTaskRecord) (transition : CompletionTransition)
      (dbNow : Timestamp)
  | invoiceClaim (l : Lease) (claimTtl : Duration) (dbNow : Timestamp)
  | invoiceReady (l : Lease) (invoiceCreatedAt paymentDeadline dbNow : Timestamp)
  | invoiceRetry (l : Lease) (retryAfter : Duration) (dbNow : Timestamp)
  | invoiceFail (l : Lease) (failureMessage : String) (dbNow : Timestamp)
  | graphClaim (l : Lease) (now claimExpiresAt dbNow : Timestamp)
  | graphPersist (l : Lease) (expectedRevision : ℕ) (next : GraphTaskSnapshotV1)
      (publicationToken : Uuid) (dbNow : Timestamp)
  | graphRetry (l : Lease) (expectedRevision : ℕ) (next : GraphTaskSnapshotV1)
      (now nextAttemptAt dbNow : Timestamp)
  | graphRelease (l : Lease)
  | graphComplete (l : Lease) (expectedRevision : ℕ) (publicationToken : Uuid) (dbNow : Timestamp)
  | paymentClaim (l : Lease) (now claimExpiresAt dbNow : Timestamp)
  | paymentPersist (l : Lease) (expectedRevision : ℕ) (input : PaymentWorkerInput)
      (publicationToken : Uuid) (dbNow : Timestamp)
  | paymentRetry (l : Lease) (expectedRevision : ℕ) (input : PaymentWorkerInput)
      (dbNow : Timestamp)
  | paymentRelease (l : Lease)
  | paymentComplete (l : Lease) (expectedRevision : ℕ) (publicationToken : Uuid)
      (dbNow : Timestamp)
  | drainBegin (l : JobLease) (taskId : TaskId) (entitlement : VerifiedProofBundle)
      (publicationToken : Uuid) (now : Timestamp)
  | drainComplete (l : JobLease) (taskId : TaskId) (publicationToken : Uuid) (now : Timestamp)
  | drainExpire (l : JobLease) (taskId : TaskId) (status : PaymentRequestStatus)
      (minimumConfirmations : ℕ) (now : Timestamp)
  | freeze (jobId : Uuid) (creator : CreatorPubky) (lockId : LockId)
  | expireUnresolved (l : JobLease) (now : Timestamp)

namespace TaskStatement

/-- What the payment worker does with the claimed row: it computes its action
    from the snapshot of the row, whose revision it presents. -/
def workerAction (input : PaymentWorkerInput) (r : TaskRow) : Option PaymentWorkerAction :=
  match r.evaluator with
  | some (.payment s) => (paymentWorkerAction s input).toOption
  | _ => none

def mayExpire (db : Database) (l : JobLease) (now : Timestamp) : Bool :=
  (db.ownedJob? l now).any fun j => j.phase == .startPaymentDrain || j.phase == .drainPayments

/-- The WHERE clause, with the checks before it, and the assignments. -/
def update (db : Database) : TaskStatement → TaskUpdate
  | v1Claim l now claimExpiresAt dbNow => V1.claimNext l now claimExpiresAt dbNow
  | v1Retry l now nextAttemptAt dbNow => V1.scheduleRetry l now nextAttemptAt dbNow
  | v1Persist l claimed transition dbNow =>
    match transition.apply claimed with
    | .ok task => V1.persistTransition l task dbNow
    | .error _ => .skip
  | invoiceClaim l claimTtl dbNow => claimNext l claimTtl dbNow
  | invoiceReady l created deadline dbNow => markReady l created deadline dbNow
  | invoiceRetry l retryAfter dbNow => scheduleRetry l retryAfter dbNow
  | invoiceFail l message dbNow => markFailed l message dbNow
  | graphClaim l now claimExpiresAt dbNow => Graph.claimNext db l now claimExpiresAt dbNow
  | graphPersist l n next k dbNow => Graph.persist db l n next k dbNow
  | graphRetry l n next now nextAttemptAt dbNow =>
    Graph.scheduleRetry db l n next now nextAttemptAt dbNow
  | graphRelease l => Graph.release l
  | graphComplete l n k dbNow => Graph.complete db l n k dbNow
  | paymentClaim l now claimExpiresAt dbNow => claimNext db l now claimExpiresAt dbNow
  | paymentPersist l n input k dbNow => .ofRow fun r =>
    match workerAction input r with
    | some (.persist next _) => persist db l n next k dbNow
    | _ => .skip
  | paymentRetry l n input dbNow => .ofRow fun r =>
    match workerAction input r with
    | some (.schedule next now due) => scheduleRetry db l n next now due dbNow
    | _ => .skip
  | paymentRelease l => release db l
  | paymentComplete l n k dbNow => complete db l n k dbNow
  | drainBegin l id e k now => Drain.beginPublication db l id e k now
  | drainComplete l id k now => Drain.persistCompleted db l id k now
  | drainExpire l id status n now =>
    match classifyPaymentTask status n with
    | .ok (some (.expired, some reason)) => Drain.persistExpired db l id reason now
    | _ => .skip
  | freeze jobId creator lockId => Deletion.freeze jobId creator lockId
  | expireUnresolved l now =>
    if mayExpire db l now then Deletion.expireUnresolved db l.jobId now else .skip

/-- The statement releases a graph claim on a row that it sets back to
    pending. -/
def reopensGraphTask (st : TaskStatement) (r : TaskRow) : Bool :=
  match st with
  | graphRelease _ => Graph.reopens r
  | _ => false

end TaskStatement

/-! ## The lifecycle constraint -/

theorem TaskUpdate.skip_keeps : skip.Keeps := by
  intro r _ hg
  cases hg

theorem closed_of_toPaymentTask {r : TaskRow} {t : PaymentTaskRecord} (h : toPaymentTask r = .ok t)
    (hu : r.unfinished) : t.snapshot.root.Closed ∧ r.evaluator = some (.payment t.snapshot) := by
  unfold toPaymentTask at h
  obtain ⟨s, hsnap, h⟩ := bind_eq_ok.1 h
  obtain ⟨-, -, h⟩ := bind_eq_ok.1 h
  obtain ⟨-, -, h⟩ := bind_eq_ok.1 h
  obtain ⟨e, -, h⟩ := bind_eq_ok.1 h
  obtain ⟨-, -, h⟩ := bind_eq_ok.1 h
  obtain ⟨_, hreason, h⟩ := bind_eq_ok.1 h
  rw [refuse_eq_ok, not_not] at hreason
  cases h
  have hnone : s.root.terminalReason = none := by
    simp only [TaskRow.unfinished, Bool.and_eq_true, Option.isNone_iff_eq_none] at hu
    rw [← hreason, hu.2]
  refine ⟨?_, ?_⟩
  · show s.root.Closed
    cases hroot : s.root <;> rw [hroot] at hnone <;> trivial
  · unfold TaskRow.paymentSnapshot at hsnap
    split at hsnap
    · cases hsnap; assumption
    · cases hsnap

theorem closed_of_workerAction {r : TaskRow} {input : PaymentWorkerInput}
    {next : PaymentTaskSnapshotV1} {now : Timestamp} (hu : r.unfinished)
    (hw : TaskStatement.workerAction input r = some (.persist next now))
    (hp : (persistChecks next r).isOk) : next.root.Closed := by
  obtain ⟨_, hok⟩ := isOk_iff.1 hp
  obtain ⟨t, ht, -⟩ := bind_eq_ok.1 hok
  obtain ⟨hclosed, he⟩ := closed_of_toPaymentTask ht hu
  rw [TaskStatement.workerAction, he] at hw
  cases ha : paymentWorkerAction t.snapshot input with
  | error e => simp [ha, Except.toOption] at hw
  | ok a =>
    simp only [ha, Except.toOption, Option.some.injEq] at hw
    subst hw
    exact paymentWorkerAction_closed ha hclosed

section
variable (db : Database)
include db

theorem paymentPersist_keeps (l : Lease) (n : ℕ) (input : PaymentWorkerInput)
    (k : Uuid) (dbNow : Timestamp) :
    ((TaskStatement.paymentPersist l n input k dbNow).update db).Keeps := by
  intro r hr hg
  simp only [TaskStatement.update, ofRow] at hg ⊢
  split at hg
  · rename_i next now hw
    have hg' := hg
    simp only [persist, Bool.and_eq_true, claimed_iff] at hg'
    have hu := ((TaskRow.stateCheck_inProgress hg'.1.1.2.1).1 hr).2.1
    exact persist_keeps db l n k dbNow (closed_of_workerAction hu hw hg'.1.2) r hr hg
  · cases hg

theorem paymentRetry_keeps (l : Lease) (n : ℕ) (input : PaymentWorkerInput)
    (dbNow : Timestamp) : ((TaskStatement.paymentRetry l n input dbNow).update db).Keeps := by
  intro r hr hg
  simp only [TaskStatement.update, ofRow] at hg ⊢
  split at hg
  · rename_i next now due hw
    exact scheduleRetry_keeps db l n next now due dbNow r hr hg
  · cases hg

theorem v1Persist_keeps (l : Lease) (claimed : VerificationTaskRecord)
    (c : CompletionTransition) (dbNow : Timestamp) :
    ((TaskStatement.v1Persist l claimed c dbNow).update db).Keeps := by
  simp only [TaskStatement.update]
  split
  · rename_i task htask
    exact V1.persistTransition_keeps l dbNow (CompletionTransition.apply_valid htask)
  · exact skip_keeps

theorem drainExpire_keeps (l : JobLease) (id : TaskId)
    (status : PaymentRequestStatus) (n : ℕ) (now : Timestamp) :
    ((TaskStatement.drainExpire l id status n now).update db).Keeps := by
  simp only [TaskStatement.update]
  split
  · rename_i reason h
    exact Drain.persistExpired_keeps db l id now (classifyPaymentTask_reason h).2
  · exact skip_keeps

theorem expireUnresolved_keeps (l : JobLease) (now : Timestamp) :
    ((TaskStatement.expireUnresolved l now).update db).Keeps := by
  simp only [TaskStatement.update]
  split
  · exact Deletion.expireUnresolved_keeps db l.jobId now
  · exact skip_keeps

theorem update_keeps (st : TaskStatement) (h : ∀ l, st ≠ .graphRelease l) :
    (st.update db).Keeps := by
  cases st with
  | v1Claim l now e dbNow => exact V1.claimNext_keeps l now e dbNow
  | v1Retry l now next dbNow => exact V1.scheduleRetry_keeps l now next dbNow
  | v1Persist l claimed c dbNow => exact v1Persist_keeps db l claimed c dbNow
  | invoiceClaim l ttl dbNow => exact claimNext_keeps l ttl dbNow
  | invoiceReady l created deadline dbNow => exact markReady_keeps l created deadline dbNow
  | invoiceRetry l retryAfter dbNow => exact scheduleRetry_keeps l retryAfter dbNow
  | invoiceFail l message dbNow => exact markFailed_keeps l message dbNow
  | graphClaim l now e dbNow => exact Graph.claimNext_keeps db l now e dbNow
  | graphPersist l n next k dbNow => exact Graph.persist_keeps db l n next k dbNow
  | graphRetry l n next now due dbNow => exact Graph.scheduleRetry_keeps db l n next now due dbNow
  | graphRelease l => exact absurd rfl (h l)
  | graphComplete l n k dbNow => exact Graph.complete_keeps db l n k dbNow
  | paymentClaim l now e dbNow => exact claimNext_keeps db l now e dbNow
  | paymentPersist l n input k dbNow => exact paymentPersist_keeps db l n input k dbNow
  | paymentRetry l n input dbNow => exact paymentRetry_keeps db l n input dbNow
  | paymentRelease l => exact release_keeps db l
  | paymentComplete l n k dbNow => exact complete_keeps db l n k dbNow
  | drainBegin l id e k now => exact Drain.beginPublication_keeps db l id e k now
  | drainComplete l id k now => exact Drain.persistCompleted_keeps db l id k now
  | drainExpire l id status n now => exact drainExpire_keeps db l id status n now
  | freeze jobId c l => exact Deletion.freeze_keeps jobId c l
  | expireUnresolved l now => exact expireUnresolved_keeps db l now

end

/-- **The lifecycle constraint.**  A statement that matches an allowed row
    takes it to an allowed row, unless it releases a graph claim on a row that
    it sets back to pending: that row keeps its `started_at`, and the table
    refuses the update. -/
theorem stateCheck_update_iff (db : Database) (st : TaskStatement) (r : TaskRow)
    (hr : r.stateCheck) (hg : (st.update db).guard r) :
    ((st.update db).set r).stateCheck ↔ ¬ st.reopensGraphTask r := by
  by_cases h : ∃ l, st = .graphRelease l
  · obtain ⟨l, rfl⟩ := h
    exact Graph.release_check_iff l hr
  · refine iff_of_true (update_keeps db st (fun l hl => h ⟨l, hl⟩) r hr hg) ?_
    cases st with
    | graphRelease l => exact absurd ⟨l, rfl⟩ h
    | _ => simp [TaskStatement.reopensGraphTask]

/-- A worker claims the inserted task and gives the claim back: the row it
    holds is allowed, and the table refuses the row the release would leave. -/
theorem graphRelease_refused : let l : Lease := ⟨⟨⟨1⟩⟩, "worker", ⟨2⟩⟩
    let claim := (TaskStatement.graphClaim l 0 (Duration.seconds 60) 1).update .empty
    let release := (TaskStatement.graphRelease l).update .empty
    let inserted := Graph.newRow ⟨⟨1⟩⟩ admittedGraphSnapshot
    inserted.stateCheck ∧ claim.guard inserted ∧ (claim.set inserted).stateCheck ∧
      release.guard (claim.set inserted) ∧ ¬ (release.set (claim.set inserted)).stateCheck := by
  decide

/-- The claim before it keeps the state check. -/
theorem graphClaim_allowed : let l : Lease := ⟨⟨⟨1⟩⟩, "worker", ⟨2⟩⟩
    let claim := (TaskStatement.graphClaim l 0 (Duration.seconds 60) 1).update .empty
    (claim.set (Graph.newRow ⟨⟨1⟩⟩ admittedGraphSnapshot)).stateCheck :=
  (stateCheck_update_iff .empty (.graphClaim ⟨⟨⟨1⟩⟩, "worker", ⟨2⟩⟩ 0 (Duration.seconds 60) 1)
    (Graph.newRow ⟨⟨1⟩⟩ admittedGraphSnapshot) (by decide) (by decide)).2 (by decide)

end PubkyLocks
