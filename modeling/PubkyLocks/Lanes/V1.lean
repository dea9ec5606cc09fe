/-
  The version-1 lane: the worker claims of `verification_task_claims.rs` and
  the invoice admissions of `verification_tasks.rs`, as updates of task rows.
-/
import PubkyLocks.Store.Row
import PubkyLocks.Tasks.PaymentDecisions

namespace PubkyLocks

open TaskRow VerificationTaskRecord

/-! ## Leases -/

/-- What a worker presents with every statement on a claimed task. -/
structure Lease where
  taskId : TaskId
  workerId : String
  claimToken : Uuid
deriving DecidableEq

def Lease.holds (l : Lease) (r : TaskRow) (now : Timestamp) : Bool :=
  r.taskId == l.taskId && r.liveClaim l.workerId l.claimToken now

/-- The row is the leased one, whether or not the lease still runs. -/
def Lease.names (l : Lease) (r : TaskRow) : Bool :=
  r.taskId == l.taskId && r.claimedAs l.workerId l.claimToken

theorem Lease.claimsSet_of_holds {l : Lease} {r : TaskRow} {now : Timestamp}
    (h : l.holds r now) : r.claimsSet := by
  simp only [holds, liveClaim, claimedAs, Bool.and_eq_true, beq_iff_eq] at h
  obtain ⟨-, ⟨hb, ht⟩, he⟩ := h
  obtain ⟨e, he, -⟩ := (Option.any_eq_true _ _).1 he
  simp [claimsSet, hb, ht, he]

/-! ## Completion of a claimed task -/

/-- The record of a version-1 row, if its handle columns match the bundle. -/
def TaskRow.recordFor (r : TaskRow) (b : SubmittedProofBundle) (e : Option VerifiedProofBundle) :
    Except ApplicationError VerificationTaskRecord :=
  if r.creator ≠ b.pubkyLockResource.creator ∨ r.bundleId ≠ b.bundleId then
    .error (.storage "verification task handle columns diverge from submitted proof bundle")
  else .ok
    { taskId := r.taskId, creator := r.creator, submittedProofBundle := b, status := r.status,
      submittedAt := r.submittedAt, startedAt := r.startedAt, completedAt := r.completedAt,
      failureMessage := r.failureMessage, terminalReason := r.terminalReason,
      entitlementToPublish := e }

def TaskRow.toRecord (r : TaskRow) : Except ApplicationError VerificationTaskRecord :=
  match r.submittedProofBundle, r.entitlementToPublish with
  | .v1 b, none => r.recordFor b none
  | .v1 b, some (.v1 e) => r.recordFor b (some e)
  | .v1 _, some (.v2 _) =>
    .error (.storage "deserialize entitlement publication payload from Postgres")
  | .v2 _, _ => .error (.storage "deserialize submitted proof bundle from Postgres")

structure TaskRow.ReadAs (r : TaskRow) (t : VerificationTaskRecord) : Prop where
  taskId : r.taskId = t.taskId
  submitted : r.submittedProofBundle = .v1 t.submittedProofBundle
  creator : r.creator = t.submittedProofBundle.pubkyLockResource.creator
  bundleId : r.bundleId = t.submittedProofBundle.bundleId
  status : r.status = t.status
  entitlement : r.entitlementToPublish = t.entitlementToPublish.map .v1

theorem TaskRow.readAs_of_toRecord {r : TaskRow} {t : VerificationTaskRecord}
    (h : r.toRecord = .ok t) : r.ReadAs t := by
  have hrecord : ∀ b e, r.submittedProofBundle = .v1 b →
      r.entitlementToPublish = e.map .v1 → r.recordFor b e = .ok t → r.ReadAs t := by
    intro b e hb he h
    unfold recordFor at h
    split at h
    · cases h
    · rename_i hhandle
      rw [not_or, not_not, not_not] at hhandle
      cases h
      exact ⟨rfl, hb, hhandle.1, hhandle.2, rfl, he⟩
  unfold toRecord at h
  split at h
  · rename_i hb he
    exact hrecord _ none hb he h
  · rename_i e hb he
    exact hrecord _ (some e) hb he h
  · cases h
  · cases h

/-- How `execute_claimed` ends: the verified entitlement is about to be
    published, it has been published, the task fails with a viewer-safe
    message, or the Paykit verifier ends it. -/
inductive CompletionTransition where
  | publish (entitlement : VerifiedProofBundle)
  | complete (at' : Timestamp)
  | fail (at' : Timestamp) (message : String)
  | expire (at' : Timestamp) (request : PaymentRequestState) (payment : PaymentState)
deriving DecidableEq

/-- The record `complete_verification_task` hands to the claimer. -/
def CompletionTransition.apply (t : VerificationTaskRecord) :
    CompletionTransition → Except ApplicationError VerificationTaskRecord
  | publish e => t.beginEntitlementPublication e
  | complete at' => t.completeEntitlementPublication at'
  | fail at' message => t.transitionTo .failed at' (some message)
  | expire at' request payment =>
    match paymentStatusReason request payment with
    | some reason => t.expire reason at'
    | none => .error .verificationTaskConflict

/-- A record the claimer may be asked to persist: valid, and expired only for
    a reason the table allows. -/
def VerificationTaskRecord.Persistable (t : VerificationTaskRecord) : Prop :=
  t.stateValid ∧ (t.status = .expired → t.terminalReason.any (·.ofExpired))

/-- **The completion of a claimed task only persists valid records.** -/
theorem CompletionTransition.apply_valid {c : CompletionTransition} {t t' : VerificationTaskRecord}
    (h : c.apply t = .ok t') : t'.Persistable := by
  cases c with
  | publish e =>
    obtain ⟨hv, hs⟩ := beginEntitlementPublication_valid h
    exact ⟨hv, fun he => by rw [hs] at he; cases he⟩
  | complete at' =>
    obtain ⟨hv, hs⟩ := completeEntitlementPublication_valid h
    exact ⟨hv, fun he => by rw [hs] at he; cases he⟩
  | fail at' message =>
    obtain ⟨hv, hs⟩ := transitionTo_failed_valid h
    exact ⟨hv, fun he => by rw [hs] at he; cases he⟩
  | expire at' request payment =>
    rw [apply] at h
    split at h
    · rename_i reason hr
      obtain ⟨hv, -, ht⟩ := expire_valid h
      exact ⟨hv, fun _ => by simpa [ht] using paymentStatusReason_ofExpired hr⟩
    · cases h

/-! ## The claimer -/

namespace V1

/-- The row of a Paykit task carries a complete invoice window. -/
def invoiceReady (r : TaskRow) : Bool :=
  match r.invoiceAdmissionIntent, r.invoiceCreatedAt, r.paymentDeadline with
  | some _, some created, some deadline => created < deadline
  | _, _, _ => false

/-- `claim_next_verification_task` on the row it selects. -/
def claimNext (l : Lease) (now claimExpiresAt dbNow : Timestamp) : TaskUpdate where
  guard r :=
    r.taskId == l.taskId &&
    ((r.status == .pending && TaskRow.dueBy r.nextAttemptAt dbNow) ||
      ((r.status == .inProgress || r.status == .publishingEntitlement) &&
        TaskRow.passedBy r.claimExpiresAt dbNow)) &&
    r.creator == r.resource.creator && r.bundleId == r.submittedProofBundle.bundleId &&
    r.invoiceAdmissionPhase == .ready && r.deletionJobId.isNone && r.isV1 &&
    (!r.hasPaykitProof || invoiceReady r)
  set r :=
    { r.setClaim l.workerId l.claimToken (dbNow + (claimExpiresAt - now)) with
      status := if r.status = .pending then .inProgress else r.status
      startedAt := some (r.startedAt.getD now) }

def scheduleRetry (l : Lease) (now nextAttemptAt dbNow : Timestamp) : TaskUpdate where
  guard r :=
    l.holds r dbNow && r.status == .inProgress && r.deletionJobId.isNone && r.isV1
  set r :=
    { r.clearClaims with
      status := .pending
      startedAt := none
      completedAt := none
      failureMessage := none
      nextAttemptAt := some (dbNow + (nextAttemptAt - now)) }

/-- The status a row must have for a transition to be persisted. -/
def expectedStatus : VerificationTaskStatus → Option VerificationTaskStatus
  | .publishingEntitlement | .failed | .expired => some .inProgress
  | .completed => some .publishingEntitlement
  | .pending | .inProgress => none

def persistTransition (l : Lease) (task : VerificationTaskRecord) (dbNow : Timestamp) :
    TaskUpdate where
  guard r :=
    l.holds r dbNow && task.taskId == l.taskId && expectedStatus task.status == some r.status &&
      r.deletionJobId.isNone && r.isV1
  set r :=
    { r.retainClaims (task.status == .publishingEntitlement) with
      status := task.status
      startedAt := task.startedAt
      completedAt := task.completedAt
      failureMessage := task.failureMessage
      terminalReason := task.terminalReason
      entitlementToPublish := task.entitlementToPublish.map .v1
      nextAttemptAt := none }

/-! ### The state check -/

theorem claimNext_keeps (l : Lease) (now claimExpiresAt dbNow : Timestamp) :
    (claimNext l now claimExpiresAt dbNow).Keeps := by
  intro r hr hg
  simp only [claimNext, Bool.and_eq_true, Bool.or_eq_true, beq_iff_eq] at hg
  obtain ⟨⟨⟨⟨⟨⟨⟨-, hs⟩, -⟩, -⟩, -⟩, -⟩, -⟩, -⟩ := hg
  rcases hs with ⟨hs, -⟩ | ⟨hs | hs, -⟩
  · obtain ⟨-, hu, he, -⟩ := (stateCheck_pending hs).1 hr
    refine (stateCheck_inProgress (by simp [claimNext, hs])).2 ⟨rfl, hu, he, .inr rfl⟩
  · obtain ⟨-, hu, he, -⟩ := (stateCheck_inProgress hs).1 hr
    refine (stateCheck_inProgress (by simp [claimNext, hs])).2 ⟨rfl, hu, he, .inr rfl⟩
  · obtain ⟨-, hu, he, -⟩ := (stateCheck_publishing hs).1 hr
    refine (stateCheck_publishing (by simp [claimNext, hs])).2 ⟨rfl, hu, he, .inr rfl⟩

theorem scheduleRetry_keeps (l : Lease) (now nextAttemptAt dbNow : Timestamp) :
    (scheduleRetry l now nextAttemptAt dbNow).Keeps := by
  intro r hr hg
  simp only [scheduleRetry, Bool.and_eq_true, beq_iff_eq] at hg
  obtain ⟨⟨⟨-, hs⟩, -⟩, -⟩ := hg
  obtain ⟨-, hu, he, -⟩ := (stateCheck_inProgress hs).1 hr
  simp only [unfinished, Bool.and_eq_true] at hu
  refine (stateCheck_pending rfl).2 ⟨rfl, ?_, he, .inl rfl⟩
  simpa [unfinished, scheduleRetry, clearClaims] using hu.2

theorem persistTransition_keeps (l : Lease) {task : VerificationTaskRecord} (dbNow : Timestamp)
    (ht : task.Persistable) : (persistTransition l task dbNow).Keeps := by
  intro r hr hg
  simp only [persistTransition, Bool.and_eq_true, beq_iff_eq] at hg
  obtain ⟨⟨⟨⟨hl, -⟩, hs⟩, -⟩, -⟩ := hg
  have hclaim := l.claimsSet_of_holds hl
  obtain ⟨hv, hreason⟩ := ht
  -- the result has the record's status; its columns are those the record's check allows
  cases hst : task.status with
  | pending => rw [hst] at hs; cases hs
  | inProgress => rw [hst] at hs; cases hs
  | publishingEntitlement =>
    simp only [stateValid, hst, Bool.and_eq_true] at hv
    refine (stateCheck_publishing hst).2 ⟨hv.1.1.1.1, ?_, ?_, .inr ?_⟩
    · simp [unfinished, persistTransition, hv]
    · simpa [persistTransition] using hv.2
    · simpa [persistTransition, claimsSet, retainClaims, hst] using hclaim
  | completed =>
    simp only [stateValid, hst, Bool.and_eq_true] at hv
    refine (stateCheck_completed hst).2
      ⟨hv.1.1.1.1, hv.1.1.1.2, hv.1.1.2, hv.1.2, ?_, ?_⟩
    · simpa [persistTransition] using hv.2
    · simp [persistTransition, claimsNull, retainClaims, clearClaims, hst]
  | failed =>
    simp only [stateValid, hst, Bool.and_eq_true] at hv
    obtain ⟨m, hm, hb⟩ := (Option.any_eq_true _ _).1 hv.1.1.2
    refine (stateCheck_failed hst).2 ⟨hv.1.1.1.1, hv.1.1.1.2, ?_, ?_, ?_⟩
    · have hne : Text.btrim m ≠ "" := Text.btrim_ne_empty (by simpa using hb)
      simp [failureShape, persistTransition, hm, hne, hv.1.2]
    · simpa [persistTransition] using hv.2
    · simp [persistTransition, claimsNull, retainClaims, clearClaims, hst]
  | expired =>
    simp only [stateValid, hst, Bool.and_eq_true] at hv
    refine (stateCheck_expired hst).2 ⟨hv.1.1.1.1, hv.1.1.1.2, ?_, ?_, ?_⟩
    · simpa [expiryShape, persistTransition, hv.1.1.2] using hreason hst
    · simpa [persistTransition] using hv.2
    · simp [persistTransition, claimsNull, retainClaims, clearClaims, hst]

end V1

/-! ## Invoice admissions -/

namespace Invoice

def awaiting (r : TaskRow) : Bool :=
  r.invoiceAdmissionPhase == .invoicePending && r.status == .pending

/-- `claim_next_invoice_admission` on the row it selects. -/
def claimNext (l : Lease) (claimTtl : Duration) (dbNow : Timestamp) : TaskUpdate where
  guard r :=
    r.taskId == l.taskId && awaiting r &&
      TaskRow.passedBy (r.nextAttemptAt.or r.claimExpiresAt) dbNow &&
      TaskRow.dueBy r.claimExpiresAt dbNow
  set r := r.setClaim l.workerId l.claimToken (dbNow + claimTtl)

def markReady (l : Lease) (invoiceCreatedAt paymentDeadline dbNow : Timestamp) : TaskUpdate where
  guard r := invoiceCreatedAt < paymentDeadline && l.holds r dbNow && awaiting r
  set r :=
    { r.clearClaims with
      invoiceAdmissionPhase := .ready
      invoiceCreatedAt := some invoiceCreatedAt
      paymentDeadline := some paymentDeadline
      nextAttemptAt := none }

def scheduleRetry (l : Lease) (retryAfter : Duration) (dbNow : Timestamp) : TaskUpdate where
  guard r := l.holds r dbNow && awaiting r && r.admissionDeadlineAt.any (· > dbNow)
  set r :=
    { r.clearClaims with
      nextAttemptAt := some ((r.admissionDeadlineAt.map (min (dbNow + retryAfter))).getD
        (dbNow + retryAfter)) }

def markFailed (l : Lease) (failureMessage : String) (dbNow : Timestamp) : TaskUpdate where
  guard r :=
    Text.trim failureMessage != "" && r.resource.creator == r.creator && l.holds r dbNow &&
      awaiting r
  set r :=
    { r.clearClaims with
      invoiceAdmissionPhase := .failed
      status := .failed
      startedAt := some (r.startedAt.getD dbNow)
      completedAt := some dbNow
      failureMessage := some (Text.trim failureMessage)
      nextAttemptAt := none }

/-! ### The state check -/

theorem awaiting_iff {r : TaskRow} :
    awaiting r ↔ r.invoiceAdmissionPhase = .invoicePending ∧ r.status = .pending := by
  simp [awaiting]

theorem claimNext_keeps (l : Lease) (claimTtl : Duration) (dbNow : Timestamp) :
    (claimNext l claimTtl dbNow).Keeps := by
  intro r hr hg
  simp only [claimNext, Bool.and_eq_true, awaiting_iff] at hg
  obtain ⟨⟨⟨-, hphase, hs⟩, -⟩, -⟩ := hg
  obtain ⟨hst, hu, he, -⟩ := (stateCheck_pending hs).1 hr
  have hs' : ((claimNext l claimTtl dbNow).set r).status = .pending := hs
  exact (stateCheck_pending hs').2 ⟨hst, hu, he, .inr ⟨hphase, rfl⟩⟩

theorem markReady_keeps (l : Lease) (invoiceCreatedAt paymentDeadline dbNow : Timestamp) :
    (markReady l invoiceCreatedAt paymentDeadline dbNow).Keeps := by
  intro r hr hg
  simp only [markReady, Bool.and_eq_true, awaiting_iff] at hg
  obtain ⟨-, -, hs⟩ := hg
  obtain ⟨hst, hu, he, -⟩ := (stateCheck_pending hs).1 hr
  have hs' : ((markReady l invoiceCreatedAt paymentDeadline dbNow).set r).status = .pending := hs
  exact (stateCheck_pending hs').2 ⟨hst, hu, he, .inl rfl⟩

theorem scheduleRetry_keeps (l : Lease) (retryAfter : Duration) (dbNow : Timestamp) :
    (scheduleRetry l retryAfter dbNow).Keeps := by
  intro r hr hg
  simp only [scheduleRetry, Bool.and_eq_true, awaiting_iff] at hg
  obtain ⟨⟨-, -, hs⟩, -⟩ := hg
  obtain ⟨hst, hu, he, -⟩ := (stateCheck_pending hs).1 hr
  have hs' : ((scheduleRetry l retryAfter dbNow).set r).status = .pending := hs
  exact (stateCheck_pending hs').2 ⟨hst, hu, he, .inl rfl⟩

theorem markFailed_keeps (l : Lease) (failureMessage : String) (dbNow : Timestamp) :
    (markFailed l failureMessage dbNow).Keeps := by
  intro r hr hg
  simp only [markFailed, Bool.and_eq_true, awaiting_iff, bne_iff_ne] at hg
  obtain ⟨⟨⟨hm, -⟩, -⟩, -, hs⟩ := hg
  obtain ⟨-, hu, he, -⟩ := (stateCheck_pending hs).1 hr
  simp only [unfinished, Bool.and_eq_true] at hu
  refine (stateCheck_failed rfl).2 ⟨rfl, rfl, ?_, he, rfl⟩
  have hne : Text.btrim (Text.trim failureMessage) ≠ "" :=
    Text.btrim_ne_empty (Text.trim_trim_ne_empty hm)
  simpa [failureShape, markFailed, clearClaims, hne] using hu.2

end Invoice

end PubkyLocks
