/-
  Rows of the table `verification_tasks` (migrations 0001 to 0031).

  The columns `evaluator_mode` and `evaluator_snapshot` are one field: the CHECK
  `verification_tasks_evaluator_snapshot_shape` sets both or neither, and the
  mode says how the snapshot is decoded.
-/
import PubkyLocks.Tasks.GraphSnapshot
import PubkyLocks.Tasks.PaymentSnapshot

namespace PubkyLocks

/-! ## Columns -/

inductive InvoiceAdmissionPhase where
  | ready
  | invoicePending
  | failed
deriving DecidableEq, Repr

def INVOICE_ADMISSION_INTENT_VERSION : ℕ := 1

/-- `InvoiceAdmissionIntentV1`: the inputs of the invoice of a version-1 task. -/
structure InvoiceAdmissionIntentV1 where
  version : ℕ
  creator : CreatorPubky
  bundleId : BundleId
  lockResource : PubkyLockResource
  reader : CreatorPubky
  paymentIn : ℕ
deriving DecidableEq

inductive EvaluatorSnapshot where
  | graph (snapshot : GraphTaskSnapshotV1)
  | payment (snapshot : PaymentTaskSnapshotV1)
deriving DecidableEq

/-- A row of `verification_tasks`.  Its JSONB columns are taken to give back what was
    stored, which for a version-1 bundle is the assumption `bundle.readBack E = bundle`;
    the other columns hold no arbitrary JSON. -/
structure TaskRow where
  taskId : TaskId
  creator : CreatorPubky
  bundleId : BundleId
  status : VerificationTaskStatus
  submittedProofBundle : SubmittedProofBundlePayload
  submittedAt : Timestamp
  startedAt : Option Timestamp
  completedAt : Option Timestamp
  failureMessage : Option String
  terminalReason : Option VerificationTerminalReason
  entitlementToPublish : Option VerifiedProofBundlePayload
  claimedBy : Option String
  claimToken : Option Uuid
  claimExpiresAt : Option Timestamp
  nextAttemptAt : Option Timestamp
  invoiceAdmissionPhase : InvoiceAdmissionPhase
  invoiceAdmissionIntent : Option InvoiceAdmissionIntentV1
  admissionDeadlineAt : Option Timestamp
  invoiceCreatedAt : Option Timestamp
  paymentDeadline : Option Timestamp
  evaluator : Option EvaluatorSnapshot
  evaluatorRevision : ℕ
  entitlementPublicationClaimToken : Option Uuid
  deletionJobId : Option Uuid
deriving DecidableEq

namespace TaskRow

/-- An inserted row: every column the insert does not name is NULL or has its
    default. -/
def inserted (taskId : TaskId) (creator : CreatorPubky) (bundleId : BundleId)
    (submittedProofBundle : SubmittedProofBundlePayload) (submittedAt : Timestamp)
    (evaluator : Option EvaluatorSnapshot) : TaskRow where
  taskId := taskId
  creator := creator
  bundleId := bundleId
  status := .pending
  submittedProofBundle := submittedProofBundle
  submittedAt := submittedAt
  startedAt := none
  completedAt := none
  failureMessage := none
  terminalReason := none
  entitlementToPublish := none
  claimedBy := none
  claimToken := none
  claimExpiresAt := none
  nextAttemptAt := none
  invoiceAdmissionPhase := .ready
  invoiceAdmissionIntent := none
  admissionDeadlineAt := none
  invoiceCreatedAt := none
  paymentDeadline := none
  evaluator := evaluator
  evaluatorRevision := 0
  entitlementPublicationClaimToken := none
  deletionJobId := none

/-- The lock resource of the submitted bundle, `submitted_proof_bundle->>'pubky_lock_resource'`. -/
def resource (r : TaskRow) : PubkyLockResource := r.submittedProofBundle.pubkyLockResource

/-- The version-1 lane: `evaluator_mode IS NULL AND evaluator_snapshot IS NULL`. -/
def isV1 (r : TaskRow) : Bool := r.evaluator.isNone

/-- `evaluator_mode = 'graph'`, with the root of the snapshot. -/
def graphRoot? (r : TaskRow) : Option GraphRootState :=
  match r.evaluator with
  | some (.graph s) => some s.root
  | _ => none

/-- `evaluator_mode = 'payment'`, with the root of the snapshot. -/
def paymentRoot? (r : TaskRow) : Option PaymentRootState :=
  match r.evaluator with
  | some (.payment s) => some s.root
  | _ => none

/-- `evaluator_mode = 'payment'`. -/
def isPayment (r : TaskRow) : Bool := r.paymentRoot?.isSome

/-- `evaluator_mode = 'graph'`. -/
def isGraph (r : TaskRow) : Bool := r.graphRoot?.isSome

/-- One of the submitted proofs is for the Paykit verifier; a version-2 bundle
    has no `proofs`. -/
def hasPaykitProof (r : TaskRow) : Bool :=
  match r.submittedProofBundle with
  | .v1 b => b.proofs.any fun p => p.verifierType == .paykitPayment
  | .v2 _ => false

/-! ## Claims -/

def claimsNull (r : TaskRow) : Bool :=
  r.claimedBy.isNone && r.claimToken.isNone && r.claimExpiresAt.isNone

def claimsSet (r : TaskRow) : Bool :=
  r.claimedBy.isSome && r.claimToken.isSome && r.claimExpiresAt.isSome

def claimedAs (r : TaskRow) (worker : String) (token : Uuid) : Bool :=
  r.claimedBy == some worker && r.claimToken == some token

/-- The worker holds the claim and its lease runs at `now`. -/
def liveClaim (r : TaskRow) (worker : String) (token : Uuid) (now : Timestamp) : Bool :=
  r.claimedAs worker token && r.claimExpiresAt.any (· > now)

def setClaim (r : TaskRow) (worker : String) (token : Uuid) (expiresAt : Timestamp) : TaskRow :=
  { r with claimedBy := some worker, claimToken := some token, claimExpiresAt := some expiresAt,
           nextAttemptAt := none }

def clearClaims (r : TaskRow) : TaskRow :=
  { r with claimedBy := none, claimToken := none, claimExpiresAt := none }

/-- `CASE WHEN retain THEN column ELSE NULL END` for the claim columns. -/
def retainClaims (r : TaskRow) (retain : Bool) : TaskRow :=
  if retain then r else r.clearClaims

/-- A column that is NULL or not after `now`. -/
def dueBy (t : Option Timestamp) (now : Timestamp) : Bool := t.all (· ≤ now)

/-- A column that is set and not after `now`: SQL's `column <= now`. -/
def passedBy (t : Option Timestamp) (now : Timestamp) : Bool := t.any (· ≤ now)

@[simp] theorem claimsSet_setClaim (r : TaskRow) (w : String) (k : Uuid) (e : Timestamp) :
    (r.setClaim w k e).claimsSet = true := rfl

@[simp] theorem claimsNull_clearClaims (r : TaskRow) : r.clearClaims.claimsNull = true := rfl

/-! ## Constraints -/

/-- Neither completed nor failed, and no terminal reason. -/
def unfinished (r : TaskRow) : Bool :=
  r.completedAt.isNone && r.failureMessage.isNone && r.terminalReason.isNone

/-- The message and reason columns of a failed task: a message that is not
    blank for `BTRIM`, or a reason of a failure. -/
def failureShape (r : TaskRow) : Bool :=
  (r.failureMessage.any (fun m => Text.btrim m != "") && r.terminalReason.isNone) ||
    (r.failureMessage.isNone && r.terminalReason.any (·.ofFailed))

/-- The message and reason columns of an expired task. -/
def expiryShape (r : TaskRow) : Bool :=
  r.failureMessage.isNone && r.terminalReason.any (·.ofExpired)

def stateCheck (r : TaskRow) : Bool :=
  match r.status with
  | .pending =>
    r.startedAt.isNone && r.unfinished && r.entitlementToPublish.isNone &&
      (r.claimsNull || (r.invoiceAdmissionPhase == .invoicePending && r.claimsSet))
  | .inProgress =>
    r.startedAt.isSome && r.unfinished && r.entitlementToPublish.isNone &&
      (r.claimsNull || r.claimsSet)
  | .publishingEntitlement =>
    r.startedAt.isSome && r.unfinished && r.entitlementToPublish.isSome &&
      (r.claimsNull || r.claimsSet)
  | .completed =>
    r.startedAt.isSome && r.completedAt.isSome && r.failureMessage.isNone &&
      r.terminalReason.isNone && r.entitlementToPublish.isSome && r.claimsNull
  | .failed =>
    r.startedAt.isSome && r.completedAt.isSome && r.failureShape &&
      r.entitlementToPublish.isNone && r.claimsNull
  | .expired =>
    r.startedAt.isSome && r.completedAt.isSome && r.expiryShape &&
      r.entitlementToPublish.isNone && r.claimsNull

def invoiceCheck (r : TaskRow) : Bool :=
  match r.invoiceAdmissionPhase with
  | .invoicePending =>
    r.invoiceAdmissionIntent.isSome && r.admissionDeadlineAt.isSome && r.status == .pending
  | .ready => r.invoiceAdmissionIntent.isSome == r.admissionDeadlineAt.isSome
  | .failed =>
    r.invoiceAdmissionIntent.isSome && r.admissionDeadlineAt.isSome && r.status == .failed

def windowCheck (r : TaskRow) : Bool :=
  match r.invoiceCreatedAt, r.paymentDeadline with
  | none, none => true
  | some created, some deadline =>
    r.invoiceAdmissionPhase == .ready && r.invoiceAdmissionIntent.isSome && created < deadline
  | _, _ => false

/-- A statement whose result violates a CHECK of the table is refused. -/
def checks (r : TaskRow) : Bool := r.stateCheck && r.invoiceCheck && r.windowCheck

variable {r : TaskRow}

theorem stateCheck_pending (h : r.status = .pending) :
    r.stateCheck ↔ r.startedAt.isNone ∧ r.unfinished ∧ r.entitlementToPublish.isNone ∧
      (r.claimsNull ∨ r.invoiceAdmissionPhase = .invoicePending ∧ r.claimsSet) := by
  simp only [stateCheck, h, Bool.and_eq_true, Bool.or_eq_true, beq_iff_eq, and_assoc]

theorem stateCheck_inProgress (h : r.status = .inProgress) :
    r.stateCheck ↔ r.startedAt.isSome ∧ r.unfinished ∧ r.entitlementToPublish.isNone ∧
      (r.claimsNull ∨ r.claimsSet) := by
  simp only [stateCheck, h, Bool.and_eq_true, Bool.or_eq_true, and_assoc]

theorem stateCheck_publishing (h : r.status = .publishingEntitlement) :
    r.stateCheck ↔ r.startedAt.isSome ∧ r.unfinished ∧ r.entitlementToPublish.isSome ∧
      (r.claimsNull ∨ r.claimsSet) := by
  simp only [stateCheck, h, Bool.and_eq_true, Bool.or_eq_true, and_assoc]

theorem stateCheck_completed (h : r.status = .completed) :
    r.stateCheck ↔ r.startedAt.isSome ∧ r.completedAt.isSome ∧ r.failureMessage.isNone ∧
      r.terminalReason.isNone ∧ r.entitlementToPublish.isSome ∧ r.claimsNull := by
  simp only [stateCheck, h, Bool.and_eq_true, and_assoc]

theorem stateCheck_failed (h : r.status = .failed) :
    r.stateCheck ↔ r.startedAt.isSome ∧ r.completedAt.isSome ∧ r.failureShape ∧
      r.entitlementToPublish.isNone ∧ r.claimsNull := by
  simp only [stateCheck, h, Bool.and_eq_true, and_assoc]

theorem stateCheck_expired (h : r.status = .expired) :
    r.stateCheck ↔ r.startedAt.isSome ∧ r.completedAt.isSome ∧ r.expiryShape ∧
      r.entitlementToPublish.isNone ∧ r.claimsNull := by
  simp only [stateCheck, h, Bool.and_eq_true, and_assoc]

theorem stateCheck_clearClaims (h : r.stateCheck) : r.clearClaims.stateCheck := by
  cases hs : r.status with
  | pending =>
    obtain ⟨hst, hu, he, -⟩ := (stateCheck_pending hs).1 h
    exact (stateCheck_pending (r := r.clearClaims) hs).2 ⟨hst, hu, he, .inl rfl⟩
  | inProgress =>
    obtain ⟨hst, hu, he, -⟩ := (stateCheck_inProgress hs).1 h
    exact (stateCheck_inProgress (r := r.clearClaims) hs).2 ⟨hst, hu, he, .inl rfl⟩
  | publishingEntitlement =>
    obtain ⟨hst, hu, he, -⟩ := (stateCheck_publishing hs).1 h
    exact (stateCheck_publishing (r := r.clearClaims) hs).2 ⟨hst, hu, he, .inl rfl⟩
  | completed =>
    obtain ⟨hst, hc, hf, ht, he, -⟩ := (stateCheck_completed hs).1 h
    exact (stateCheck_completed (r := r.clearClaims) hs).2 ⟨hst, hc, hf, ht, he, rfl⟩
  | failed =>
    obtain ⟨hst, hc, hf, he, -⟩ := (stateCheck_failed hs).1 h
    exact (stateCheck_failed (r := r.clearClaims) hs).2 ⟨hst, hc, hf, he, rfl⟩
  | expired =>
    obtain ⟨hst, hc, hf, he, -⟩ := (stateCheck_expired hs).1 h
    exact (stateCheck_expired (r := r.clearClaims) hs).2 ⟨hst, hc, hf, he, rfl⟩

theorem claimsNull_of_terminal (h : r.stateCheck) (ht : r.status.isTerminal) : r.claimsNull := by
  cases hs : r.status with
  | pending => rw [hs] at ht; cases ht
  | inProgress => rw [hs] at ht; cases ht
  | publishingEntitlement => rw [hs] at ht; cases ht
  | completed => exact ((stateCheck_completed hs).1 h).2.2.2.2.2
  | failed => exact ((stateCheck_failed hs).1 h).2.2.2.2
  | expired => exact ((stateCheck_expired hs).1 h).2.2.2.2

end TaskRow

/-! ## Updates -/

/-- One `UPDATE verification_tasks SET ... WHERE ...`, with the conditions
    under which the code issues it in `guard`. -/
structure TaskUpdate where
  guard : TaskRow → Bool
  set : TaskRow → TaskRow

def TaskUpdate.skip : TaskUpdate where
  guard _ := false
  set r := r

/-- An update whose values are computed from the row it is issued for. -/
def TaskUpdate.ofRow (f : TaskRow → TaskUpdate) : TaskUpdate where
  guard r := (f r).guard r
  set r := (f r).set r

/-- The update takes every row it matches and that the state check allows to a
    row the state check allows. -/
def TaskUpdate.Keeps (u : TaskUpdate) : Prop :=
  ∀ r : TaskRow, r.stateCheck → u.guard r → (u.set r).stateCheck

end PubkyLocks
