/-
  The lifecycle of a version-2 task, as the server reports it and as the SDK
  reads it (`locks-server/src/api/dtos.rs`, `locks-sdk/src/graph.rs` and
  `locks-sdk/src/payment.rs`).

  The server builds one response for both lanes: the status of the record, its
  times, and the reason of the root if the root leads to that status.  The SDK
  parses it with one parser per lane, each with its own table of the statuses,
  completion times and reasons that go together.
-/
import PubkyLocks.Core.Wire
import PubkyLocks.Store.Lifecycles

namespace PubkyLocks

open TaskRow Checks

open Decode (required optional shaped slot variant parsed)

/-! ## The server's response -/

/-- The formatter and the parsers of third-party code. -/
structure LifecycleCodec extends Codec where
  /-- `time::serde::rfc3339::serialize`. -/
  formatRfc3339 : Timestamp → String

/-- `GraphVerificationTaskLifecycleHttpResponse`, of both lanes. -/
structure LifecycleHttpResponse where
  creator : CreatorPubky
  bundleId : BundleId
  status : VerificationTaskStatus
  submittedAt : Timestamp
  completedAt : Option Timestamp
  admissionDeadlineAt : Timestamp
  terminalReason : Option VerificationTerminalReason

namespace LifecycleHttpResponse

/-- The reason of a root that leads to the status of the record. -/
def reasonFor (status : VerificationTaskStatus) (terminalStatus : Option VerificationTaskStatus)
    (terminalReason : Option VerificationTerminalReason) : Option VerificationTerminalReason :=
  if terminalStatus = some status then terminalReason else none

/-- `From<&GraphTaskRecord>`. -/
def ofGraphTask (task : GraphTaskRecord) : LifecycleHttpResponse where
  creator := task.snapshot.creator
  bundleId := task.snapshot.bundleId
  status := task.status
  submittedAt := task.snapshot.acceptedAt
  completedAt := task.completedAt
  admissionDeadlineAt := task.snapshot.deadlineAt
  terminalReason := reasonFor task.status task.snapshot.root.terminalStatus
    task.snapshot.root.terminalReason

/-- `From<&PaymentTaskRecord>`. -/
def ofPaymentTask (task : PaymentTaskRecord) : LifecycleHttpResponse where
  creator := task.snapshot.creator
  bundleId := task.snapshot.bundleId
  status := task.status
  submittedAt := task.snapshot.acceptedAt
  completedAt := task.completedAt
  admissionDeadlineAt := task.snapshot.deadlineAt
  terminalReason := reasonFor task.status task.snapshot.root.terminalStatus
    task.snapshot.root.terminalReason

end LifecycleHttpResponse

/-- `serialize_task_status`: a publication is shown as a task in progress. -/
def serializeTaskStatus : VerificationTaskStatus → String
  | .pending => "pending"
  | .inProgress | .publishingEntitlement => "in_progress"
  | .completed => "completed"
  | .failed => "failed"
  | .expired => "expired"

/-- The JSON body; absent times and reasons are left out.  An object lists its
    fields in the order of their names. -/
def LifecycleHttpResponse.toJson (C : LifecycleCodec) (b : LifecycleHttpResponse) : Json :=
  .obj (
    [("admission_deadline_at", .str (C.formatRfc3339 b.admissionDeadlineAt)),
      ("bundle_id", .str b.bundleId.text)] ++
    (b.completedAt.map fun t => ("completed_at", Json.str (C.formatRfc3339 t))).toList ++
    [("creator", .str b.creator.text),
      ("status", .str (serializeTaskStatus b.status)),
      ("submitted_at", .str (C.formatRfc3339 b.submittedAt))] ++
    (b.terminalReason.map fun r => ("terminal_reason", Json.str r.asStr)).toList)

/-! ## The SDK's parsers -/

/-- `LocksSdkError::InvalidResponse`; the texts of `serde_json` are not
    modelled. -/
inductive LocksSdkError where
  | invalidResponse (message : String)
  | undecodable
deriving DecidableEq, Repr

/-- `GraphVerificationTaskLifecycleResponse` and
    `PaymentVerificationTaskLifecycleResponse`. -/
structure LifecycleResponse where
  creator : CreatorPubky
  bundleId : BundleId
  status : VerificationTaskStatus
  submittedAt : Timestamp
  completedAt : Option Timestamp
  admissionDeadlineAt : Timestamp
  terminalReason : Option VerificationTerminalReason
deriving DecidableEq

section
variable (C : Codec)

def parseCrockfordId (encodedLen decodedLen : ℕ) (value : String) : Option String :=
  if value.utf8ByteSize ≠ encodedLen ∨ value.toList.contains '-' then none
  else ((C.crockfordDecode value).filter (·.length = decodedLen)).map crockfordEncode

def decodeBundleId : Json → Option BundleId :=
  parsed fun value => (parseCrockfordId C 26 16 value).map .mk

/-- `VerificationTaskStatus::deserialize` of the SDK. -/
def decodeTaskStatus : Json → Option VerificationTaskStatus :=
  variant [("pending", .pending), ("in_progress", .inProgress),
    ("publishing_entitlement", .publishingEntitlement), ("completed", .completed),
    ("failed", .failed), ("expired", .expired)]

/-- `VerificationTerminalReason::deserialize` of the SDK. -/
def decodeTerminalReason : Json → Option VerificationTerminalReason :=
  variant [("payment_request_rejected", .paymentRequestRejected),
    ("payment_request_canceled", .paymentRequestCanceled),
    ("proposal_expired", .proposalExpired),
    ("payment_deadline_expired", .paymentDeadlineExpired),
    ("content_lock_deleted", .contentLockDeleted),
    ("graph_condition_not_observed_by_deadline", .graphConditionNotObservedByDeadline),
    ("verification_unavailable_by_deadline", .verificationUnavailableByDeadline),
    ("invalid_verifier_response", .invalidVerifierResponse),
    ("verification_conflict", .verificationConflict)]

def lifecycleFields : List String :=
  ["creator", "bundle_id", "status", "submitted_at", "completed_at", "admission_deadline_at",
    "terminal_reason"]

/-- The derived decoder of the two responses; the one of the graph lane denies
    unknown fields. -/
def decodeLifecycle (denyUnknownFields : Bool) (j : Json) : Option LifecycleResponse :=
  if shaped denyUnknownFields lifecycleFields 1 j then do
    let field (name : String) := slot lifecycleFields name j
    let creator ← required (decodeCreatorPubky C) (field "creator")
    let bundleId ← required (decodeBundleId C) (field "bundle_id")
    let status ← required decodeTaskStatus (field "status")
    let submittedAt ← required (parsed C.parseRfc3339) (field "submitted_at")
    let completedAt ← optional (parsed C.parseRfc3339) (field "completed_at")
    let admissionDeadlineAt ← required (parsed C.parseRfc3339) (field "admission_deadline_at")
    let terminalReason ← optional decodeTerminalReason (field "terminal_reason")
    pure { creator, bundleId, status, submittedAt, completedAt, admissionDeadlineAt,
           terminalReason }
  else none

def rejectNull (j : Json) (name : String) : Except LocksSdkError Unit :=
  refuse (j.field? name = some .null)
    (.invalidResponse (name ++ " must be omitted rather than null"))

def SECRET_BEARING_RESPONSE_FIELDS : List String :=
  ["task_id", "credential", "credential_issuance", "submitted_proof_bundle", "proofs",
    "entitlement", "verified_proof_bundle", "entitlement_to_publish"]

def rejectField (j : Json) (name : String) : Except LocksSdkError Unit :=
  refuse (j.field? name).isSome
    (.invalidResponse ("response carries forbidden field `" ++ name ++ "`"))

/-- The table of statuses of a lane: for each terminal status without an
    entitlement, the reasons that go with it. -/
def validStatusFields (ofExpired ofFailed : VerificationTerminalReason → Bool)
    (status : VerificationTaskStatus) (hasCompletedAt : Bool)
    (terminalReason : Option VerificationTerminalReason) : Bool :=
  match status with
  | .pending | .inProgress | .publishingEntitlement => !hasCompletedAt && terminalReason.isNone
  | .completed => hasCompletedAt && terminalReason.isNone
  | .expired => hasCompletedAt && terminalReason.any ofExpired
  | .failed => hasCompletedAt && terminalReason.any ofFailed

def validGraphStatusFields : VerificationTaskStatus → Bool → Option VerificationTerminalReason →
    Bool :=
  validStatusFields (· == .graphConditionNotObservedByDeadline)
    fun r => r == .verificationUnavailableByDeadline || r == .invalidVerifierResponse

/-- The table in `parse_payment_lifecycle_response`. -/
def validPaymentStatusFields : VerificationTaskStatus → Bool → Option VerificationTerminalReason →
    Bool :=
  validStatusFields
    (fun r => r == .paymentRequestRejected || r == .paymentRequestCanceled ||
      r == .proposalExpired || r == .paymentDeadlineExpired || r == .contentLockDeleted)
    fun r => r == .verificationUnavailableByDeadline || r == .invalidVerifierResponse ||
      r == .verificationConflict

/-- The fields of a response go together. -/
def LifecycleResponse.valid (table : VerificationTaskStatus → Bool →
    Option VerificationTerminalReason → Bool) (r : LifecycleResponse) : Bool :=
  table r.status r.completedAt.isSome r.terminalReason &&
    decide (r.submittedAt ≤ r.admissionDeadlineAt) && r.completedAt.all (r.submittedAt ≤ ·)

/-- A lifecycle parser: forbidden fields and nulls, the decoder, the table. -/
def parseLifecycle (forbidden : List String) (denyUnknownFields : Bool)
    (table : VerificationTaskStatus → Bool → Option VerificationTerminalReason → Bool)
    (message : String) (j : Json) : Except LocksSdkError LifecycleResponse := do
  checkAll (rejectField j) forbidden
  checkAll (rejectNull j) ["completed_at", "terminal_reason"]
  let response ← okOr (decodeLifecycle C denyUnknownFields j) .undecodable
  refuse (!response.valid table) (.invalidResponse message)
  pure response

def parseGraphLifecycleResponse : Json → Except LocksSdkError LifecycleResponse :=
  parseLifecycle C [] true validGraphStatusFields
    "invalid graph verification lifecycle field combination"

def parsePaymentLifecycleResponse : Json → Except LocksSdkError LifecycleResponse :=
  parseLifecycle C SECRET_BEARING_RESPONSE_FIELDS false validPaymentStatusFields
    "invalid payment verification lifecycle field combination"

end

/-! ## Reading a rendered response -/

def VerificationTaskStatus.shown : VerificationTaskStatus → VerificationTaskStatus
  | publishingEntitlement => inProgress
  | s => s

def LifecycleHttpResponse.shown (b : LifecycleHttpResponse) : LifecycleResponse where
  creator := b.creator
  bundleId := b.bundleId
  status := b.status.shown
  submittedAt := b.submittedAt
  completedAt := b.completedAt
  admissionDeadlineAt := b.admissionDeadlineAt
  terminalReason := b.terminalReason

/-- The parsers of third-party code read back the identifiers and the times of a
    response. -/
structure LifecycleCodec.Renders (C : LifecycleCodec) (b : LifecycleHttpResponse) : Prop where
  creator : C.parsePubky b.creator.text = some b.creator.text
  bundleId : parseCrockfordId C.toCodec 26 16 b.bundleId.text = some b.bundleId.text
  submittedAt : C.parseRfc3339 (C.formatRfc3339 b.submittedAt) = some b.submittedAt
  completedAt : ∀ t, b.completedAt = some t → C.parseRfc3339 (C.formatRfc3339 t) = some t
  admissionDeadlineAt :
    C.parseRfc3339 (C.formatRfc3339 b.admissionDeadlineAt) = some b.admissionDeadlineAt

theorem decodeTaskStatus_serialize (s : VerificationTaskStatus) :
    decodeTaskStatus (.str (serializeTaskStatus s)) = some s.shown := by
  cases s <;> rfl

theorem decodeTerminalReason_asStr (r : VerificationTerminalReason) :
    decodeTerminalReason (.str r.asStr) = some r := by
  cases r <;> rfl

variable {C : LifecycleCodec} {b : LifecycleHttpResponse}

theorem slot_toJson (C : LifecycleCodec) (b : LifecycleHttpResponse) :
    slot lifecycleFields "creator" (b.toJson C) = some (.str b.creator.text) ∧
    slot lifecycleFields "bundle_id" (b.toJson C) = some (.str b.bundleId.text) ∧
    slot lifecycleFields "status" (b.toJson C) = some (.str (serializeTaskStatus b.status)) ∧
    slot lifecycleFields "submitted_at" (b.toJson C) =
      some (.str (C.formatRfc3339 b.submittedAt)) ∧
    slot lifecycleFields "completed_at" (b.toJson C) =
      b.completedAt.map (fun t => .str (C.formatRfc3339 t)) ∧
    slot lifecycleFields "admission_deadline_at" (b.toJson C) =
      some (.str (C.formatRfc3339 b.admissionDeadlineAt)) ∧
    slot lifecycleFields "terminal_reason" (b.toJson C) =
      b.terminalReason.map (fun r => .str r.asStr) := by
  obtain ⟨creator, bundleId, status, submittedAt, _ | t, deadlineAt, _ | r⟩ := b <;>
    exact ⟨rfl, rfl, rfl, rfl, rfl, rfl, rfl⟩

theorem shaped_toJson (C : LifecycleCodec) (b : LifecycleHttpResponse) (deny : Bool) :
    shaped deny lifecycleFields 1 (b.toJson C) := by
  obtain ⟨creator, bundleId, status, submittedAt, _ | t, deadlineAt, _ | r⟩ := b <;>
    cases deny <;> rfl

/-- **A rendered response is decoded** to what the server shows. -/
theorem decode_toJson (h : C.Renders b) (deny : Bool) :
    decodeLifecycle C.toCodec deny (b.toJson C) = some b.shown := by
  obtain ⟨hcreator, hbundle, hstatus, hsubmitted, hcompleted, hdeadline, hreason⟩ :=
    slot_toJson C b
  have hc : optional (parsed C.parseRfc3339)
      (b.completedAt.map fun t => .str (C.formatRfc3339 t)) = some b.completedAt := by
    cases ht : b.completedAt with
    | none => rfl
    | some t =>
      show ((C.parseRfc3339 (C.formatRfc3339 t)).map some) = _
      rw [h.completedAt t ht]
      rfl
  have hr : optional decodeTerminalReason
      (b.terminalReason.map fun r => .str r.asStr) = some b.terminalReason := by
    cases b.terminalReason with
    | none => rfl
    | some r =>
      show (decodeTerminalReason (.str r.asStr)).map some = _
      rw [decodeTerminalReason_asStr]
      rfl
  simp only [decodeLifecycle, shaped_toJson, if_true, hcreator, hbundle, hstatus, hsubmitted,
    hcompleted, hdeadline, hreason, hc, hr, required, Option.bind_some, decodeCreatorPubky,
    decodeBundleId, parsed, Decode.string, h.creator, h.bundleId, h.submittedAt,
    h.admissionDeadlineAt, decodeTaskStatus_serialize, Option.map_some]
  rfl

theorem rejectNull_toJson (C : LifecycleCodec) (b : LifecycleHttpResponse) :
    ∀ name ∈ ["completed_at", "terminal_reason"], rejectNull (b.toJson C) name = .ok () := by
  obtain ⟨creator, bundleId, status, submittedAt, _ | t, deadlineAt, _ | r⟩ := b <;>
    simp [rejectNull, Json.field?, LifecycleHttpResponse.toJson]

theorem rejectField_toJson (C : LifecycleCodec) (b : LifecycleHttpResponse) :
    ∀ name ∈ SECRET_BEARING_RESPONSE_FIELDS, rejectField (b.toJson C) name = .ok () := by
  obtain ⟨creator, bundleId, status, submittedAt, _ | t, deadlineAt, _ | r⟩ := b <;>
    simp [SECRET_BEARING_RESPONSE_FIELDS, rejectField, Json.field?, LifecycleHttpResponse.toJson]

theorem parseLifecycle_toJson (h : C.Renders b) {forbidden : List String} {deny : Bool}
    {table : VerificationTaskStatus → Bool → Option VerificationTerminalReason → Bool}
    {message : String} {response : LifecycleResponse}
    (hf : ∀ name ∈ forbidden, rejectField (b.toJson C) name = .ok ()) :
    parseLifecycle C.toCodec forbidden deny table message (b.toJson C) = .ok response ↔
      b.shown.valid table ∧ response = b.shown := by
  simp only [parseLifecycle, bind_eq_ok, checkAll_eq_ok, okOr_eq_ok,
    refuse_eq_ok, pure_eq_ok, decode_toJson h, Bool.not_eq_true',
    Bool.not_eq_false, Option.some.injEq]
  constructor
  · rintro ⟨-, -, -, -, _, rfl, -, hv, rfl⟩
    exact ⟨hv, rfl⟩
  · rintro ⟨hv, rfl⟩
    exact ⟨(), hf, (), rejectNull_toJson C b, _, rfl, (), hv, rfl⟩

/-! ## The rows behind the responses -/

/-- The table of the parser of the lane. -/
def EvaluatorSnapshot.validStatusFields : EvaluatorSnapshot → VerificationTaskStatus → Bool →
    Option VerificationTerminalReason → Bool
  | graph _ => validGraphStatusFields
  | payment _ => validPaymentStatusFields

structure LifecycleHttpResponse.Describes (b : LifecycleHttpResponse) (r : TaskRow)
    (e : EvaluatorSnapshot) : Prop where
  status : b.status = r.status
  completedAt : b.completedAt = r.completedAt
  submittedAt : b.submittedAt = e.acceptedAt
  deadline : b.submittedAt ≤ b.admissionDeadlineAt
  reason : b.terminalReason =
    LifecycleHttpResponse.reasonFor r.status e.terminalStatus e.terminalReason

/-- The SDK reads the status and the reason that the row stores. -/
def Agrees (parse : Json → Except LocksSdkError LifecycleResponse) (body : Json)
    (r : TaskRow) : Prop :=
  ∃ response, parse body = .ok response ∧ response.status = r.status ∧
    response.terminalReason = r.terminalReason

variable {r : TaskRow} {e : EvaluatorSnapshot} {s : VerificationTaskStatus}

theorem terminalStatus_cases (h : e.terminalStatus = some s) :
    s = .publishingEntitlement ∨ s = .expired ∨ s = .failed := by
  cases e with
  | graph g =>
    change g.root.terminalStatus = some s at h
    generalize g.root = root at h
    rcases root with _ | _ | (_ | _) | _ <;> cases h <;> simp
  | payment p =>
    change p.root.terminalStatus = some s at h
    generalize p.root = root at h
    cases root <;> cases h <;> simp

theorem validStatusFields_of_terminal (hc : e.Closed)
    (hs : s = .expired ∨ s = .failed) (h : e.terminalStatus = some s) :
    e.validStatusFields s true e.terminalReason := by
  cases e with
  | graph g =>
    change g.root.terminalStatus = some s at h
    change validGraphStatusFields s true g.root.terminalReason = true
    generalize g.root = root at h
    rcases hs with rfl | rfl <;> rcases root with _ | _ | (_ | _) | _ <;> first | rfl | cases h
  | payment p =>
    have hclosed : p.root.Closed := hc
    change p.root.terminalStatus = some s at h
    change validPaymentStatusFields s true p.root.terminalReason = true
    generalize p.root = root at h hclosed
    cases root with
    | pending => cases h
    | satisfied => rcases hs with rfl | rfl <;> cases h
    | expired o => cases h; cases o <;> first | rfl | cases hclosed
    | failed o => cases h; cases o <;> first | rfl | cases hclosed

theorem validStatusFields_of_active (e : EvaluatorSnapshot)
    (hs : ¬ s.isTerminal) : e.validStatusFields s.shown false none := by
  cases e <;> cases s <;> first | rfl | exact absurd rfl hs

theorem validGraphStatusFields_contentLockDeleted (s : VerificationTaskStatus) (c : Bool) :
    validGraphStatusFields s c (some .contentLockDeleted) = false := by
  cases s <;> cases c <;> rfl

section
variable (hr : r.stateCheck) (ht : Tracks r e) (hb : b.Describes r e) (hd : ¬
  r.closedByDeletion) (hp : r.status ≠ .publishingEntitlement)
include hr ht hb hd hp

/-- **Terminal reasons.**  The response carries the reason that the row stores,
    unless a deletion closed the row of a graph task. -/
theorem reason_of_tracks : b.terminalReason = r.terminalReason := by
  rw [hb.reason, LifecycleHttpResponse.reasonFor]
  by_cases hs : r.status = .expired ∨ r.status = .failed
  · obtain ⟨hstatus, hreason⟩ := ht.terminal hd hs
    rw [if_pos hstatus, hreason]
  · rw [if_neg fun h => (terminalStatus_cases h).elim hp hs]
    -- only an expired or a failed row stores a reason
    by_cases hc : r.status = .completed
    · have hnone := ((stateCheck_completed hc).1 hr).2.2.2.1
      exact (Option.isNone_iff_eq_none.1 hnone).symm
    · have hactive : ¬ r.status.isTerminal := by
        cases h : r.status <;> simp_all [VerificationTaskStatus.isTerminal]
      exact (unfinished_of_active hr hactive).2.symm

/-- **Accepted responses.**  The fields go together in the response of a row that
    is neither in publication nor closed by a deletion, if its times do. -/
theorem valid_of_tracks (hc : ∀ t, r.completedAt = some t → e.acceptedAt ≤ t) :
    b.shown.valid e.validStatusFields := by
  have htimes : r.completedAt.all (b.submittedAt ≤ ·) := by
    rw [hb.submittedAt, Option.all_eq_true]
    exact fun t h => decide_eq_true (hc t h)
  have htable : e.validStatusFields r.status.shown r.completedAt.isSome r.terminalReason := by
    by_cases hs : r.status.isTerminal
    · rw [completedAt_of_terminal hr hs]
      by_cases hc : r.status = .completed
      · have hnone := ((stateCheck_completed hc).1 hr).2.2.2.1
        rw [hc, Option.isNone_iff_eq_none.1 hnone]
        cases e <;> rfl
      · have hover : r.status = .expired ∨ r.status = .failed := by
          cases h : r.status <;> simp_all [VerificationTaskStatus.isTerminal]
        obtain ⟨hstatus, hreason⟩ := ht.terminal hd hover
        have hshown : r.status.shown = r.status := by
          rcases hover with h | h <;> rw [h] <;> rfl
        rw [hshown, ← hreason]
        exact validStatusFields_of_terminal ht.closed hover hstatus
    · obtain ⟨hcompleted, hnone⟩ := unfinished_of_active hr hs
      rw [hcompleted, hnone]
      exact validStatusFields_of_active e hs
  simp only [LifecycleResponse.valid, LifecycleHttpResponse.shown, Bool.and_eq_true]
  rw [hb.status, hb.completedAt, reason_of_tracks hr ht hb hd hp]
  exact ⟨⟨htable, decide_eq_true hb.deadline⟩, htimes⟩

end

/-- A parser that accepts exactly the responses whose fields go together agrees
    with a row iff the row is neither in publication nor closed by a deletion, and was
    not completed before it was accepted. -/
theorem agrees_iff_of_tracks {body : Json} {parse : Json → Except LocksSdkError LifecycleResponse}
    (hparse : ∀ response, parse body = .ok response ↔
      b.shown.valid e.validStatusFields ∧ response = b.shown)
    (he : r.evaluator = some e) (hr : r.stateCheck) (ht : Tracks r e)
    (hb : b.Describes r e) :
    Agrees parse body r ↔ r.status ≠ .publishingEntitlement ∧ ¬ r.closedByDeletion ∧
      ∀ t, r.completedAt = some t → e.acceptedAt ≤ t := by
  constructor
  · rintro ⟨response, h, hstatus, hreason⟩
    obtain ⟨hv, rfl⟩ := (hparse response).1 h
    refine ⟨?_, ?_, fun t hc => ?_⟩
    · intro hp
      rw [LifecycleHttpResponse.shown, hb.status, hp] at hstatus
      cases hstatus
    · intro hd
      simp only [closedByDeletion, Bool.and_eq_true, beq_iff_eq] at hd
      cases e with
      | graph g =>
        simp only [LifecycleResponse.valid, Bool.and_eq_true] at hv
        rw [hreason, hd.2] at hv
        have htable := hv.1.1
        rw [EvaluatorSnapshot.validStatusFields, validGraphStatusFields_contentLockDeleted] at htable
        cases htable
      | payment p =>
        rw [isGraph, graphRoot?, he] at hd
        cases hd.1
    · simp only [LifecycleResponse.valid, LifecycleHttpResponse.shown, Bool.and_eq_true,
        hb.completedAt, hc, Option.all_some, decide_eq_true_eq] at hv
      exact hb.submittedAt ▸ hv.2
  · rintro ⟨hp, hd, hc⟩
    refine ⟨b.shown, (hparse _).2 ⟨valid_of_tracks hr ht hb hd hp hc, rfl⟩, ?_,
      reason_of_tracks hr ht hb hd hp⟩
    show b.status.shown = r.status
    rw [hb.status]
    cases h : r.status <;> first | rfl | exact absurd h hp

theorem describes_ofGraphTask {t : GraphTaskRecord} (h : toGraphTask r = .ok t) :
    r.evaluator = some (.graph t.snapshot) ∧
      (LifecycleHttpResponse.ofGraphTask t).Describes r (.graph t.snapshot) := by
  simp only [toGraphTask, bind_eq_ok, mapError_eq_ok] at h
  obtain ⟨s, hs, _, hv, _, -, _, -, _, -, _, -, h⟩ := h
  cases h
  unfold graphSnapshot at hs
  split at hs
  · rename_i he
    cases hs
    exact ⟨he, rfl, rfl, rfl, (GraphTaskSnapshotV1.valid_of_validate hv).deadline, rfl⟩
  · cases hs

theorem describes_ofPaymentTask {t : PaymentTaskRecord} (h : toPaymentTask r = .ok t) :
    r.evaluator = some (.payment t.snapshot) ∧
      (LifecycleHttpResponse.ofPaymentTask t).Describes r (.payment t.snapshot) := by
  have he := snapshot_of_toPaymentTask h
  simp only [toPaymentTask, bind_eq_ok, mapError_eq_ok] at h
  obtain ⟨s, hs, _, hv, _, -, _, -, _, -, _, -, h⟩ := h
  cases h
  exact ⟨he, rfl, rfl, rfl, (PaymentTaskSnapshotV1.valid_of_validate hv).deadline, rfl⟩

/-- **Server and SDK agree** on the lifecycle of every reachable row but three kinds: a
    task in publication, which the server shows as in progress; a graph task closed by
    the deletion of its lock, whose reason is not in the snapshot that the server reads
    it from; and a task completed at a time before that of its admission. -/
theorem lifecycle_agrees_iff (E : Externals) (ops : List Operation) (db : Database)
    (hrun : Runs.Run (Runs.ofExec (Operation.run E)) .empty ops db)
    (r : TaskRow) (hr : r ∈ db.tasks) (C : LifecycleCodec) :
    (∀ t, toGraphTask r = .ok t → C.Renders (.ofGraphTask t) →
      (Agrees (parseGraphLifecycleResponse C.toCodec)
          ((LifecycleHttpResponse.ofGraphTask t).toJson C) r ↔
        r.status ≠ .publishingEntitlement ∧ ¬ r.closedByDeletion ∧
          ∀ c, r.completedAt = some c → t.snapshot.acceptedAt ≤ c)) ∧
    (∀ t, toPaymentTask r = .ok t → C.Renders (.ofPaymentTask t) →
      (Agrees (parsePaymentLifecycleResponse C.toCodec)
          ((LifecycleHttpResponse.ofPaymentTask t).toJson C) r ↔
        r.status ≠ .publishingEntitlement ∧ ¬ r.closedByDeletion ∧
          ∀ c, r.completedAt = some c → t.snapshot.acceptedAt ≤ c)) := by
  obtain ⟨hs, htracked⟩ := tracked_of_run hrun
  have hcheck := stateCheck_of_checks (hs.checks r hr)
  constructor
  · intro t ht hC
    obtain ⟨he, hb⟩ := describes_ofGraphTask ht
    refine agrees_iff_of_tracks (fun response => ?_) he hcheck (htracked r hr _ he) hb
    exact parseLifecycle_toJson hC (List.forall_mem_nil _)
  · intro t ht hC
    obtain ⟨he, hb⟩ := describes_ofPaymentTask ht
    refine agrees_iff_of_tracks (fun response => ?_) he hcheck (htracked r hr _ he) hb
    exact parseLifecycle_toJson hC (rejectField_toJson C _)

/-- The transactions that close the tasks of a lock: the job is inserted, and a
    worker takes it to the payment drain and expires what is open. -/
def closeLock : List Operation :=
  let lease : JobLease := ⟨⟨2⟩, "worker", ⟨3⟩⟩
  [.insertJob ⟨⟨2⟩, ⟨"creator"⟩, LockId.fromHash (.replicate 7), staticLock ⟨"creator"⟩, 0,
      .queued, .withdraw, 0, none, none, none, none, none, none⟩ (fun _ => .pending) 0,
    .claimNextJob lease (Duration.seconds 60) 0,
    .advancePhase lease .startPaymentDrain true 0,
    .claimNextJob lease (Duration.seconds 60) 0,
    .expireUnresolvedTasks lease (Duration.seconds 2)]

/-- A codec for the identifiers and times of the two examples below. -/
def LifecycleCodec.sample : LifecycleCodec where
  parsePubky := some
  crockfordDecode _ := some (.replicate 16 0)
  parseRfc3339 text :=
    [("1970-01-01T00:00:00Z", 0), ("1970-01-01T00:00:02Z", Duration.seconds 2),
      ("1970-01-01T00:10:00Z", Duration.seconds 600)].lookup text
  formatRfc3339 t :=
    ([((0 : Timestamp), "1970-01-01T00:00:00Z"), (Duration.seconds 2, "1970-01-01T00:00:02Z"),
      (Duration.seconds 600, "1970-01-01T00:10:00Z")].lookup t).getD ""

/-- The admission of a graph task under a bundle id of the right form. -/
def admitGraph : Operation :=
  .admission (.insertGraphTask
    ⟨⟨⟨1⟩⟩, { admittedGraphSnapshot with bundleId := ⟨"00000000000000000000000000"⟩ }, 0, .pending,
      none, none, none⟩)

/-- The admission of a payment task under such a bundle id. -/
def admitPayment : Operation :=
  .admission (.admitPaymentTask
    ⟨⟨⟨1⟩⟩, ⟨2, ⟨"00000000000000000000000000"⟩,
        .of ⟨"creator"⟩ (LockId.fromHash (.replicate 7)), some ⟨"reader"⟩⟩,
      .replicate 7, ⟨⟨"creator"⟩, "1000", "BTC", 1⟩, 600⟩ 0)

def closedGraphTask : GraphTaskRecord :=
  ⟨⟨⟨1⟩⟩, { admittedGraphSnapshot with bundleId := ⟨"00000000000000000000000000"⟩ }, 0, .expired,
    none, none, some (Duration.seconds 2)⟩

/-- The SDK refuses the lifecycle of a graph task closed by the deletion of its
    lock. -/
theorem closed_graph_refused : let E := Externals.constant (.replicate 7)
    ∃ db r, Runs.execList (Operation.run E) .empty (admitGraph :: closeLock) = some db ∧
      r ∈ db.tasks ∧ toGraphTask r = .ok closedGraphTask ∧
      r.terminalReason = some .contentLockDeleted ∧
      LifecycleCodec.sample.Renders (.ofGraphTask closedGraphTask) ∧
      parseGraphLifecycleResponse LifecycleCodec.sample.toCodec
          ((LifecycleHttpResponse.ofGraphTask closedGraphTask).toJson .sample) =
        .error (.invalidResponse "invalid graph verification lifecycle field combination") ∧
      ¬ Agrees (parseGraphLifecycleResponse LifecycleCodec.sample.toCodec)
          ((LifecycleHttpResponse.ofGraphTask closedGraphTask).toJson .sample) r := by
  intro E
  have h : (Runs.execList (Operation.run E) .empty (admitGraph :: closeLock)).isSome := rfl
  have herror : parseGraphLifecycleResponse LifecycleCodec.sample.toCodec
      ((LifecycleHttpResponse.ofGraphTask closedGraphTask).toJson .sample) =
      .error (.invalidResponse "invalid graph verification lifecycle field combination") := rfl
  refine ⟨_, _, (Option.some_get h).symm, List.mem_cons_self, rfl, rfl, ?_, herror, ?_⟩
  · refine ⟨rfl, rfl, rfl, ?_, rfl⟩
    rintro t ⟨⟩
    rfl
  · rintro ⟨response, hok, -⟩
    rw [herror] at hok
    cases hok

/-- The SDK reads the lifecycle of a payment task closed by the deletion of its
    lock. -/
theorem closed_payment_agrees : let E := Externals.constant (.replicate 7)
    ∃ db r t, Runs.execList (Operation.run E) .empty (admitPayment :: closeLock) = some db ∧
      r ∈ db.tasks ∧ toPaymentTask r = .ok t ∧ r.terminalReason = some .contentLockDeleted ∧
      Agrees (parsePaymentLifecycleResponse LifecycleCodec.sample.toCodec)
        ((LifecycleHttpResponse.ofPaymentTask t).toJson .sample) r := by
  intro E
  have h : (Runs.execList (Operation.run E) .empty (admitPayment :: closeLock)).isSome := rfl
  refine ⟨_, _, _, (Option.some_get h).symm, List.mem_cons_self, rfl, rfl, ?_⟩
  refine ((lifecycle_agrees_iff E _ _ (Runs.run_of_execList (Operation.run E)
    (Option.some_get h).symm) _ List.mem_cons_self .sample).2 _ rfl
      ⟨rfl, rfl, rfl, ?_, rfl⟩).2 ⟨?_, ?_, ?_⟩
  · rintro t ⟨⟩
    rfl
  · rintro ⟨⟩
  · rintro ⟨⟩
  · rintro c ⟨⟩
    decide

end PubkyLocks
