/-
  What the statements of the lanes, the drain and the deletions leave alone.
-/
import PubkyLocks.Lanes.Statements

namespace PubkyLocks

open TaskStatement TaskRow Evaluator Payment TaskUpdate Checks

inductive Lane where
  | v1
  | graph
  | payment
deriving DecidableEq, Repr

def TaskRow.lane (r : TaskRow) : Lane :=
  match r.evaluator with
  | none => .v1
  | some (.graph _) => .graph
  | some (.payment _) => .payment

/-- The columns written once, at the insert, and the lane. -/
def TaskRow.identity (r : TaskRow) :=
  (r.taskId, r.creator, r.bundleId, r.submittedProofBundle, r.submittedAt, r.lane)

namespace TaskRow

variable {r s : TaskRow}

theorem isV1_iff : r.isV1 ↔ r.lane = .v1 := by
  rcases he : r.evaluator with _ | ⟨_ | _⟩ <;> simp [isV1, lane, he]

theorem isGraph_iff : r.isGraph ↔ r.lane = .graph := by
  rcases he : r.evaluator with _ | ⟨_ | _⟩ <;> simp [isGraph, graphRoot?, lane, he]

theorem isPayment_iff : r.isPayment ↔ r.lane = .payment := by
  rcases he : r.evaluator with _ | ⟨_ | _⟩ <;> simp [isPayment, paymentRoot?, lane, he]

section
variable (h : s.identity = r.identity)
include h

theorem taskId_of_identity : s.taskId = r.taskId :=
  congrArg (·.1) h

theorem creator_of_identity : s.creator = r.creator :=
  congrArg (·.2.1) h

theorem bundleId_of_identity : s.bundleId = r.bundleId :=
  congrArg (·.2.2.1) h

theorem submitted_of_identity : s.submittedProofBundle = r.submittedProofBundle :=
  congrArg (·.2.2.2.1) h

theorem resource_of_identity : s.resource = r.resource :=
  congrArg SubmittedProofBundlePayload.pubkyLockResource (submitted_of_identity h)

theorem submittedAt_of_identity : s.submittedAt = r.submittedAt :=
  congrArg (·.2.2.2.2.1) h

theorem lane_of_identity : s.lane = r.lane :=
  congrArg (·.2.2.2.2.2) h

end

theorem identity_of_lane (hid : (s.taskId, s.creator, s.bundleId, s.submittedProofBundle,
      s.submittedAt) = (r.taskId, r.creator, r.bundleId, r.submittedProofBundle, r.submittedAt))
    (hlane : s.lane = r.lane) : s.identity = r.identity := by
  simp only [Prod.mk.injEq] at hid
  obtain ⟨h₁, h₂, h₃, h₄, h₅⟩ := hid
  simp only [identity, h₁, h₂, h₃, h₄, h₅, hlane]

end TaskRow

/-! ## Decoders name the lane -/

variable {r : TaskRow} {next : GraphTaskSnapshotV1} {dbNow : Timestamp} {d : Duration} {k : Uuid}

theorem lane_of_toGraphTask {t : GraphTaskRecord} (h : toGraphTask r = .ok t) :
    r.lane = .graph := by
  obtain ⟨s, hs, -⟩ := bind_eq_ok.1 h
  unfold graphSnapshot at hs
  unfold lane
  split at hs <;> simp_all

theorem lane_of_toPaymentTask {t : PaymentTaskRecord} (h : toPaymentTask r = .ok t) :
    r.lane = .payment := by
  obtain ⟨s, hs, -⟩ := bind_eq_ok.1 h
  unfold paymentSnapshot at hs
  unfold lane
  split at hs <;> simp_all

theorem Graph.lane_of_persistChecks
    (h : (Graph.persistChecks next dbNow r).isOk) : r.lane = .graph := by
  obtain ⟨_, h⟩ := isOk_iff.1 h
  obtain ⟨t, ht, -⟩ := bind_eq_ok.1 h
  exact lane_of_toGraphTask ht

theorem Graph.lane_of_scheduleChecks (h : (Graph.scheduleChecks next d dbNow r).isOk) :
    r.lane = .graph := by
  obtain ⟨_, h⟩ := isOk_iff.1 h
  obtain ⟨t, ht, -⟩ := bind_eq_ok.1 h
  exact lane_of_toGraphTask ht

theorem Payment.lane_of_persistChecks {next : PaymentTaskSnapshotV1}
    (h : (persistChecks next r).isOk) : r.lane = .payment := by
  obtain ⟨_, h⟩ := isOk_iff.1 h
  obtain ⟨t, ht, -⟩ := bind_eq_ok.1 h
  exact lane_of_toPaymentTask ht

theorem Payment.lane_of_scheduleChecks {next : PaymentTaskSnapshotV1}
    (h : (scheduleChecks next d r).isOk) : r.lane = .payment := by
  obtain ⟨_, h⟩ := isOk_iff.1 h
  obtain ⟨_, -, h⟩ := bind_eq_ok.1 h
  obtain ⟨t, ht, -⟩ := bind_eq_ok.1 h
  exact lane_of_toPaymentTask ht

/-! ## Frames -/

theorem Evaluator.persistSet_identity {snapshot : EvaluatorSnapshot} {o : Outcome}
    (hlane : (persistSet snapshot o k dbNow r).lane = r.lane) :
    (persistSet snapshot o k dbNow r).identity = r.identity := by
  refine identity_of_lane ?_ hlane
  unfold persistSet retainClaims
  cases o.retain <;> rfl

theorem Evaluator.persistSet_job (snapshot : EvaluatorSnapshot) (o : Outcome) (k : Uuid)
    (dbNow : Timestamp) (r : TaskRow) :
    (persistSet snapshot o k dbNow r).deletionJobId = r.deletionJobId := by
  unfold persistSet retainClaims
  cases o.retain <;> rfl

theorem Evaluator.persistSet_phase (snapshot : EvaluatorSnapshot) (o : Outcome) (k : Uuid)
    (dbNow : Timestamp) (r : TaskRow) :
    (persistSet snapshot o k dbNow r).invoiceAdmissionPhase =
      r.invoiceAdmissionPhase := by
  unfold persistSet retainClaims
  cases o.retain <;> rfl

theorem V1.persistTransition_identity (l : Lease) (t : VerificationTaskRecord) (dbNow : Timestamp)
    (r : TaskRow) : ((V1.persistTransition l t dbNow).set r).identity = r.identity := by
  unfold V1.persistTransition retainClaims
  cases t.status == .publishingEntitlement <;> rfl

/-- The frame of a statement on a row: its identity is kept, the job that froze
    it is kept, and an invoice admission that is over stays as it is. -/
structure TaskUpdate.Frame (u : TaskUpdate) (r : TaskRow) : Prop where
  identity : (u.set r).identity = r.identity
  job : (u.set r).deletionJobId = r.deletionJobId
  phase : r.invoiceAdmissionPhase ≠ .invoicePending →
    (u.set r).invoiceAdmissionPhase = r.invoiceAdmissionPhase

theorem TaskUpdate.skip_frame (r : TaskRow) : TaskUpdate.skip.Frame r := ⟨rfl, rfl, fun _ => rfl⟩

theorem V1.persistTransition_frame (l : Lease) (t : VerificationTaskRecord) (dbNow : Timestamp)
    (r : TaskRow) : (V1.persistTransition l t dbNow).Frame r := by
  refine ⟨V1.persistTransition_identity l t dbNow r, ?_, fun _ => ?_⟩ <;>
    (unfold V1.persistTransition retainClaims
     cases t.status == .publishingEntitlement <;> rfl)

section
variable (db : Database) (l : Lease) (n : ℕ)
include db l n

theorem Graph.persist_frame (next : GraphTaskSnapshotV1)
    (k : Uuid) (dbNow : Timestamp) (hg : (Graph.persist db l n next k dbNow).guard r) :
    (Graph.persist db l n next k dbNow).Frame r := by
  simp only [Graph.persist, Bool.and_eq_true] at hg
  have hlane := Graph.lane_of_persistChecks hg.1.2
  exact ⟨persistSet_identity hlane.symm, persistSet_job _ _ _ _ _,
    fun _ => persistSet_phase _ _ _ _ _⟩

theorem Payment.persist_frame (next : PaymentTaskSnapshotV1) (k : Uuid) (dbNow : Timestamp)
    (hg : (persist db l n next k dbNow).guard r) :
    (persist db l n next k dbNow).Frame r := by
  simp only [persist, Bool.and_eq_true] at hg
  have hlane := lane_of_persistChecks hg.1.2
  exact ⟨persistSet_identity hlane.symm, persistSet_job _ _ _ _ _,
    fun _ => persistSet_phase _ _ _ _ _⟩

theorem Graph.scheduleRetry_frame (next : GraphTaskSnapshotV1) (now due dbNow : Timestamp)
    (hg : (Graph.scheduleRetry db l n next now due dbNow).guard r) :
    (Graph.scheduleRetry db l n next now due dbNow).Frame r := by
  simp only [Graph.scheduleRetry, Bool.and_eq_true] at hg
  have hlane := Graph.lane_of_scheduleChecks hg.2
  exact ⟨identity_of_lane rfl hlane.symm, rfl, fun _ => rfl⟩

theorem Payment.scheduleRetry_frame (next : PaymentTaskSnapshotV1) (now due dbNow : Timestamp)
    (hg : (scheduleRetry db l n next now due dbNow).guard r) :
    (scheduleRetry db l n next now due dbNow).Frame r := by
  simp only [scheduleRetry, Bool.and_eq_true] at hg
  have hlane := lane_of_scheduleChecks hg.2
  exact ⟨identity_of_lane rfl hlane.symm, rfl, fun _ => rfl⟩

end

theorem Deletion.expireUnresolved_frame (db : Database) (jobId : Uuid) (now : Timestamp)
    (r : TaskRow) : (Deletion.expireUnresolved db jobId now).Frame r := by
  refine ⟨identity_of_lane rfl ?_, rfl, fun _ => rfl⟩
  unfold Deletion.expireUnresolved lane
  cases he : r.evaluator with
  | none => simp [he]
  | some e => cases e <;> simp [he, Deletion.closeSnapshot]

theorem Invoice.phase_of_awaiting {p : InvoiceAdmissionPhase}
    (h : Invoice.awaiting r) (hp : r.invoiceAdmissionPhase ≠ .invoicePending) :
    p = r.invoiceAdmissionPhase :=
  absurd (Invoice.awaiting_iff.1 h).1 hp

/-- **Frames.**  Every statement but `freeze` keeps the identity of the rows it
    matches, the job that froze them and an invoice admission that is over. -/
theorem update_frame (db : Database) (st : TaskStatement) (hst : ∀ j c l, st ≠ .freeze j c l)
    (hg : (st.update db).guard r) : (st.update db).Frame r := by
  cases st with
  | v1Claim l now e dbNow => exact ⟨rfl, rfl, fun _ => rfl⟩
  | v1Retry l now next dbNow => exact ⟨rfl, rfl, fun _ => rfl⟩
  | v1Persist l claimed c dbNow =>
    simp only [update]
    split
    · exact V1.persistTransition_frame _ _ _ r
    · exact skip_frame r
  | invoiceClaim l ttl dbNow => exact ⟨rfl, rfl, fun _ => rfl⟩
  | invoiceReady l created deadline dbNow =>
    simp only [update, Invoice.markReady, Bool.and_eq_true] at hg
    exact ⟨rfl, rfl, Invoice.phase_of_awaiting hg.2⟩
  | invoiceRetry l retryAfter dbNow => exact ⟨rfl, rfl, fun _ => rfl⟩
  | invoiceFail l message dbNow =>
    simp only [update, Invoice.markFailed, Bool.and_eq_true] at hg
    exact ⟨rfl, rfl, Invoice.phase_of_awaiting hg.2⟩
  | graphClaim l now e dbNow => exact ⟨rfl, rfl, fun _ => rfl⟩
  | graphPersist l n next k dbNow => exact Graph.persist_frame db l n next k dbNow hg
  | graphRetry l n next now due dbNow => exact Graph.scheduleRetry_frame db l n next now due dbNow hg
  | graphRelease l => exact ⟨rfl, rfl, fun _ => rfl⟩
  | graphComplete l n k dbNow => exact ⟨rfl, rfl, fun _ => rfl⟩
  | paymentClaim l now e dbNow => exact ⟨rfl, rfl, fun _ => rfl⟩
  | paymentPersist l n input k dbNow =>
    -- the values of a payment update are computed from the row
    simp only [update, ofRow] at hg
    split at hg
    · rename_i next now hw
      have hf := persist_frame db l n next k dbNow hg
      refine ⟨?_, ?_, ?_⟩ <;> simp only [update, ofRow, hw]
      · exact hf.identity
      · exact hf.job
      · exact hf.phase
    · cases hg
  | paymentRetry l n input dbNow =>
    simp only [update, ofRow] at hg
    split at hg
    · rename_i next now due hw
      have hf := scheduleRetry_frame db l n next now due dbNow hg
      refine ⟨?_, ?_, ?_⟩ <;> simp only [update, ofRow, hw]
      · exact hf.identity
      · exact hf.job
      · exact hf.phase
    · cases hg
  | paymentRelease l => exact ⟨rfl, rfl, fun _ => rfl⟩
  | paymentComplete l n k dbNow => exact ⟨rfl, rfl, fun _ => rfl⟩
  | drainBegin l id e k now => exact ⟨rfl, rfl, fun _ => rfl⟩
  | drainComplete l id k now => exact ⟨rfl, rfl, fun _ => rfl⟩
  | drainExpire l id status n now =>
    simp only [update]
    split
    · exact ⟨rfl, rfl, fun _ => rfl⟩
    · exact skip_frame r
  | freeze j c l => exact absurd rfl (hst j c l)
  | expireUnresolved l now =>
    simp only [update]
    split
    · exact Deletion.expireUnresolved_frame db l.jobId now r
    · exact skip_frame r

/-! ## Terminal rows -/

theorem not_terminal_iff {s : VerificationTaskStatus} :
    ¬ s.isTerminal ↔ s = .pending ∨ s = .inProgress ∨ s = .publishingEntitlement := by
  cases s <;> simp [VerificationTaskStatus.isTerminal]

theorem not_terminal_of_claimedAs {w : String} (hr : r.stateCheck)
    (h : r.claimedAs w k) : ¬ r.status.isTerminal := by
  intro ht
  have hnull := claimsNull_of_terminal hr ht
  simp only [claimsNull, claimedAs, Bool.and_eq_true, beq_iff_eq] at hnull h
  simp [h.1] at hnull

theorem not_terminal_of_open (h : Deletion.open_ r) : ¬ r.status.isTerminal := by
  simp only [Deletion.open_, Bool.or_eq_true, beq_iff_eq] at h
  exact not_terminal_iff.2 (by tauto)

theorem not_terminal_of_unpublished (h : Drain.unpublished r) : ¬ r.status.isTerminal :=
  not_terminal_iff.2 (by have := (Drain.unpublished_iff.1 h).1; tauto)

/-- **Terminal tasks are final.**  No statement but `freeze` matches a
    terminal row. -/
theorem update_active (db : Database) (st : TaskStatement) (hst : ∀ j c l, st ≠ .freeze j c l)
    (hr : r.stateCheck) (hg : (st.update db).guard r) : ¬ r.status.isTerminal := by
  cases st with
  | v1Claim l now e dbNow =>
    simp only [update, V1.claimNext, Bool.and_eq_true, Bool.or_eq_true,
      beq_iff_eq] at hg
    exact not_terminal_iff.2 (by tauto)
  | v1Retry l now next dbNow =>
    simp only [update, V1.scheduleRetry, Bool.and_eq_true, beq_iff_eq] at hg
    exact not_terminal_iff.2 (by tauto)
  | v1Persist l claimed c dbNow =>
    simp only [update] at hg
    split at hg
    · simp only [V1.persistTransition, Lease.holds, liveClaim, Bool.and_eq_true] at hg
      exact not_terminal_of_claimedAs hr hg.1.1.1.1.2.1
    · cases hg
  | invoiceClaim l ttl dbNow =>
    simp only [update, Invoice.claimNext, Bool.and_eq_true, Invoice.awaiting_iff] at hg
    exact not_terminal_iff.2 (by tauto)
  | invoiceReady l created deadline dbNow =>
    simp only [update, Invoice.markReady, Bool.and_eq_true, Invoice.awaiting_iff] at hg
    exact not_terminal_iff.2 (by tauto)
  | invoiceRetry l retryAfter dbNow =>
    simp only [update, Invoice.scheduleRetry, Bool.and_eq_true,
      Invoice.awaiting_iff] at hg
    exact not_terminal_iff.2 (by tauto)
  | invoiceFail l message dbNow =>
    simp only [update, Invoice.markFailed, Bool.and_eq_true,
      Invoice.awaiting_iff] at hg
    exact not_terminal_iff.2 (by tauto)
  | graphClaim l now e dbNow =>
    simp only [update, Graph.claimNext, Bool.and_eq_true] at hg
    obtain ⟨root, -, hc⟩ := (Option.any_eq_true _ _).1 hg.2
    exact not_terminal_iff.2 (active_of_claimable hc)
  | graphPersist l n next k dbNow =>
    simp only [update, Graph.persist, Bool.and_eq_true, Graph.claimed_iff] at hg
    exact not_terminal_iff.2 (by tauto)
  | graphRetry l n next now due dbNow =>
    simp only [update, Graph.scheduleRetry, Bool.and_eq_true, Graph.claimed_iff] at hg
    exact not_terminal_iff.2 (by tauto)
  | graphRelease l =>
    simp only [update, Graph.release, Lease.names, Bool.and_eq_true] at hg
    exact not_terminal_of_claimedAs hr hg.1.2
  | graphComplete l n k dbNow =>
    simp only [update, Graph.complete, Bool.and_eq_true] at hg
    exact not_terminal_iff.2 (.inr (.inr (status_of_publishing hg.1.1.2)))
  | paymentClaim l now e dbNow =>
    simp only [update, claimNext, Bool.and_eq_true] at hg
    obtain ⟨root, -, hc⟩ := (Option.any_eq_true _ _).1 hg.2
    exact not_terminal_iff.2 (active_of_claimable hc)
  | paymentPersist l n input k dbNow =>
    simp only [update, ofRow] at hg
    split at hg
    · simp only [persist, Bool.and_eq_true, claimed_iff] at hg
      exact not_terminal_iff.2 (by tauto)
    · cases hg
  | paymentRetry l n input dbNow =>
    simp only [update, ofRow] at hg
    split at hg
    · simp only [scheduleRetry, Bool.and_eq_true, claimed_iff] at hg
      exact not_terminal_iff.2 (by tauto)
    · cases hg
  | paymentRelease l =>
    simp only [update, release, Lease.names, Bool.and_eq_true] at hg
    exact not_terminal_of_claimedAs hr hg.1.1.2
  | paymentComplete l n k dbNow =>
    simp only [update, complete, Bool.and_eq_true] at hg
    exact not_terminal_iff.2 (.inr (.inr (status_of_publishing hg.1.1.2)))
  | drainBegin l id e k now =>
    simp only [update, Drain.beginPublication, Bool.and_eq_true, Bool.or_eq_true,
      beq_iff_eq] at hg
    rcases hg.2 with h | ⟨⟨h, -⟩, -⟩
    · exact not_terminal_of_unpublished h
    · exact not_terminal_iff.2 (.inr (.inr h))
  | drainComplete l id k now =>
    simp only [update, Drain.persistCompleted, Bool.and_eq_true, beq_iff_eq] at hg
    exact not_terminal_iff.2 (by tauto)
  | drainExpire l id status n now =>
    simp only [update] at hg
    split at hg
    · simp only [Drain.persistExpired, Bool.and_eq_true] at hg
      exact not_terminal_of_unpublished hg.2
    · cases hg
  | freeze j c l => exact absurd rfl (hst j c l)
  | expireUnresolved l now =>
    simp only [update] at hg
    split at hg
    · simp only [Deletion.expireUnresolved, Bool.and_eq_true] at hg
      exact not_terminal_of_open hg.2
    · cases hg

end PubkyLocks
