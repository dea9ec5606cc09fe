/-
  The decoders read every stored row.

  A lookup decodes the row it finds and fails on a row whose columns do not fit
  together (`row_to_task` of `verification_tasks.rs`, `graph_tasks.rs` and
  `payment_tasks.rs`).  No transaction leaves such a row behind.
-/
import PubkyLocks.Store.Settled
import PubkyLocks.Tasks.GraphReducer

namespace PubkyLocks

open TaskRow PubkyLocks.Graph Checks Evaluator Deletion

/-! ## Readable rows -/

/-- A row of the version-1 lane that its decoder reads. -/
structure V1Readable (r : TaskRow) : Prop where
  handle : ∃ b, r.submittedProofBundle = .v1 b ∧ r.creator = b.pubkyLockResource.creator ∧
    r.bundleId = b.bundleId
  payload : ∀ p, r.entitlementToPublish = some p → ∃ e, p = .v1 e

def GraphRootFits (r : TaskRow) (root : GraphRootState) : Prop :=
  match r.status with
  | .pending | .inProgress => root = .pending
  | .publishingEntitlement | .completed => root = .satisfied
  | .expired => root = .expired .false_ ∨ r.terminalReason = some .contentLockDeleted
  | .failed => root = .expired .dependencyUnavailable ∨ root = .failedInvalidResponse

structure GraphReadable (r : TaskRow) (s : GraphTaskSnapshotV1) : Prop where
  evaluator : r.evaluator = some (.graph s)
  valid : s.validate = .ok ()
  handle : r.creator = s.creator ∧ r.bundleId = s.bundleId ∧ r.submittedAt = s.acceptedAt ∧
    r.submittedProofBundle.bundleId = s.bundleId ∧ r.resource = s.pubkyLockResource
  payload : ∀ p, r.entitlementToPublish = some p → ∃ e, p = .v2 e ∧ e.validate = .ok () ∧
    e.isFor s.creator s.reader s.bundleId s.pubkyLockResource .graph
  token : r.entitlementPublicationClaimToken.isSome ↔ r.status = .publishingEntitlement
  root : GraphRootFits r s.root

structure PaymentReadable (r : TaskRow) (s : PaymentTaskSnapshotV1) : Prop where
  evaluator : r.evaluator = some (.payment s)
  valid : s.validate = .ok ()
  handle : r.creator = s.creator ∧ r.bundleId = s.bundleId ∧ r.submittedAt = s.acceptedAt ∧
    r.submittedProofBundle = .v2 s.submittedProofBundle
  payload : ∀ p, r.entitlementToPublish = some p → ∃ e, p = .v2 e ∧ e.validate = .ok () ∧
    e.isFor s.creator s.reader s.bundleId s.pubkyLockResource .payment
  reason : r.terminalReason = s.root.terminalReason

/-- A row that the decoder of its lane reads. -/
def TaskRow.Readable (r : TaskRow) : Prop :=
  match r.lane with
  | .v1 => V1Readable r
  | .graph => ∃ s, GraphReadable r s
  | .payment => ∃ s, PaymentReadable r s

variable {r q : TaskRow} {dbNow : Timestamp}

theorem V1Readable.exists_toRecord (h : V1Readable r) :
    ∃ t, r.toRecord = .ok t ∧ t.taskId = r.taskId ∧
      r.submittedProofBundle = .v1 t.submittedProofBundle := by
  obtain ⟨⟨b, hb, hcreator, hbundle⟩, hpayload⟩ := h
  have hrecord : ∀ e, ∃ t, r.recordFor b e = .ok t ∧ t.taskId = r.taskId ∧
      t.submittedProofBundle = b := by
    intro e
    unfold recordFor
    rw [if_neg (by simp [hcreator, hbundle])]
    exact ⟨_, rfl, rfl, rfl⟩
  cases he : r.entitlementToPublish with
  | none =>
    obtain ⟨t, ht, hid, hsub⟩ := hrecord none
    exact ⟨t, by simp only [toRecord, hb, he, ht], hid, hsub ▸ hb⟩
  | some p =>
    obtain ⟨e, rfl⟩ := hpayload p he
    obtain ⟨t, ht, hid, hsub⟩ := hrecord (some e)
    exact ⟨t, by simp only [toRecord, hb, he, ht], hid, hsub ▸ hb⟩

theorem entitlementV2_of_payload {m : String} {P : VerifiedProofBundleV2 → Prop}
    (h : ∀ p, r.entitlementToPublish = some p → ∃ e, p = .v2 e ∧ P e) :
    ∃ o, r.entitlementV2 m = .ok o ∧ ∀ e, o = some e → P e := by
  unfold entitlementV2
  cases he : r.entitlementToPublish with
  | none => exact ⟨none, rfl, by rintro e ⟨⟩⟩
  | some p =>
    obtain ⟨e, rfl, hP⟩ := h p he
    exact ⟨some e, rfl, by rintro e' ⟨⟩; exact hP⟩

variable {s next : GraphTaskSnapshotV1} {id : TaskId} {d : Duration} {k : Uuid}
  {payload : Option VerifiedProofBundlePayload} {token : Option Uuid}

theorem GraphReadable.lifecycle (h : GraphReadable r s)
    (hc : r.stateCheck) : graphLifecycleMatches r s.root := by
  have hroot := h.root
  have htoken : r.status ≠ .publishingEntitlement →
      r.entitlementPublicationClaimToken.isNone := by
    intro hs
    rw [← Option.not_isSome_iff_eq_none.trans Option.isNone_iff_eq_none.symm, h.token]
    exact hs
  unfold GraphRootFits at hroot
  unfold graphLifecycleMatches
  cases hs : r.status with
  | pending =>
    obtain ⟨-, hu, he, -⟩ := (stateCheck_pending hs).1 hc
    simp only [unfinished, Bool.and_eq_true] at hu
    simp only [hs] at hroot ⊢
    simp [hroot, he, htoken (by simp [hs]), hu.1.1]
  | inProgress =>
    obtain ⟨-, hu, he, -⟩ := (stateCheck_inProgress hs).1 hc
    simp only [unfinished, Bool.and_eq_true] at hu
    simp [he, htoken (by simp [hs]), hu.1.1]
  | publishingEntitlement =>
    obtain ⟨-, hu, he, -⟩ := (stateCheck_publishing hs).1 hc
    simp only [unfinished, Bool.and_eq_true] at hu
    simp only [hs] at hroot ⊢
    simp [hroot, he, h.token.2 hs, hu.1.1]
  | completed =>
    obtain ⟨-, hco, -, -, he, -⟩ := (stateCheck_completed hs).1 hc
    simp only [hs] at hroot ⊢
    simp [hroot, he, htoken (by simp [hs]), hco]
  | expired =>
    obtain ⟨-, hco, -, he, -⟩ := (stateCheck_expired hs).1 hc
    simp only [hs] at hroot ⊢
    rcases hroot with hroot | hroot <;> simp [hroot, he, htoken (by simp [hs]), hco]
  | failed =>
    obtain ⟨-, hco, -, he, -⟩ := (stateCheck_failed hs).1 hc
    simp only [hs] at hroot ⊢
    rcases hroot with hroot | hroot <;> simp [hroot, he, htoken (by simp [hs]), hco]

theorem GraphReadable.exists_toGraphTask (h : GraphReadable r s)
    (hc : r.stateCheck) : ∃ t, toGraphTask r = .ok t ∧ t.taskId = r.taskId ∧ t.snapshot = s := by
  obtain ⟨e, he, hP⟩ := entitlementV2_of_payload h.payload
  refine ⟨⟨r.taskId, s, r.evaluatorRevision, r.status, e, r.entitlementPublicationClaimToken,
    r.completedAt⟩, ?_, rfl, rfl⟩
  simp only [toGraphTask, bind_eq_ok, mapError_eq_ok, refuse_eq_ok,
    onSome_eq_ok]
  obtain ⟨h₁, h₂, h₃, h₄, h₅⟩ := h.handle
  refine ⟨s, by rw [graphSnapshot, h.evaluator], (), h.valid, (), by simp [h₁, h₂, h₃, h₄, h₅],
    e, he, (), fun e' he' => ?_, (), by simp [h.lifecycle hc], rfl⟩
  obtain ⟨hv, hfor⟩ := hP e' he'
  exact ⟨(), hv, by simp [hfor]⟩

theorem PaymentReadable.exists_toPaymentTask {s : PaymentTaskSnapshotV1} (h : PaymentReadable r s) :
    ∃ t, toPaymentTask r = .ok t ∧ t.taskId = r.taskId ∧ t.snapshot = s := by
  obtain ⟨e, he, hP⟩ := entitlementV2_of_payload h.payload
  refine ⟨⟨r.taskId, s, r.evaluatorRevision, r.status, e, r.entitlementPublicationClaimToken,
    r.completedAt⟩, ?_, rfl, rfl⟩
  simp only [toPaymentTask, bind_eq_ok, mapError_eq_ok, refuse_eq_ok,
    onSome_eq_ok]
  obtain ⟨h₁, h₂, h₃, h₄⟩ := h.handle
  refine ⟨s, by rw [paymentSnapshot, h.evaluator], (), h.valid, (), by simp [h₁, h₂, h₃, h₄],
    e, he, (), fun e' he' => ?_, (), by simp [h.reason], rfl⟩
  obtain ⟨hv, hfor⟩ := hP e' he'
  exact ⟨(), hv, by simp [hfor]⟩

/-! ## Admissions -/

variable {db : Database} {op : Operation}

theorem graphReadable_newRow (h : (newRow id s).Pristine) : GraphReadable (newRow id s) s := by
  obtain ⟨-, hv, hroot⟩ := h
  refine ⟨rfl, hv, ⟨rfl, rfl, rfl, rfl, rfl⟩, by rintro p ⟨⟩, ?_, hroot⟩
  constructor <;> rintro ⟨⟩

theorem paymentReadable_newRow {s : PaymentTaskSnapshotV1}
    (h : (Payment.newRow id s).Pristine) : PaymentReadable (Payment.newRow id s) s := by
  obtain ⟨-, hv, hroot⟩ := h
  refine ⟨rfl, hv, ⟨rfl, rfl, rfl, rfl⟩, by rintro p ⟨⟩, ?_⟩
  rw [hroot]
  rfl

/-- **Admitted rows are readable.** -/
theorem readable_of_newRow {a : Admission} (hnew : a.NewRow r) (h : Admitted db r) :
    r.Readable := by
  have hpayload : ∀ {t : VerificationTaskRecord} p,
      (V1.newRow t).entitlementToPublish = some p → ∃ e, p = .v1 e := by
    intro t p hp
    obtain ⟨e, -, rfl⟩ := Option.map_eq_some_iff.1 hp
    exact ⟨e, rfl⟩
  cases a with
  | insertVerificationTask t =>
    obtain rfl := hnew
    exact (⟨⟨_, rfl, h.creator.symm, rfl⟩, hpayload⟩ : V1Readable _)
  | insertInvoicePendingTask t intent dbNow =>
    obtain rfl := hnew
    exact (⟨⟨_, rfl, h.creator.symm, rfl⟩, hpayload⟩ : V1Readable _)
  | insertGraphTask t =>
    obtain ⟨-, rfl⟩ := hnew
    exact ⟨_, graphReadable_newRow h.pristine⟩
  | admitPaymentTask q dbNow =>
    obtain ⟨s, -, rfl⟩ := hnew
    exact ⟨_, paymentReadable_newRow h.pristine⟩
  | startOrRotate q dbNow => cases hnew
  | acceptAndInsertGraphTask attempt id reader dbNow =>
    obtain ⟨t, -, rfl⟩ := hnew
    exact ⟨_, graphReadable_newRow h.pristine⟩

/-! ## Transactions -/

theorem v1Readable_of_rowStep (hs : db.Sound) (hmem : r ∈ db.tasks) (hlane : r.lane = .v1)
    (hr : V1Readable r) (h : RowStep db r op q) : V1Readable q := by
  have hid := identity_of_rowStep h
  refine ⟨?_, ?_⟩
  · rw [submitted_of_identity hid, creator_of_identity hid,
      bundleId_of_identity hid]
    exact hr.handle
  · intro p hp
    cases h with
    | kept => exact hr.payload p hp
    | frozen job seen t _ _ => exact hr.payload p hp
    | expired l now hg => exact hr.payload p hp
    | released l now => exact hr.payload p hp
    | statement st hst hg =>
      have hlane' := (lane_of_guard hs hmem hst hg).trans (congrArg some hlane)
      cases st with
      | v1Claim l now e dbNow => exact hr.payload p hp
      | v1Retry l now e dbNow => exact hr.payload p hp
      | v1Persist l claimed c dbNow =>
        simp only [TaskStatement.update] at hp
        split at hp
        · obtain ⟨e, -, rfl⟩ := Option.map_eq_some_iff.1 hp
          exact ⟨e, rfl⟩
        · exact hr.payload p hp
      | invoiceClaim l ttl dbNow => exact hr.payload p hp
      | invoiceReady l c d dbNow => exact hr.payload p hp
      | invoiceRetry l d dbNow => exact hr.payload p hp
      | invoiceFail l m dbNow => exact hr.payload p hp
      | drainBegin l id e k now =>
        cases he : r.entitlementToPublish with
        | none =>
          simp [TaskStatement.update, Drain.beginPublication, he] at hp
          exact ⟨e, hp.symm⟩
        | some p' =>
          simp [TaskStatement.update, Drain.beginPublication, he] at hp
          exact hr.payload p (hp ▸ he)
      | drainComplete l id k now => exact hr.payload p hp
      | drainExpire l id status n now =>
        simp only [TaskStatement.update] at hp
        split at hp
        · cases hp
        · exact hr.payload p hp
      | freeze j c l => cases hst
      | expireUnresolved l now => cases hst
      | _ => cases hlane'

section
variable (h : GraphReadable r s) (hid : q.identity = r.identity) (he : q.evaluator = r.evaluator)
  (hp : q.entitlementToPublish = r.entitlementToPublish)
include h hid he hp

theorem GraphReadable.congr
    (ht : q.entitlementPublicationClaimToken.isSome ↔ q.status = .publishingEntitlement)
    (hroot : GraphRootFits q s.root) : GraphReadable q s where
  evaluator := he.trans h.evaluator
  valid := h.valid
  handle := by
    rw [creator_of_identity hid, bundleId_of_identity hid,
      submittedAt_of_identity hid, submitted_of_identity hid,
      resource_of_identity hid]
    exact h.handle
  payload := by
    rw [hp]
    exact h.payload
  token := ht
  root := hroot

theorem GraphReadable.congr_status
    (hk : q.entitlementPublicationClaimToken = r.entitlementPublicationClaimToken)
    (ht : q.terminalReason = r.terminalReason) (hst : q.status = r.status) :
    GraphReadable q s := by
  refine h.congr hid he hp (by rw [hk, hst]; exact h.token) ?_
  have hroot := h.root
  unfold GraphRootFits at hroot ⊢
  rwa [hst, ht]

theorem GraphReadable.congr_open
    (hk : q.entitlementPublicationClaimToken = r.entitlementPublicationClaimToken)
    (hr : r.status = .pending ∨ r.status = .inProgress)
    (hq : q.status = .pending ∨ q.status = .inProgress) : GraphReadable q s := by
  have hroot : s.root = .pending := by
    have hroot := h.root
    unfold GraphRootFits at hroot
    rcases hr with hr | hr <;> simpa [hr] using hroot
  refine h.congr hid he hp ?_ ?_
  · rw [hk, h.token]
    rcases hr with hr | hr <;> rcases hq with hq | hq <;> simp [hr, hq]
  · unfold GraphRootFits
    rcases hq with hq | hq <;> simpa [hq] using hroot

end

theorem GraphReadable.handle_of_binding (h : GraphReadable r s)
    (hid : q.identity = r.identity) (hb : s.binding = next.binding) :
    q.creator = next.creator ∧ q.bundleId = next.bundleId ∧ q.submittedAt = next.acceptedAt ∧
      q.submittedProofBundle.bundleId = next.bundleId ∧ q.resource = next.pubkyLockResource := by
  have hcreator : s.creator = next.creator := congrArg (·.1) hb
  have hbundle : s.bundleId = next.bundleId := congrArg (fun b => b.2.1) hb
  have hresource : s.pubkyLockResource = next.pubkyLockResource := congrArg (fun b => b.2.2.1) hb
  have haccepted : s.acceptedAt = next.acceptedAt := congrArg (fun b => b.2.2.2.2.2.1) hb
  rw [creator_of_identity hid, bundleId_of_identity hid,
    submittedAt_of_identity hid, submitted_of_identity hid,
    resource_of_identity hid, ← hcreator, ← hbundle, ← hresource, ← haccepted]
  exact h.handle

theorem Evaluator.persistSet_token (e : EvaluatorSnapshot) (o : Outcome) (k : Uuid)
    (dbNow : Timestamp) (r : TaskRow) :
    (persistSet e o k dbNow r).entitlementPublicationClaimToken =
      o.entitlement.map fun _ => k := by
  unfold persistSet retainClaims
  cases o.retain <;> rfl

theorem graphReadable_persist (h : GraphReadable r s)
    (hv : next.validate = .ok ()) (hb : s.binding = next.binding)
    (hpub : publicationValid (outcome next dbNow))
    (hid : (persistSet (.graph next) (outcome next dbNow) k dbNow r).identity =
      r.identity) :
    GraphReadable (persistSet (.graph next) (outcome next dbNow) k dbNow r) next := by
  obtain ⟨hst, hreason, -, hev⟩ :=
    persistSet_columns (.graph next) (outcome next dbNow) k dbNow r
  have hent := persistSet_entitlement (.graph next) (outcome next dbNow) k dbNow r
  have htok := persistSet_token (.graph next) (outcome next dbNow) k dbNow r
  refine ⟨hev, hv, h.handle_of_binding hid hb, ?_, ?_, ?_⟩
  · intro p hp
    rw [hent] at hp
    obtain ⟨e, he, rfl⟩ := Option.map_eq_some_iff.1 hp
    simp only [publicationValid, he, Option.all_some] at hpub
    obtain ⟨_, hve⟩ := isOk_iff.1 hpub
    refine ⟨e, rfl, hve, ?_⟩
    unfold outcome at he
    split at he <;> cases he
    simp [VerifiedProofBundleV2.isFor, Evaluator.publication]
  · rw [htok, hst]
    unfold outcome
    split <;> simp
  · unfold GraphRootFits
    rw [hst, hreason]
    rcases hroot : next.root with _ | _ | (_ | _) | _ <;> simp [outcome, hroot]

theorem graphReadable_of_rowStep (hs : db.Sound) (hmem : r ∈ db.tasks)
    (hr : GraphReadable r s) (h : RowStep db r op q) : ∃ s', GraphReadable q s' := by
  have hid := identity_of_rowStep h
  have hlane : r.lane = .graph := by
    unfold lane
    rw [hr.evaluator]
  cases h with
  | kept => exact ⟨s, hr⟩
  | frozen job seen t _ _ =>
    refine ⟨s, ?_⟩
    by_cases ho : open_ r
    · have hopen := ho
      simp only [open_, Bool.or_eq_true, beq_iff_eq] at hopen
      exact hr.congr_open hid rfl rfl rfl hopen (.inl (if_pos ho))
    · exact hr.congr_status hid rfl rfl rfl rfl (if_neg ho)
  | expired l now hg =>
    refine ⟨s, hr.congr hid ?_ rfl ?_ (.inr rfl)⟩
    · simp [expireUnresolved, hr.evaluator, closeSnapshot]
    · simp [expireUnresolved]
  | released l now => exact ⟨s, hr.congr_status hid rfl rfl rfl rfl rfl⟩
  | statement st hst hg =>
    have hlane' := (lane_of_guard hs hmem hst hg).trans (congrArg some hlane)
    cases st with
    | graphClaim l now e dbNow =>
      refine ⟨s, ?_⟩
      simp only [TaskStatement.update, claimNext, Bool.and_eq_true] at hg
      obtain ⟨root, -, hc⟩ := (Option.any_eq_true _ _).1 hg.2
      rcases active_of_claimable hc with hst | hst | hst
      · exact hr.congr_open hid rfl rfl rfl (.inl hst) (.inr (if_neg (by simp [hst])))
      · exact hr.congr_open hid rfl rfl rfl (.inr hst) (.inr (if_neg (by simp [hst])))
      · exact hr.congr_status hid rfl rfl rfl rfl (if_pos hst)
    | graphPersist l n next k dbNow =>
      simp only [TaskStatement.update, persist, Bool.and_eq_true] at hg
      obtain ⟨t, ht, hv, -, hb, -⟩ := persistChecks_spec hg.1.2
      cases hr.evaluator.symm.trans (snapshot_of_toGraphTask ht).1
      exact ⟨next, graphReadable_persist hr hv hb hg.2 hid⟩
    | graphRetry l n next now due dbNow =>
      simp only [TaskStatement.update, scheduleRetry, Bool.and_eq_true,
        claimed_iff] at hg
      obtain ⟨t, ht, hv, hb, -, hroot⟩ := scheduleChecks_spec hg.2
      cases hr.evaluator.symm.trans (snapshot_of_toGraphTask ht).1
      have hnone := ((stateCheck_inProgress hg.1.2.1).1
        (stateCheck_of_checks (hs.checks r hmem))).2.2.1
      refine ⟨next, rfl, hv, hr.handle_of_binding hid hb, ?_, ?_, hroot⟩
      · intro p hp
        have hp' : r.entitlementToPublish = some p := hp
        rw [hp'] at hnone
        cases hnone
      · have htok := hr.token
        rw [hg.1.2.1] at htok
        have hset : ((scheduleRetry db l n next now due dbNow).set r).status = .pending := rfl
        show r.entitlementPublicationClaimToken.isSome ↔ _
        rw [htok]
        simp [TaskStatement.update, hset]
    | graphRelease l =>
      refine ⟨s, ?_⟩
      by_cases hre : reopens r
      · have hin : r.status = .inProgress := by
          simp only [reopens, Bool.and_eq_true, beq_iff_eq] at hre
          exact hre.1
        exact hr.congr_open hid rfl rfl rfl (.inr hin) (.inl (if_pos hre))
      · exact hr.congr_status hid rfl rfl rfl rfl (if_neg hre)
    | graphComplete l n k dbNow =>
      simp only [TaskStatement.update, complete, Bool.and_eq_true] at hg
      have hpub := status_of_publishing hg.1.1.2
      have hroot := hr.root
      unfold GraphRootFits at hroot
      rw [hpub] at hroot
      refine ⟨s, hr.congr hid rfl rfl ?_ hroot⟩
      simp [TaskStatement.update, complete, completeSet]
    | freeze j c l => cases hst
    | expireUnresolved l now => cases hst
    | _ => cases hlane'

theorem Payment.root_of_scheduleChecks {next : PaymentTaskSnapshotV1}
    (h : (Payment.scheduleChecks next d r).isOk) : next.root = .pending := by
  obtain ⟨u, h⟩ := isOk_iff.1 h
  simp only [Payment.scheduleChecks, bind_eq_ok, refuse_eq_ok] at h
  obtain ⟨_, -, t, -, _, -, hroot⟩ := h
  exact not_not.1 hroot

theorem PaymentReadable.congr {s : PaymentTaskSnapshotV1} (h : PaymentReadable r s)
    (hid : q.identity = r.identity) (he : q.evaluator = r.evaluator)
    (hp : q.entitlementToPublish = r.entitlementToPublish)
    (ht : q.terminalReason = r.terminalReason) : PaymentReadable q s where
  evaluator := he.trans h.evaluator
  valid := h.valid
  handle := by
    rw [creator_of_identity hid, bundleId_of_identity hid,
      submittedAt_of_identity hid, submitted_of_identity hid]
    exact h.handle
  payload := by
    rw [hp]
    exact h.payload
  reason := ht.trans h.reason

theorem PaymentReadable.handle_of_binding {s next : PaymentTaskSnapshotV1}
    (h : PaymentReadable r s) (hid : q.identity = r.identity) (hb : next.binding = s.binding) :
    q.creator = next.creator ∧ q.bundleId = next.bundleId ∧ q.submittedAt = next.acceptedAt ∧
      q.submittedProofBundle = .v2 next.submittedProofBundle := by
  have hcreator : next.creator = s.creator := congrArg (fun b => b.2.1) hb
  have hbundle : next.bundleId = s.bundleId := congrArg (fun b => b.2.2.1) hb
  have hsubmitted : next.submittedProofBundle = s.submittedProofBundle :=
    congrArg (fun b => b.2.2.2.1) hb
  have haccepted : next.acceptedAt = s.acceptedAt := congrArg (fun b => b.2.2.2.2.2.2.2.2.1) hb
  rw [creator_of_identity hid, bundleId_of_identity hid,
    submittedAt_of_identity hid, submitted_of_identity hid, hcreator, hbundle,
    hsubmitted, haccepted]
  exact h.handle

theorem paymentReadable_persist {s next : PaymentTaskSnapshotV1}
    (h : PaymentReadable r s) (hv : next.validate = .ok ()) (hb : next.binding = s.binding)
    (hpub : publicationValid (Payment.outcome next dbNow))
    (hid : (persistSet (.payment next) (Payment.outcome next dbNow) k dbNow r).identity =
      r.identity) :
    PaymentReadable (persistSet (.payment next) (Payment.outcome next dbNow) k dbNow r)
      next := by
  obtain ⟨-, hreason, -, hev⟩ :=
    persistSet_columns (.payment next) (Payment.outcome next dbNow) k dbNow r
  have hent :=
    persistSet_entitlement (.payment next) (Payment.outcome next dbNow) k dbNow r
  refine ⟨hev, hv, h.handle_of_binding hid hb, ?_, ?_⟩
  · intro p hp
    rw [hent] at hp
    obtain ⟨e, he, rfl⟩ := Option.map_eq_some_iff.1 hp
    simp only [publicationValid, he, Option.all_some] at hpub
    obtain ⟨_, hve⟩ := isOk_iff.1 hpub
    refine ⟨e, rfl, hve, ?_⟩
    unfold Payment.outcome at he
    split at he <;> cases he
    simp [VerifiedProofBundleV2.isFor, Evaluator.publication]
  · rw [hreason]
    cases hroot : next.root <;> simp [Payment.outcome, hroot, PaymentRootState.terminalReason]

theorem paymentReadable_of_rowStep {s : PaymentTaskSnapshotV1} (hs : db.Sound) (hmem : r ∈ db.tasks)
    (hr : PaymentReadable r s) (h : RowStep db r op q) : ∃ s', PaymentReadable q s' := by
  have hid := identity_of_rowStep h
  have hlane : r.lane = .payment := by
    unfold lane
    rw [hr.evaluator]
  cases evaluatorStep_of_rowStep hs hmem (by simp [hlane]) h with
  | kept op q hk => exact ⟨s, hr.congr hid hk.evaluator hk.entitlement hk.reason⟩
  | graphPersisted l n next k dbNow hg =>
    simp only [persist, Bool.and_eq_true] at hg
    cases hlane.symm.trans (lane_of_persistChecks hg.1.2)
  | graphScheduled l n next now due dbNow hg =>
    simp only [scheduleRetry, Bool.and_eq_true] at hg
    cases hlane.symm.trans (lane_of_scheduleChecks hg.2)
  | paymentPersisted l n input k dbNow next now hact hg =>
    simp only [Payment.persist, Bool.and_eq_true] at hg
    obtain ⟨t, ht, hprog⟩ := Payment.persistChecks_spec hg.1.2
    cases hr.evaluator.symm.trans (snapshot_of_toPaymentTask ht)
    obtain ⟨hv, hb⟩ := PaymentTaskSnapshotV1.binding_of_progress hprog
    exact ⟨next, paymentReadable_persist hr hv hb hg.2 hid⟩
  | paymentScheduled l n input dbNow next now due hact hg =>
    simp only [Payment.scheduleRetry, Bool.and_eq_true, Payment.claimed_iff] at hg
    obtain ⟨t, ht, hprog⟩ := Payment.scheduleChecks_spec hg.2
    cases hr.evaluator.symm.trans (snapshot_of_toPaymentTask ht)
    obtain ⟨hv, hb⟩ := PaymentTaskSnapshotV1.binding_of_progress hprog
    obtain ⟨-, hu, hnone, -⟩ := (stateCheck_inProgress hg.1.2.1).1
      (stateCheck_of_checks (hs.checks r hmem))
    refine ⟨next, rfl, hv, hr.handle_of_binding hid hb, ?_, ?_⟩
    · intro p hp
      have hp' : r.entitlementToPublish = some p := hp
      rw [hp'] at hnone
      cases hnone
    · rw [Payment.root_of_scheduleChecks hg.2]
      simp only [unfinished, Bool.and_eq_true, Option.isNone_iff_eq_none] at hu
      exact hu.2
  | closed l now hg =>
    have hb : { s with root := .expired .contentLockDeleted }.binding = s.binding := rfl
    refine ⟨{ s with root := .expired .contentLockDeleted }, ?_, hr.valid,
      hr.handle_of_binding hid hb, hr.payload, rfl⟩
    simp [expireUnresolved, hr.evaluator, closeSnapshot]

/-- **Rows stay readable.** -/
theorem readable_of_rowStep (hs : db.Sound) (hmem : r ∈ db.tasks) (hr : r.Readable)
    (h : RowStep db r op q) : q.Readable := by
  have hlane := lane_of_identity (identity_of_rowStep h)
  unfold Readable at hr ⊢
  rw [hlane]
  cases hl : r.lane with
  | v1 =>
    rw [hl] at hr
    exact v1Readable_of_rowStep hs hmem hl hr h
  | graph =>
    rw [hl] at hr
    obtain ⟨s, hr⟩ := hr
    exact graphReadable_of_rowStep hs hmem hr h
  | payment =>
    rw [hl] at hr
    obtain ⟨s, hr⟩ := hr
    exact paymentReadable_of_rowStep hs hmem hr h

/-! ## Publications of the graph lane -/

/-- The row is being published with the entitlement and the token, or its
    publication of the entitlement is complete. -/
def TaskRow.Publishes (r : TaskRow) (payload : Option VerifiedProofBundlePayload)
    (token : Option Uuid) : Prop :=
  r.entitlementToPublish = payload ∧
    (r.status = .publishingEntitlement ∧ r.entitlementPublicationClaimToken = token ∨
      r.status = .completed)

theorem TaskRow.Publishes.settled (h : r.Publishes payload token) : r.Settled :=
  h.2.imp And.left id

theorem TaskRow.Publishes.congr (h : r.Publishes payload token) (hst : q.status = r.status)
    (hp : q.entitlementToPublish = r.entitlementToPublish)
    (hk : q.entitlementPublicationClaimToken = r.entitlementPublicationClaimToken) :
    q.Publishes payload token := by
  unfold Publishes
  rw [hst, hp, hk]
  exact h

/-- **A publication keeps its entitlement and its token** until it is
    complete. -/
theorem publishes_of_rowStep (hs : db.Sound) (hmem : r ∈ db.tasks) (hlane : r.lane = .graph)
    (hr : r.Publishes payload token) (h : RowStep db r op q) : q.Publishes payload token := by
  obtain ⟨hpending, hprogress⟩ := hr.settled.not_open
  cases h with
  | kept => exact hr
  | frozen job seen t _ _ =>
    exact hr.congr (by simp [freeze, hr.settled.open_eq_false]) rfl rfl
  | expired l now hg => simp [expireUnresolved, hr.settled.open_eq_false] at hg
  | released l now => exact hr.congr rfl rfl rfl
  | statement st hst hg =>
    have hlane' := (lane_of_guard hs hmem hst hg).trans (congrArg some hlane)
    cases st with
    | graphClaim l now e dbNow =>
      simp only [TaskStatement.update, claimNext, Bool.and_eq_true] at hg
      obtain ⟨root, -, hc⟩ := (Option.any_eq_true _ _).1 hg.2
      exact hr.congr (status_claimSet hr.settled hc l now e) rfl rfl
    | graphPersist l n next k dbNow =>
      simp only [TaskStatement.update, persist, Bool.and_eq_true, claimed_iff] at hg
      exact absurd hg.1.1.2.1 hprogress
    | graphRetry l n next now due dbNow =>
      simp only [TaskStatement.update, scheduleRetry, Bool.and_eq_true,
        claimed_iff] at hg
      exact absurd hg.1.2.1 hprogress
    | graphRelease l =>
      have hre : reopens r = false := by simp [reopens, hprogress]
      exact hr.congr (by simp [TaskStatement.update, release, hre]) rfl rfl
    | graphComplete l n k dbNow => exact ⟨hr.1, .inr rfl⟩
    | freeze j c l => cases hst
    | expireUnresolved l now => cases hst
    | _ => cases hlane'

/-! ## Runs -/

variable {db' : Database} {E : Externals} {ops : List Operation}

theorem readable_of_step (hs : db.Sound) (hr : ∀ r ∈ db.tasks, r.Readable)
    (hrun : op.run E db = some db') : ∀ q ∈ db'.tasks, q.Readable := by
  intro q hq
  rcases rowStep_of_run hs hrun hq with ⟨r, hmem, hstep⟩ | ⟨a, -, hnew, hadm⟩
  · exact readable_of_rowStep hs hmem (hr r hmem) hstep
  · exact readable_of_newRow hnew hadm

/-- **Every stored row is readable**, in every run. -/
theorem readable_of_run (h : Runs.Run (Runs.ofExec (Operation.run E)) .empty ops db) :
    db.Sound ∧ ∀ r ∈ db.tasks, r.Readable :=
  h.invariant (I := fun db => db.Sound ∧ ∀ r ∈ db.tasks, r.Readable)
    ⟨Database.sound_empty, List.forall_mem_nil _⟩ fun _ _ _ hw hrun =>
      ⟨sound_of_effect hw.1 (effect_of_run hw.1 hrun), readable_of_step hw.1 hw.2 hrun⟩

theorem publishes_of_run (h : Runs.Run (Runs.ofExec (Operation.run E)) db ops db') (hs : db.Sound)
    {r : TaskRow} (hr : r ∈ db.tasks) (hlane : r.lane = .graph)
    (hp : r.status = .publishingEntitlement) :
    ∃ q ∈ db'.tasks, q.identity = r.identity ∧
      q.Publishes r.entitlementToPublish r.entitlementPublicationClaimToken := by
  apply h.invariant_under hs fun _ _ _ hs hrun => sound_of_effect hs (effect_of_run hs hrun)
  · exact ⟨r, hr, rfl, rfl, .inl ⟨hp, rfl⟩⟩
  rintro db op db' hs ⟨q, hq, hid, hpub⟩ hstep
  have heffect := effect_of_run hs hstep
  obtain ⟨q', hq', htask⟩ := exists_row_of_effect heffect hq
  have hrow := rowStep_of_taskId hs heffect hq hq' htask
  exact ⟨q', hq', (identity_of_rowStep hrow).trans hid,
    publishes_of_rowStep hs hq ((lane_of_identity hid).trans hlane) hpub hrow⟩

/-- **Graph rows always decode.**  In every run every stored row of the graph
    lane is accepted by the decoder, and from the write that starts a
    publication until it is complete the row keeps its entitlement and its
    token. -/
theorem graph_rows_decode {E : Externals} {ops ops' : List Operation} {db db' : Database}
    (h : Runs.Run (Runs.ofExec (Operation.run E)) .empty ops db)
    (h' : Runs.Run (Runs.ofExec (Operation.run E)) db ops' db') :
    (∀ r ∈ db.tasks, r.lane = .graph → ∃ t, toGraphTask r = .ok t ∧ t.taskId = r.taskId) ∧
      ∀ r ∈ db.tasks, r.lane = .graph → r.status = .publishingEntitlement →
        ∀ q ∈ db'.tasks, q.taskId = r.taskId →
          q.entitlementToPublish = r.entitlementToPublish ∧
            (q.status = .publishingEntitlement ∧
                q.entitlementPublicationClaimToken = r.entitlementPublicationClaimToken ∨
              q.status = .completed) := by
  obtain ⟨hs, hread⟩ := readable_of_run h
  constructor
  · intro r hr hlane
    have hrow := hread r hr
    rw [Readable, hlane] at hrow
    obtain ⟨s, hrow⟩ := hrow
    obtain ⟨t, ht, hid, -⟩ :=
      hrow.exists_toGraphTask (stateCheck_of_checks (hs.checks r hr))
    exact ⟨t, ht, hid⟩
  · intro r hr hlane hp q hq hid
    obtain ⟨q', hq', hid', hpub⟩ := publishes_of_run h' hs hr hlane hp
    have hs' := (readable_of_run (h.append h')).1
    have heq : q = q' :=
      List.inj_on_of_nodup_map hs'.taskIds hq hq' (hid.trans (taskId_of_identity hid').symm)
    rw [heq]
    exact hpub

/-- A graph task is admitted, claimed and found satisfied. -/
def satisfiedRun : List Operation :=
  let lease : Lease := ⟨⟨⟨1⟩⟩, "worker", ⟨2⟩⟩
  [.admission (.insertGraphTask ⟨⟨⟨1⟩⟩, admittedGraphSnapshot, 0, .pending, none, none, none⟩),
    .statement (.graphClaim lease 0 (Duration.seconds 60) 0),
    .statement (.graphPersist lease 0 { followedSnapshot with root := .satisfied } ⟨3⟩
      (Duration.seconds 11))]

/-- The publication of that task keeps its entitlement when it is completed. -/
theorem satisfied_rows_decode : let E := Externals.constant (.replicate 7)
    ∃ db r db' q, Runs.execList (Operation.run E) .empty satisfiedRun = some db ∧ r ∈ db.tasks ∧
      r.status = .publishingEntitlement ∧ (∃ t, toGraphTask r = .ok t ∧ t.taskId = r.taskId) ∧
      Runs.execList (Operation.run E) db
        [.statement (.graphComplete ⟨⟨⟨1⟩⟩, "worker", ⟨2⟩⟩ 1 ⟨3⟩ (Duration.seconds 12))] = some db' ∧
      q ∈ db'.tasks ∧ q.entitlementToPublish = r.entitlementToPublish := by
  intro E
  have h : (Runs.execList (Operation.run E) .empty satisfiedRun).isSome := by decide +kernel
  have h' : (Runs.execList (Operation.run E)
    ((Runs.execList (Operation.run E) .empty satisfiedRun).get h)
    [.statement (.graphComplete ⟨⟨⟨1⟩⟩, "worker", ⟨2⟩⟩ 1 ⟨3⟩ (Duration.seconds 12))]).isSome := by
    decide +kernel +revert
  have hdecode := graph_rows_decode
    (Runs.run_of_execList (Operation.run E) (Option.some_get h).symm)
    (Runs.run_of_execList (Operation.run E) (Option.some_get h').symm)
  exact ⟨_, _, _, _, (Option.some_get h).symm, List.mem_cons_self, rfl,
    hdecode.1 _ List.mem_cons_self rfl, (Option.some_get h').symm, List.mem_cons_self,
    (hdecode.2 _ List.mem_cons_self rfl rfl _ List.mem_cons_self rfl).1⟩

end PubkyLocks
