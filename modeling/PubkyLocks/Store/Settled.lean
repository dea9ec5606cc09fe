/-
  Settled tasks: the rows that publish an entitlement or have published one.
-/
import PubkyLocks.Store.Lifecycles

namespace PubkyLocks

open TaskStatement Payment VerificationTaskRecord Checks Evaluator CompletionTransition TaskRow
  Drain

/-- The row publishes an entitlement or has published one. -/
def TaskRow.Settled (r : TaskRow) : Prop :=
  r.status = .publishingEntitlement ∨ r.status = .completed

def VerifiedProofBundlePayload.key : VerifiedProofBundlePayload → CreatorPubky × BundleId
  | v1 e => (e.pubkyLockResource.creator, e.bundleId)
  | v2 e => (e.creator, e.bundleId)

def TaskStatement.completes : TaskStatement → Bool
  | v1Persist _ _ (.complete _) _ | graphComplete .. | paymentComplete .. | drainComplete .. => true
  | _ => false

def Operation.completes : Operation → Bool
  | statement st => st.completes
  | _ => false

variable {db : Database} {op : Operation} {r q : TaskRow} {dbNow : Timestamp}

theorem TaskRow.Settled.not_open (h : r.Settled) : r.status ≠ .pending ∧
    r.status ≠ .inProgress := by
  rcases h with h | h <;> rw [h] <;> decide

theorem TaskRow.Settled.open_eq_false (h : r.Settled) : Deletion.open_ r = false := by
  rcases h with h | h <;> simp [Deletion.open_, h]

theorem TaskRow.Settled.unpublished_eq_false (h : r.Settled) : unpublished r = false := by
  rcases h with h | h <;> simp [unpublished, h]

theorem TaskRow.settled_of_payload {p : VerifiedProofBundlePayload} (hc : r.stateCheck)
    (h : r.entitlementToPublish = some p) : r.Settled := by
  cases hs : r.status with
  | publishingEntitlement => exact .inl hs
  | completed => exact .inr hs
  | pending =>
    have he := ((stateCheck_pending hs).1 hc).2.2.1
    simp [h] at he
  | inProgress =>
    have he := ((stateCheck_inProgress hs).1 hc).2.2.1
    simp [h] at he
  | failed =>
    have he := ((stateCheck_failed hs).1 hc).2.2.2.1
    simp [h] at he
  | expired =>
    have he := ((stateCheck_expired hs).1 hc).2.2.2.1
    simp [h] at he

theorem status_claimSet {root : RootKind} (h : r.Settled) (hc : claimable root dbNow r)
    (l : Lease) (now claimExpiresAt : Timestamp) :
    (claimSet l now claimExpiresAt dbNow r).status = r.status := by
  rcases active_of_claimable hc with hs | hs | hs
  · exact absurd hs h.not_open.1
  · exact absurd hs h.not_open.2
  · simp [claimSet, hs]

theorem CompletionTransition.completed_of_apply {at' : Timestamp}
    {t t' : VerificationTaskRecord} (h : (complete at').apply t = .ok t') :
    t'.status = .completed ∧ t'.entitlementToPublish = t.entitlementToPublish := by
  simp only [apply, completeEntitlementPublication,
    transitionTo] at h
  obtain ⟨-, -, h⟩ := bind_eq_ok.1 h
  obtain ⟨-, -, h⟩ := bind_eq_ok.1 h
  obtain ⟨-, -, h⟩ := bind_eq_ok.1 h
  cases h
  exact ⟨rfl, rfl⟩

theorem CompletionTransition.publishing_of_apply {e : VerifiedProofBundle}
    {t t' : VerificationTaskRecord} (h : (publish e).apply t = .ok t') :
    t' = { t with status := .publishingEntitlement, entitlementToPublish := some e } := by
  simp only [apply, beginEntitlementPublication] at h
  obtain ⟨-, -, h⟩ := bind_eq_ok.1 h
  obtain ⟨-, -, h⟩ := bind_eq_ok.1 h
  cases h
  rfl

theorem CompletionTransition.status_of_apply {c : CompletionTransition}
    {t t' : VerificationTaskRecord} (h : c.apply t = .ok t') :
    (∃ e, c = .publish e ∧
        t' = { t with status := .publishingEntitlement, entitlementToPublish := some e }) ∨
      (∃ at', c = .complete at') ∨
      t'.status = .failed ∨ t'.status = .expired := by
  cases c with
  | publish e => exact .inl ⟨e, rfl, publishing_of_apply h⟩
  | complete at' => exact .inr (.inl ⟨at', rfl⟩)
  | fail at' message =>
    exact .inr (.inr (.inl (transitionTo_failed_valid h).2))
  | expire at' request payment =>
    simp only [apply] at h
    split at h
    · exact .inr (.inr (.inr (expire_valid h).2.1))
    · cases h

/-- **Settled rows** are left alone by every other transaction. -/
theorem settled_kept (h : RowStep db r op q) (hr : r.Settled) (hop : op.completes = false) :
    q.status = r.status ∧ q.entitlementToPublish = r.entitlementToPublish := by
  obtain ⟨hpending, hprogress⟩ := hr.not_open
  cases h with
  | kept => exact ⟨rfl, rfl⟩
  | frozen job seen t _ _ => exact ⟨by simp [Deletion.freeze, hr.open_eq_false], rfl⟩
  | expired l now hg => simp [Deletion.expireUnresolved, hr.open_eq_false] at hg
  | released l now => exact ⟨rfl, rfl⟩
  | statement st hst hg =>
    cases st with
    | v1Claim l now e dbNow => exact ⟨if_neg hpending, rfl⟩
    | v1Retry l now e dbNow =>
      simp only [update, V1.scheduleRetry, Bool.and_eq_true, beq_iff_eq] at hg
      exact absurd hg.1.1.2 hprogress
    | v1Persist l claimed c dbNow =>
      simp only [update] at hg
      split at hg
      · rename_i t ht
        simp only [V1.persistTransition, Bool.and_eq_true, beq_iff_eq] at hg
        obtain ⟨⟨⟨-, hexp⟩, -⟩, -⟩ := hg
        rcases status_of_apply ht with ⟨e, -, rfl⟩ | ⟨at', rfl⟩ | hs | hs
        · exact absurd (Option.some.inj hexp).symm hprogress
        · cases hop
        · rw [hs] at hexp
          exact absurd (Option.some.inj hexp).symm hprogress
        · rw [hs] at hexp
          exact absurd (Option.some.inj hexp).symm hprogress
      · cases hg
    | invoiceClaim l ttl dbNow =>
      simp only [update, Invoice.claimNext, Bool.and_eq_true,
        Invoice.awaiting_iff] at hg
      exact absurd hg.1.1.2.2 hpending
    | invoiceReady l c d dbNow =>
      simp only [update, Invoice.markReady, Bool.and_eq_true,
        Invoice.awaiting_iff] at hg
      exact absurd hg.2.2 hpending
    | invoiceRetry l d dbNow =>
      simp only [update, Invoice.scheduleRetry, Bool.and_eq_true,
        Invoice.awaiting_iff] at hg
      exact absurd hg.1.2.2 hpending
    | invoiceFail l m dbNow =>
      simp only [update, Invoice.markFailed, Bool.and_eq_true,
        Invoice.awaiting_iff] at hg
      exact absurd hg.2.2 hpending
    | graphClaim l now e dbNow =>
      simp only [update, Graph.claimNext, Bool.and_eq_true] at hg
      obtain ⟨root, -, hc⟩ := (Option.any_eq_true _ _).1 hg.2
      exact ⟨status_claimSet hr hc l now e, rfl⟩
    | paymentClaim l now e dbNow =>
      simp only [update, claimNext, Bool.and_eq_true] at hg
      obtain ⟨root, -, hc⟩ := (Option.any_eq_true _ _).1 hg.2
      exact ⟨status_claimSet hr hc l now e, rfl⟩
    | graphPersist l n next k dbNow =>
      simp only [update, Graph.persist, Bool.and_eq_true, Graph.claimed_iff] at hg
      exact absurd hg.1.1.2.1 hprogress
    | graphRetry l n next now due dbNow =>
      simp only [update, Graph.scheduleRetry, Bool.and_eq_true,
        Graph.claimed_iff] at hg
      exact absurd hg.1.2.1 hprogress
    | paymentPersist l n input k dbNow =>
      simp only [update, TaskUpdate.ofRow] at hg
      split at hg
      · simp only [persist, Bool.and_eq_true, claimed_iff] at hg
        exact absurd hg.1.1.2.1 hprogress
      · cases hg
    | paymentRetry l n input dbNow =>
      simp only [update, TaskUpdate.ofRow] at hg
      split at hg
      · simp only [scheduleRetry, Bool.and_eq_true, claimed_iff] at hg
        exact absurd hg.1.2.1 hprogress
      · cases hg
    | graphRelease l =>
      have hre : Graph.reopens r = false := by simp [Graph.reopens, hprogress]
      exact ⟨by simp [update, Graph.release, hre], rfl⟩
    | paymentRelease l =>
      have hre : reopens r = false := by simp [reopens, hprogress]
      exact ⟨by simp [update, release, hre], rfl⟩
    | graphComplete l n k dbNow => cases hop
    | paymentComplete l n k dbNow => cases hop
    | drainBegin l id e k now =>
      simp only [update, beginPublication, hr.unpublished_eq_false,
        Bool.false_or, Bool.and_eq_true, beq_iff_eq] at hg
      obtain ⟨-, ⟨hs, he⟩, -⟩ := hg
      exact ⟨hs.symm, by simp [update, beginPublication, he]⟩
    | drainComplete l id k now => cases hop
    | drainExpire l id status n now =>
      simp only [update] at hg
      split at hg
      · simp [persistExpired, hr.unpublished_eq_false] at hg
      · cases hg
    | freeze j c l => cases hst
    | expireUnresolved l now => cases hst

theorem Graph.handle_of_persistChecks {next : GraphTaskSnapshotV1}
    (h : (Graph.persistChecks next dbNow r).isOk) :
    next.creator = r.creator ∧ next.bundleId = r.bundleId := by
  obtain ⟨t, ht, -, -, hsame, -⟩ := persistChecks_spec h
  simp only [toGraphTask, bind_eq_ok, refuse_eq_ok] at ht
  obtain ⟨s, -, _, -, _, hid, _, -, _, -, _, -, ht⟩ := ht
  cases ht
  simp only [not_or, not_not] at hid
  have hcreator : s.creator = next.creator := congrArg (·.1) hsame
  have hbundle : s.bundleId = next.bundleId := congrArg (fun b => b.2.1) hsame
  exact ⟨hcreator.symm.trans hid.1.symm, hbundle.symm.trans hid.2.1.symm⟩

theorem Payment.handle_of_persistChecks {next : PaymentTaskSnapshotV1}
    (h : (persistChecks next r).isOk) :
    next.creator = r.creator ∧ next.bundleId = r.bundleId := by
  obtain ⟨t, ht, hprog⟩ := persistChecks_spec h
  simp only [toPaymentTask, bind_eq_ok, refuse_eq_ok] at ht
  obtain ⟨s, -, _, -, _, hid, _, -, _, -, _, -, ht⟩ := ht
  cases ht
  simp only [not_or, not_not] at hid
  have hsame := (PaymentTaskSnapshotV1.binding_of_progress hprog).2
  have hcreator : next.creator = s.creator := congrArg (fun b => b.2.1) hsame
  have hbundle : next.bundleId = s.bundleId := congrArg (fun b => b.2.2.1) hsame
  exact ⟨hcreator.trans hid.1.symm, hbundle.trans hid.2.1.symm⟩

theorem Evaluator.persistSet_entitlement (e : EvaluatorSnapshot) (o : Outcome) (k : Uuid)
    (dbNow : Timestamp) (r : TaskRow) :
    (persistSet e o k dbNow r).entitlementToPublish = o.entitlement.map .v2 := by
  unfold persistSet retainClaims
  cases o.retain <;> rfl

theorem Graph.publication_of_outcome {s : GraphTaskSnapshotV1}
    (h : (Graph.outcome s dbNow).status = .publishingEntitlement ∨
      (Graph.outcome s dbNow).status = .completed) :
    (Graph.outcome s dbNow).status = .publishingEntitlement ∧
      ∃ e, (Graph.outcome s dbNow).entitlement = some e ∧ e.creator = s.creator ∧
        e.bundleId = s.bundleId := by
  unfold Graph.outcome at h ⊢
  split at h <;> simp at h ⊢
  exact ⟨rfl, rfl⟩

theorem Payment.publication_of_outcome {s : PaymentTaskSnapshotV1}
    (h : (outcome s dbNow).status = .publishingEntitlement ∨
      (outcome s dbNow).status = .completed) :
    (outcome s dbNow).status = .publishingEntitlement ∧
      ∃ e, (outcome s dbNow).entitlement = some e ∧ e.creator = s.creator ∧
        e.bundleId = s.bundleId := by
  unfold outcome at h ⊢
  split at h <;> simp at h ⊢
  exact ⟨rfl, rfl⟩

/-- How an open row becomes settled: by a persist of a version-2 lane, which
    publishes for the handle of the row, by the verdict of a version-1 worker or
    by the drain. -/
inductive Entered (r : TaskRow) : Operation → VerifiedProofBundlePayload → Prop
  | evaluator (op : Operation) (e : VerifiedProofBundleV2) :
      e.creator = r.creator → e.bundleId = r.bundleId → Entered r op (.v2 e)
  | verdict (l : Lease) (claimed : VerificationTaskRecord) (e : VerifiedProofBundle)
      (dbNow : Timestamp) : r.taskId = l.taskId →
      Entered r (.statement (.v1Persist l claimed (.publish e) dbNow)) (.v1 e)
  | drain (l : JobLease) (e : VerifiedProofBundle) (k : Uuid) (now : Timestamp) :
      Entered r (.statement (.drainBegin l r.taskId e k now)) (.v1 e)

theorem entered_of_evaluatorStep (h : EvaluatorStep db r op q) (hr : ¬ r.Settled)
    (hq : q.Settled) : q.status = .publishingEntitlement ∧
      ∃ p, q.entitlementToPublish = some p ∧ Entered r op p := by
  cases h with
  | kept op q hk =>
    rcases hk.status with hs | ⟨-, ho⟩ | ⟨hs, -⟩
    · exact absurd (by rwa [Settled, ← hs]) hr
    · rw [hq.open_eq_false] at ho
      cases ho
    · exact absurd (.inl hs) hr
  | graphPersisted l n next k dbNow hg =>
    simp only [Graph.persist, Bool.and_eq_true] at hg
    have hst := (persistSet_columns (.graph next) (Graph.outcome next dbNow) k dbNow r).1
    obtain ⟨hpub, e, he, hc, hb⟩ := Graph.publication_of_outcome (by rwa [← hst])
    obtain ⟨hcreator, hbundle⟩ := Graph.handle_of_persistChecks hg.1.2
    refine ⟨hst.trans hpub, .v2 e, ?_, .evaluator _ e (hc.trans hcreator) (hb.trans hbundle)⟩
    exact (persistSet_entitlement ..).trans (by rw [he]; rfl)
  | graphScheduled => rcases hq with hq | hq <;> cases hq
  | paymentPersisted l n input k dbNow next now hact hg =>
    simp only [persist, Bool.and_eq_true] at hg
    have hst :=
      (persistSet_columns (.payment next) (outcome next dbNow) k dbNow r).1
    obtain ⟨hpub, e, he, hc, hb⟩ := publication_of_outcome (by rwa [← hst])
    obtain ⟨hcreator, hbundle⟩ := handle_of_persistChecks hg.1.2
    refine ⟨hst.trans hpub, .v2 e, ?_, .evaluator _ e (hc.trans hcreator) (hb.trans hbundle)⟩
    exact (persistSet_entitlement ..).trans (by rw [he]; rfl)
  | paymentScheduled => rcases hq with hq | hq <;> cases hq
  | closed => rcases hq with hq | hq <;> cases hq

/-- **Entering.**  A row that becomes settled starts to publish. -/
theorem entered_of_rowStep (hs : db.Sound) (hmem : r ∈ db.tasks) (h : RowStep db r op q)
    (hr : ¬ r.Settled) (hq : q.Settled) (hop : op.completes = false) :
    q.status = .publishingEntitlement ∧ ∃ p, q.entitlementToPublish = some p ∧ Entered r op p := by
  by_cases hlane : r.lane = .v1
  swap
  · exact entered_of_evaluatorStep (evaluatorStep_of_rowStep hs hmem hlane h) hr hq
  cases h with
  | kept => exact absurd hq hr
  | frozen job seen t _ _ =>
    exfalso
    by_cases ho : Deletion.open_ r
    · rcases hq with hq | hq <;> simp [Deletion.freeze, ho] at hq
    · exact hr (by simpa [Settled, Deletion.freeze, ho] using hq)
  | expired l now hg => rcases hq with hq | hq <;> cases hq
  | released l now => exact absurd hq hr
  | statement st hst hg =>
    have hlane' := (lane_of_guard hs hmem hst hg).trans (congrArg some hlane)
    cases st with
    | v1Claim l now e dbNow =>
      exfalso
      by_cases hp : r.status = .pending
      · rcases hq with hq | hq <;> simp [update, V1.claimNext, hp] at hq
      · exact hr (by simpa [Settled, update, V1.claimNext, hp] using hq)
    | v1Retry l now e dbNow => rcases hq with hq | hq <;> cases hq
    | v1Persist l claimed c dbNow =>
      cases hc : c.apply claimed with
      | error m => simp [update, hc, TaskUpdate.skip] at hg
      | ok t =>
        simp only [update, hc, V1.persistTransition, Bool.and_eq_true, beq_iff_eq,
          Lease.holds] at hg hq ⊢
        rcases status_of_apply hc with ⟨e, rfl, rfl⟩ | ⟨at', rfl⟩ | ht | ht
        · exact ⟨rfl, .v1 e, rfl, .verdict l claimed e dbNow hg.1.1.1.1.1⟩
        · cases hop
        · rcases hq with hq | hq <;> simp [ht] at hq
        · rcases hq with hq | hq <;> simp [ht] at hq
    | invoiceClaim l ttl dbNow => exact absurd hq hr
    | invoiceReady l c d dbNow => exact absurd hq hr
    | invoiceRetry l d dbNow => exact absurd hq hr
    | invoiceFail l m dbNow => rcases hq with hq | hq <;> cases hq
    | drainBegin l id e k now =>
      simp only [update, beginPublication, Bool.and_eq_true, beq_iff_eq,
        Bool.or_eq_true, unpublished_iff] at hg
      obtain ⟨⟨⟨⟨rfl, -⟩, -⟩, -⟩, ⟨-, he, -⟩ | ⟨⟨hpub, -⟩, -⟩⟩ := hg
      · refine ⟨rfl, .v1 e, ?_, .drain l e k now⟩
        simp [update, beginPublication, Option.isNone_iff_eq_none.1 he]
      · exact absurd (.inl hpub) hr
    | drainComplete l id k now => cases hop
    | drainExpire l id status n now =>
      simp only [update] at hg hq
      split at hg
      · simp only [persistExpired] at hq
        rcases hq with hq | hq <;> simp_all
      · cases hg
    | freeze j c l => cases hst
    | expireUnresolved l now => cases hst
    | _ => cases hlane'

end PubkyLocks
