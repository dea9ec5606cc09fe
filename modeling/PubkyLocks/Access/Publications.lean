/-
  From the publication of a version-2 entitlement to its use.

  A version-2 task is admitted against a lock (`start_v2_verification`), its
  worker replaces the snapshot until the root is satisfied, and the lane builds
  the entitlement from the snapshot.  Four checkers that were written apart look
  at the same lock and entitlement: `validate_content_lock_submission`, the
  snapshot, `validate_verified_content_lock_publication` and
  `load_valid_entitlement`.
-/
import PubkyLocks.Access.EntitlementCheck
import PubkyLocks.Core.Resources
import PubkyLocks.Lanes.Statements
import PubkyLocks.Tasks.GraphReducer
import PubkyLocks.Tasks.PaymentEvidence

namespace PubkyLocks

open PaymentTaskSnapshotV1

/-! ## The resources of a lock -/

def ContentLockV2.resources (lock : ContentLockV2) : List GuardedResource :=
  lock.primaryResource.toList ++
    lock.secondaryResources.entries.map fun e => ⟨e.1, e.2.hash, e.2.contentType, e.2.size⟩

theorem ContentLockV2.resourceForPath_of_mem {E : Externals} {lock : ContentLockV2}
    {r : GuardedResource} (hv : lock.validate E = .ok ()) (hr : r ∈ lock.resources) :
    lock.resourceForPath r.path = some r :=
  (lookupResource_eq_some (ContentLockV2.apart_of_validate hv)).2 ⟨hr, rfl⟩

/-! ## The entitlements of the lanes -/

/-- The entitlements the lanes build for a lock: the task is admitted against
    the lock, its snapshots replace each other under the checks of the lane, and
    the last one is satisfied. -/
inductive LaneBuilds (E : Externals) (lock : ContentLockV2) : VerifiedProofBundleV2 → Prop
  | graph {submitted : SubmittedProofBundleV2} {hash : LockHash} {policy : GraphPolicyV2}
      {reader : CreatorPubky} {acceptedAt dbNow : Timestamp} {first last : GraphTaskSnapshotV1}
      {e : VerifiedProofBundleV2} :
      validateContentLockSubmission E (.v2 lock) (.v2 submitted) = .ok () →
      lock.graph = some policy → lock.payment = none → lock.lockHash E = .ok hash →
      GraphTaskSnapshotV1.new submitted.pubkyLockResource.creator submitted.bundleId
        submitted.pubkyLockResource hash reader acceptedAt lock.verificationWindowSeconds
        policy = .ok first →
      Relation.ReflTransGen (fun s t => ensureSameBinding s t = .ok () ∧
        t.validateProgressFrom s = .ok ()) first last →
      (Graph.outcome last dbNow).entitlement = some e → LaneBuilds E lock e
  | payment {submitted : SubmittedProofBundleV2} {hash : LockHash} {policy : PaymentPolicyV2}
      {acceptedAt dbNow : Timestamp} {first last : PaymentTaskSnapshotV1}
      {e : VerifiedProofBundleV2} :
      validateContentLockSubmission E (.v2 lock) (.v2 submitted) = .ok () →
      lock.payment = some policy → lock.graph = none → lock.lockHash E = .ok hash →
      PaymentTaskSnapshotV1.new submitted hash policy acceptedAt
        lock.verificationWindowSeconds = .ok first →
      Relation.ReflTransGen (fun s t => t.validateProgressFrom s = .ok ()) first last →
      (Payment.outcome last dbNow).entitlement = some e → LaneBuilds E lock e

/-- What an entitlement and its lock have in common. -/
structure BuiltFor (E : Externals) (lock : ContentLockV2) (e : VerifiedProofBundleV2) : Prop where
  valid : e.validate = .ok ()
  creator : e.creator = lock.creator
  resource : e.pubkyLockResource.creator = lock.creator
  lockId : lock.lockId E = .ok e.pubkyLockResource.lockId
  path : (lock.graph.isSome ∧ lock.payment = none ∧ e.satisfiedBy = [.graph]) ∨
    (lock.payment.isSome ∧ lock.graph = none ∧ e.satisfiedBy = [.payment])

variable {E : Externals} {lock : ContentLockV2} {e : VerifiedProofBundleV2}

theorem binding_of_graphChain {s t : GraphTaskSnapshotV1}
    (h : Relation.ReflTransGen (fun s t => ensureSameBinding s t = .ok () ∧
      t.validateProgressFrom s = .ok ()) s t) : t.binding = s.binding := by
  induction h with
  | refl => rfl
  | tail _ hstep ih =>
    obtain ⟨hstep, -⟩ := hstep
    exact (ensureSameBinding_eq_ok.1 hstep).symm.trans ih

theorem binding_of_paymentChain {s t : PaymentTaskSnapshotV1}
    (h : Relation.ReflTransGen (fun s t => t.validateProgressFrom s = .ok ()) s t) :
    t.binding = s.binding := by
  induction h with
  | refl => rfl
  | tail _ hstep ih =>
    simp only [validateProgressFrom, Checks.seq_eq_ok,
      Checks.refuse_eq_ok] at hstep
    obtain ⟨-, -, -, hsame, -⟩ := hstep
    rw [Bool.not_eq_true', Bool.not_eq_false, hasSameAdmissionBinding,
      beq_iff_eq] at hsame
    exact hsame.trans ih

theorem publication_validate {creator reader : CreatorPubky} {bundleId : BundleId}
    {resource : PubkyLockResource} {path : SatisfiedByV2} {dbNow : Timestamp}
    (hc : resource.creator = creator) (hp : path = .graph ∨ path = .payment) :
    (Evaluator.publication creator reader bundleId resource path dbNow).validate = .ok () := by
  rcases hp with rfl | rfl <;>
    simp [Evaluator.publication, VerifiedProofBundleV2.validate, hc]

/-- **The lanes build for their lock.** -/
theorem builtFor_of_laneBuilds (h : LaneBuilds E lock e) : BuiltFor E lock e := by
  cases h with
  | @graph submitted hash policy reader acceptedAt dbNow first last _ hsub hg hp hhash hnew hchain
      hout =>
    obtain ⟨hc, hid⟩ := resource_of_submission hsub
    obtain ⟨-, hcreator, -, hres, -, -⟩ := GraphTaskSnapshotV1.new_spec hnew
    have hbind := binding_of_graphChain hchain
    simp only [GraphTaskSnapshotV1.binding, Prod.mk.injEq] at hbind
    obtain ⟨hsameCreator, -, hsameResource, -⟩ := hbind
    have hlast : last.creator = lock.creator := by rw [hsameCreator, hcreator, hc]
    have hlastRes : last.pubkyLockResource = submitted.pubkyLockResource := by
      rw [hsameResource, hres]
    unfold Graph.outcome at hout
    split at hout <;> try cases hout
    refine ⟨publication_validate ?_ (.inl rfl), hlast, ?_, ?_, .inl ⟨by simp [hg], hp, rfl⟩⟩
    · rw [hlastRes, hlast, hc]
    · show last.pubkyLockResource.creator = _
      rw [hlastRes, hc]
    · show _ = Except.ok last.pubkyLockResource.lockId
      rw [hlastRes]
      exact hid
  | @payment submitted hash policy acceptedAt dbNow first last _ hsub hp hg hhash hnew hchain
      hout =>
    obtain ⟨hc, hid⟩ := resource_of_submission hsub
    obtain ⟨hv, hbundle, -, -⟩ := new_spec hnew
    have hvalid := valid_of_validate hv
    have hbind := binding_of_paymentChain hchain
    simp only [binding, Prod.mk.injEq] at hbind
    obtain ⟨-, hsameCreator, -, -, hsameResource, -⟩ := hbind
    have hlastRes : last.pubkyLockResource = submitted.pubkyLockResource := by
      rw [hsameResource, ← hvalid.resource, hbundle]
    have hlast : last.creator = lock.creator := by
      rw [hsameCreator, ← hvalid.creator, ← hvalid.resource, hbundle, hc]
    unfold Payment.outcome at hout
    split at hout <;> try cases hout
    refine ⟨publication_validate ?_ (.inr rfl), hlast, ?_, ?_, .inr ⟨by simp [hp], hg, rfl⟩⟩
    · rw [hlastRes, hlast, hc]
    · show last.pubkyLockResource.creator = _
      rw [hlastRes, hc]
    · show _ = Except.ok last.pubkyLockResource.lockId
      rw [hlastRes]
      exact hid

theorem publication_accepted (hv : lock.validate E = .ok ()) (h : BuiltFor E lock e) :
    validateVerifiedContentLockPublication E lock e = .ok () := by
  have hpaths : validPaths lock.payment.isSome lock.graph.isSome e.satisfiedBy = true := by
    rcases h.path with ⟨hg, hp, hs⟩ | ⟨hp, hg, hs⟩
    · rw [hs, hp, hg]
      rfl
    · rw [hs, hg, hp]
      rfl
  simp only [validateVerifiedContentLockPublication, Checks.bind_eq_ok, Checks.mapError_eq_ok,
    Checks.refuse_eq_ok]
  exact ⟨(), hv, (), h.valid, (), by simp [h.creator, h.resource], _, h.lockId, (), by simp,
    by simp [hpaths]⟩

/-! ## Use -/

def ValidEntitlement.Grants (v : ValidEntitlement) (lock : ContentLockV2) : Prop :=
  v.contentLock = .v2 lock ∧ ∀ r ∈ lock.resources, v.resourceForPath r.path = some r

/-- **A published entitlement is usable** exactly if its lock has a graph
    policy. -/
theorem entitlement_usable_iff (E : Externals) (lock : ContentLockV2) (e : VerifiedProofBundleV2)
    (hv : lock.validate E = .ok ()) (hone : lock.payment.isSome ≠ lock.graph.isSome)
    (hb : LaneBuilds E lock e) (entitlements : EntitlementRepository)
    (locks : ContentLockRepository)
    (he : entitlements.getVerifiedProofBundlePayload e.creator e.bundleId = .ok (some (.v2 e)))
    (hl : locks.getContentLockPayload e.pubkyLockResource.creator
      e.pubkyLockResource.contentLockPath = .ok (some (.v2 lock))) :
    (∃ v, loadValidEntitlement E entitlements locks e.creator e.bundleId = .ok v ∧
      v.Grants lock) ↔ lock.graph.isSome := by
  have hbuilt := builtFor_of_laneBuilds hb
  constructor
  · rintro ⟨v, hload, -⟩
    rcases loadValidEntitlement_eq_ok.1 hload with ⟨bundle, hget, -⟩ | ⟨bundle, hget, hload⟩
    · rw [he] at hget
      cases hget
    · rw [he, Except.ok.injEq, Option.some.injEq] at hget
      cases hget
      obtain ⟨lock', hlock, haccept, -⟩ := loadValidV2Entitlement_eq_ok.1 hload
      rw [hl, Except.ok.injEq, Option.some.injEq] at hlock
      cases hlock
      exact haccept.graph
  · intro hg
    have hp : lock.payment = none := by
      rw [hg, ne_eq, Bool.not_eq_true, Option.isSome_eq_false_iff, Option.isNone_iff_eq_none] at hone
      exact hone
    have hs : e.satisfiedBy = [.graph] := by
      rcases hbuilt.path with ⟨-, -, hs⟩ | ⟨-, hn, -⟩
      · exact hs
      · rw [hn] at hg
        cases hg
    refine ⟨⟨.v2 lock, e.pubkyLockResource.lockId⟩, ?_, rfl, fun r hr =>
      ContentLockV2.resourceForPath_of_mem hv hr⟩
    refine loadValidEntitlement_eq_ok.2 (.inr ⟨e, he, loadValidV2Entitlement_eq_ok.2 ⟨lock, hl, ?_, rfl⟩⟩)
    exact ⟨hbuilt.valid, rfl, rfl, hbuilt.resource.trans hbuilt.creator.symm, hs,
      hbuilt.creator.symm, hp, hg, hbuilt.lockId⟩

/-- The repositories that hold one lock and one entitlement. -/
def holding (lock : ContentLockV2) : ContentLockRepository where
  getContentLock _ _ := .ok none
  getContentLockPayload _ _ := .ok (some (.v2 lock))

@[inherit_doc holding]
def holdingEntitlement (e : VerifiedProofBundleV2) : EntitlementRepository where
  getVerifiedProofBundlePayload _ _ := .ok (some (.v2 e))

/-- The entitlement the payment lane publishes for `paidSnapshot`. -/
def paidEntitlement : VerifiedProofBundleV2 :=
  Evaluator.publication ⟨"creator"⟩ ⟨"reader"⟩ ⟨"bundle"⟩
    (.of ⟨"creator"⟩ (LockId.fromHash (.replicate 7))) .payment (Duration.seconds 31)

/-- The lock of the payment is valid and the lane publishes the entitlement for
    it, but the access check refuses the entitlement. -/
theorem payment_entitlement_refused : let E := Externals.constant (.replicate 7)
    paymentLock.validate E = .ok () ∧ LaneBuilds E paymentLock paidEntitlement ∧
      validateVerifiedContentLockPublication E paymentLock paidEntitlement = .ok () ∧
      loadValidEntitlement E (holdingEntitlement paidEntitlement) (holding paymentLock)
        ⟨"creator"⟩ ⟨"bundle"⟩ = .error .entitlementNotSatisfied := by
  intro E
  have hv : paymentLock.validate E = .ok () := rfl
  have hnew : PaymentTaskSnapshotV1.new paymentSubmission (.replicate 7)
      ⟨⟨"creator"⟩, "1000", "BTC", 1⟩ 0 600 = .ok admittedPaymentSnapshot := by decide
  have hpaid : { paidSnapshot with root := .satisfied }.validateProgressFrom
      admittedPaymentSnapshot = .ok () := by decide
  have hb : LaneBuilds E paymentLock paidEntitlement :=
    @LaneBuilds.payment E paymentLock paymentSubmission (.replicate 7) _ 0 (Duration.seconds 31)
      admittedPaymentSnapshot _ _ rfl rfl rfl rfl hnew (.single hpaid) rfl
  exact ⟨hv, hb, publication_accepted hv (builtFor_of_laneBuilds hb), rfl⟩

/-- The entitlement the graph lane publishes for `followedSnapshot`. -/
def followEntitlement : VerifiedProofBundleV2 :=
  Evaluator.publication ⟨"creator"⟩ ⟨"reader"⟩ ⟨"bundle"⟩
    (.of ⟨"creator"⟩ (LockId.fromHash (.replicate 7))) .graph (Duration.seconds 31)

theorem follow_entitlement_usable : let E := Externals.constant (.replicate 7)
    ∃ v, loadValidEntitlement E (holdingEntitlement followEntitlement) (holding graphLock)
      ⟨"creator"⟩ ⟨"bundle"⟩ = .ok v ∧ v.Grants graphLock := by
  intro E
  have hnew : GraphTaskSnapshotV1.new ⟨"creator"⟩ ⟨"bundle"⟩
      (.of ⟨"creator"⟩ (LockId.fromHash (.replicate 7))) (.replicate 7) ⟨"reader"⟩ 0 600
      ⟨[.follows .reader .creator], none⟩ = .ok admittedGraphSnapshot := by decide
  have hobserved : ensureSameBinding admittedGraphSnapshot
        { followedSnapshot with root := .satisfied } = .ok () ∧
      { followedSnapshot with root := .satisfied }.validateProgressFrom
        admittedGraphSnapshot = .ok () := by decide
  have hb : LaneBuilds E graphLock followEntitlement :=
    @LaneBuilds.graph E graphLock
      ⟨2, ⟨"bundle"⟩, .of ⟨"creator"⟩ (LockId.fromHash (.replicate 7)), none⟩ (.replicate 7) _
      ⟨"reader"⟩ 0 (Duration.seconds 31) admittedGraphSnapshot _ _ rfl rfl rfl rfl hnew
      (.single hobserved) rfl
  exact (entitlement_usable_iff E graphLock followEntitlement rfl (by decide) hb
    (holdingEntitlement followEntitlement) (holding graphLock) rfl rfl).2 rfl

end PubkyLocks
