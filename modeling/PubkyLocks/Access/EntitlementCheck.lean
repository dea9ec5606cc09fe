/-
  The check behind every access: `load_valid_entitlement`
  (`use_cases/entitlement_check.rs`), with the evaluation of version-1 evidence
  (`entitlement_evaluator.rs`).

  The two repositories are parameters: any function from a creator and a key to
  an answer.  Both are storage that the creator of the key can write to.
-/
import PubkyLocks.Tasks.Record

namespace PubkyLocks

open Checks

/-! ## Repositories -/

structure EntitlementRepository where
  getVerifiedProofBundlePayload :
    CreatorPubky → BundleId → Except ApplicationError (Option VerifiedProofBundlePayload)

/-- The reads of the port of the content locks: the version-1 decoder and the
    decoder of both versions. -/
structure ContentLockRepository where
  getContentLock : CreatorPubky → ContentLockPath → Except ApplicationError (Option ContentLock)
  getContentLockPayload :
    CreatorPubky → ContentLockPath → Except ApplicationError (Option ContentLockPayload)

/-! ## Evidence of version 1 -/

/-- The loop of `content_lock_criterion_ids` from the ids seen so far. -/
def insertCriterionIds (seen : List String) : List Criterion → Except ApplicationError (List String)
  | [] => .ok seen
  | c :: cs =>
    if seen.contains c.criterionId then .error (.duplicateContentLockCriterion c.criterionId)
    else insertCriterionIds (c.criterionId :: seen) cs

def contentLockCriterionIds (lock : ContentLock) : Except ApplicationError (List String) :=
  if lock.criteria.isEmpty then .error .emptyContentLockCriteria
  else insertCriterionIds [] lock.criteria

/-- The loop of `verification_result_map` from the results seen so far. -/
def insertResults (ids : List String) (seen : List (String × Bool)) :
    List CriterionVerificationResult → Except ApplicationError (List (String × Bool))
  | [] => .ok seen
  | r :: rs =>
    if !ids.contains r.criterionId then .error (.unknownVerificationResultCriterion r.criterionId)
    else if (seen.lookup r.criterionId).isSome then
      .error (.duplicateVerificationResultCriterion r.criterionId)
    else insertResults ids ((r.criterionId, r.satisfied) :: seen) rs

def verificationResultMap (result : VerificationResult) (ids : List String) :
    Except ApplicationError (List (String × Bool)) :=
  insertResults ids [] result.criteria

/-- `evaluate_entitlement`; the criteria that the logic lists are not read. -/
def evaluateEntitlement (lock : ContentLock) (result : VerificationResult) :
    Except ApplicationError Bool := do
  let ids ← contentLockCriterionIds lock
  let results ← verificationResultMap result ids
  match lock.lockLogic with
  | .all _ => pure (ids.all fun id => (results.lookup id).getD false)
  | .any _ => pure (ids.any fun id => (results.lookup id).getD false)

/-! ## The check -/

structure ValidEntitlement where
  contentLock : ContentLockPayload
  lockId : LockId
deriving DecidableEq

def ContentLockV2.secondaryForPath (lock : ContentLockV2) (path : String) :
    Option GuardedResource :=
  (lock.secondaryResources.get? path).map fun r => ⟨path, r.hash, r.contentType, r.size⟩

/-- The version-2 branch of `ValidEntitlement::resource_for_path`. -/
def ContentLockV2.resourceForPath (lock : ContentLockV2) (path : String) : Option GuardedResource :=
  match lock.primaryResource with
  | some p => if p.path = path then some p else lock.secondaryForPath path
  | none => lock.secondaryForPath path

def ValidEntitlement.resourceForPath (v : ValidEntitlement) (path : String) :
    Option GuardedResource :=
  match v.contentLock with
  | .v1 lock => lock.resourceForPath path
  | .v2 lock => lock.resourceForPath path

section
variable (E : Externals)

def verifyLockId (actual : Except String LockId) (path : ContentLockPath) :
    Except ApplicationError LockId := do
  let actual ← actual.mapError .contentLockCanonicalization
  refuse (actual ≠ path.lockId) (.contentLockHashMismatch path.lockId actual)
  pure actual

def loadValidV1Entitlement (locks : ContentLockRepository) (bundle : VerifiedProofBundle) :
    Except ApplicationError ValidEntitlement := do
  let resource := bundle.pubkyLockResource
  let stored ← locks.getContentLock resource.creator resource.contentLockPath
  let lock ← okOr stored .contentLockUnavailable
  let lockId ← verifyLockId (lock.lockId E) resource.contentLockPath
  let satisfied ← evaluateEntitlement lock bundle.verificationResult
  refuse (!satisfied) .entitlementNotSatisfied
  pure ⟨.v1 lock, lockId⟩

def loadValidV2Entitlement (locks : ContentLockRepository) (creator : CreatorPubky)
    (bundleId : BundleId) (bundle : VerifiedProofBundleV2) :
    Except ApplicationError ValidEntitlement := do
  let resource := bundle.pubkyLockResource
  bundle.validate.mapError fun _ => .entitlementNotSatisfied
  refuse (bundle.creator ≠ creator ∨ bundle.bundleId ≠ bundleId ∨ resource.creator ≠ creator ∨
    bundle.satisfiedBy ≠ [.graph]) .entitlementNotSatisfied
  let stored ← locks.getContentLockPayload resource.creator resource.contentLockPath
  let payload ← okOr stored .contentLockUnavailable
  match payload with
  | .v1 _ => throw .entitlementNotSatisfied
  | .v2 lock =>
    refuse (lock.creator ≠ bundle.creator ∨ lock.payment.isSome ∨ lock.graph.isNone)
      .entitlementNotSatisfied
    let lockId ← verifyLockId (lock.lockId E) resource.contentLockPath
    pure ⟨.v2 lock, lockId⟩

def loadValidEntitlement (entitlements : EntitlementRepository) (locks : ContentLockRepository)
    (creator : CreatorPubky) (bundleId : BundleId) : Except ApplicationError ValidEntitlement := do
  let stored ← entitlements.getVerifiedProofBundlePayload creator bundleId
  let entitlement ← okOr stored .entitlementNotFound
  match entitlement with
  | .v1 bundle => loadValidV1Entitlement E locks bundle
  | .v2 bundle => loadValidV2Entitlement E locks creator bundleId bundle

end

/-! ## Evidence that satisfies a lock -/

variable {id : String} {ids : List String} {lock : ContentLock} {result : VerificationResult}

theorem mem_insertCriterionIds :
    ∀ {cs : List Criterion} {seen ids : List String}, insertCriterionIds seen cs = .ok ids →
      (id ∈ ids ↔ id ∈ seen ∨ ∃ c ∈ cs, c.criterionId = id)
  | [], seen, ids, h => by
    cases h
    simp
  | c :: cs, seen, ids, h => by
    rw [insertCriterionIds] at h
    split at h
    · cases h
    · rw [mem_insertCriterionIds h]
      simp only [List.mem_cons, exists_eq_or_imp]
      tauto

theorem lookup_insertResults {b : Bool} :
    ∀ {rs : List CriterionVerificationResult} {seen results : List (String × Bool)},
      insertResults ids seen rs = .ok results → results.lookup id = some b →
      seen.lookup id = some b ∨ ∃ r ∈ rs, r.criterionId = id ∧ r.satisfied = b
  | [], seen, results, h, hl => by
    cases h
    exact .inl hl
  | r :: rs, seen, results, h, hl => by
    rw [insertResults] at h
    split at h
    · cases h
    · split at h
      · cases h
      · rcases lookup_insertResults h hl with hl | ⟨q, hq, hid, hb⟩
        · rw [List.lookup_cons] at hl
          split at hl
          · rename_i he
            cases hl
            exact .inr ⟨r, List.mem_cons_self, (beq_iff_eq.1 he).symm, rfl⟩
          · exact .inl hl
        · exact .inr ⟨q, List.mem_cons_of_mem _ hq, hid, hb⟩

theorem insertCriterionIds_isOk :
    ∀ {cs : List Criterion} {seen : List String}, (∃ ids, insertCriterionIds seen cs = .ok ids) ↔
      (cs.map (·.criterionId)).Nodup ∧ ∀ c ∈ cs, c.criterionId ∉ seen
  | [], seen => by simp [insertCriterionIds]
  | c :: cs, seen => by
    rw [insertCriterionIds, List.map_cons, List.nodup_cons, List.forall_mem_cons]
    by_cases hc : c.criterionId ∈ seen
    · simp [hc]
    · rw [if_neg (by simpa using hc), insertCriterionIds_isOk]
      simp only [List.mem_cons, not_or, List.mem_map, not_exists, not_and]
      constructor
      · rintro ⟨hnodup, hnot⟩
        exact ⟨⟨fun d hd => (hnot d hd).1, hnodup⟩, hc, fun d hd => (hnot d hd).2⟩
      · rintro ⟨⟨hne, hnodup⟩, -, hnot⟩
        exact ⟨hnodup, fun d hd => ⟨hne d hd, hnot d hd⟩⟩

/-- **Well-formed locks.**  A lock has ids exactly if it has criteria, with
    different ids. -/
theorem contentLockCriterionIds_isOk : (∃ ids, contentLockCriterionIds lock = .ok ids) ↔
      lock.criteria ≠ [] ∧ (lock.criteria.map (·.criterionId)).Nodup := by
  unfold contentLockCriterionIds
  by_cases hempty : lock.criteria = []
  · simp [hempty]
  · rw [if_neg (by simpa using hempty), insertCriterionIds_isOk]
    simp [hempty]

theorem insertResults_isOk :
    ∀ {rs : List CriterionVerificationResult} {seen : List (String × Bool)},
      (rs.map (·.criterionId)).Nodup →
      (∀ r ∈ rs, r.criterionId ∈ ids ∧ seen.lookup r.criterionId = none) →
      ∃ results, insertResults ids seen rs = .ok results ∧
        (∀ id b, seen.lookup id = some b → results.lookup id = some b) ∧
        ∀ r ∈ rs, results.lookup r.criterionId = some r.satisfied
  | [], seen, _, _ => ⟨seen, rfl, fun _ _ h => h, List.forall_mem_nil _⟩
  | r :: rs, seen, hnodup, hfresh => by
    rw [List.map_cons, List.nodup_cons] at hnodup
    obtain ⟨⟨hknown, hnew⟩, hrest⟩ := List.forall_mem_cons.1 hfresh
    have hne : ∀ q ∈ rs, (q.criterionId == r.criterionId) = false := by
      intro q hq
      rw [beq_eq_false_iff_ne]
      intro he
      exact hnodup.1 (he ▸ List.mem_map.2 ⟨q, hq, rfl⟩)
    have hnext : ∀ q ∈ rs, q.criterionId ∈ ids ∧
        ((r.criterionId, r.satisfied) :: seen).lookup q.criterionId = none := by
      intro q hq
      refine ⟨(hrest q hq).1, ?_⟩
      rw [List.lookup_cons, hne q hq]
      exact (hrest q hq).2
    obtain ⟨results, hok, hseen, hall⟩ := insertResults_isOk hnodup.2 hnext
    refine ⟨results, ?_, fun id b hl => hseen id b ?_, List.forall_mem_cons.2 ⟨?_, hall⟩⟩
    · rw [insertResults, if_neg (by simpa using hknown), if_neg (by simp [hnew])]
      exact hok
    · rw [List.lookup_cons]
      cases he : id == r.criterionId with
      | true =>
        rw [beq_iff_eq.1 he, hnew] at hl
        cases hl
      | false => exact hl
    · exact hseen _ _ (by rw [List.lookup_cons, beq_self_eq_true])

def VerificationResult.SatisfiesId (result : VerificationResult) (id : String) : Prop :=
  ∃ r ∈ result.criteria, r.criterionId = id ∧ r.satisfied = true

def VerificationResult.Satisfies (result : VerificationResult) (c : Criterion) : Prop :=
  result.SatisfiesId c.criterionId

theorem mem_contentLockCriterionIds (h : contentLockCriterionIds lock = .ok ids) (id : String) :
    id ∈ ids ↔ ∃ c ∈ lock.criteria, c.criterionId = id := by
  rw [contentLockCriterionIds] at h
  split at h
  · cases h
  · simpa using mem_insertCriterionIds h

theorem satisfies_of_lookup
    {results : List (String × Bool)} (h : verificationResultMap result ids = .ok results)
    {c : Criterion} (hl : (results.lookup c.criterionId).getD false = true) :
    result.Satisfies c := by
  cases hlookup : results.lookup c.criterionId with
  | none => simp [hlookup] at hl
  | some b =>
    rw [hlookup, Option.getD_some] at hl
    subst hl
    rcases lookup_insertResults h hlookup with hn | hr
    · cases hn
    · exact hr

/-- The evidence has different ids, all of criteria of the lock. -/
structure VerificationResult.For (result : VerificationResult) (lock : ContentLock) : Prop where
  nodup : (result.criteria.map (·.criterionId)).Nodup
  known : ∀ r ∈ result.criteria, r.criterionId ∈ lock.criteria.map (·.criterionId)

/-- **Evidence is enough.**  Evidence for a well-formed lock is evaluated, and
    the answer is the one its logic gives over all its criteria. -/
theorem evaluateEntitlement_isOk
    (hne : lock.criteria ≠ []) (hnodup : (lock.criteria.map (·.criterionId)).Nodup)
    (hresult : result.For lock) :
    ∃ b, evaluateEntitlement lock result = .ok b ∧ (b = true ↔
      match lock.lockLogic with
      | .all _ => ∀ c ∈ lock.criteria, result.Satisfies c
      | .any _ => ∃ c ∈ lock.criteria, result.Satisfies c) := by
  obtain ⟨ids, hids⟩ := contentLockCriterionIds_isOk.2 ⟨hne, hnodup⟩
  have hmem := mem_contentLockCriterionIds hids
  have hfresh : ∀ r ∈ result.criteria, r.criterionId ∈ ids ∧
      ([] : List (String × Bool)).lookup r.criterionId = none :=
    fun r hr => ⟨(hmem _).2 (List.mem_map.1 (hresult.known r hr)), rfl⟩
  obtain ⟨results, hres, -, hall⟩ := insertResults_isOk hresult.nodup hfresh
  have hsat : ∀ c, result.Satisfies c → (results.lookup c.criterionId).getD false = true := by
    rintro c ⟨r, hr, hid, hs⟩
    rw [← hid, hall r hr, hs]
    rfl
  have heval : evaluateEntitlement lock result =
      match lock.lockLogic with
      | .all _ => .ok (ids.all fun id => (results.lookup id).getD false)
      | .any _ => .ok (ids.any fun id => (results.lookup id).getD false) := by
    rw [evaluateEntitlement, hids]
    show (verificationResultMap result ids >>= _) = _
    rw [verificationResultMap, hres]
    rfl
  rw [heval]
  cases lock.lockLogic with
  | all cs =>
    refine ⟨_, rfl, ?_⟩
    rw [List.all_eq_true]
    constructor
    · intro h c hc
      exact satisfies_of_lookup hres (h _ ((hmem _).2 ⟨c, hc, rfl⟩))
    · intro h id hid
      obtain ⟨c, hc, rfl⟩ := (hmem id).1 hid
      exact hsat c (h c hc)
  | any cs =>
    refine ⟨_, rfl, ?_⟩
    rw [List.any_eq_true]
    constructor
    · rintro ⟨id, hid, hl⟩
      obtain ⟨c, hc, rfl⟩ := (hmem id).1 hid
      exact ⟨c, hc, satisfies_of_lookup hres hl⟩
    · rintro ⟨c, hc, hs⟩
      exact ⟨c.criterionId, (hmem _).2 ⟨c, hc, rfl⟩, hsat c hs⟩

/-- **Lock logic.**  Evidence with different ids of the criteria of a lock
    satisfies the lock exactly if it satisfies all its criteria, or one of them;
    the ids that the logic lists play no role. -/
theorem evaluateEntitlement_iff (lock : ContentLock) (result : VerificationResult)
    (hne : lock.criteria ≠ []) (hnodup : (lock.criteria.map (·.criterionId)).Nodup)
    (hresult : result.For lock) :
    evaluateEntitlement lock result = .ok true ↔
      match lock.lockLogic with
      | .all _ => ∀ c ∈ lock.criteria, result.Satisfies c
      | .any _ => ∃ c ∈ lock.criteria, result.Satisfies c := by
  obtain ⟨b, hok, hb⟩ := evaluateEntitlement_isOk hne hnodup hresult
  rw [hok, ← hb]
  constructor
  · intro h
    exact Except.ok.inj h
  · rintro rfl
    rfl

/-- The answer is the documented one of `LockLogic`, over the criteria it lists. -/
def ContentLock.DecidesAsListed (lock : ContentLock) (result : VerificationResult) : Prop :=
  evaluateEntitlement lock result = .ok true ↔
    match lock.lockLogic with
    | .all listed => ∀ id ∈ listed, result.SatisfiesId id
    | .any listed => ∃ id ∈ listed, result.SatisfiesId id

def satisfiedResult (ids : List String) : VerificationResult :=
  ⟨ids.map fun id => ⟨id, true, 0, ⟨"server"⟩, .devStatic⟩⟩

theorem satisfiesId_satisfiedResult : (satisfiedResult ids).SatisfiesId id ↔ id ∈ ids := by
  simp [VerificationResult.SatisfiesId, satisfiedResult]

theorem satisfiedResult_for (hnodup : ids.Nodup)
    (hknown : ∀ id ∈ ids, id ∈ lock.criteria.map (·.criterionId)) :
    (satisfiedResult ids).For lock := by
  refine ⟨?_, fun r hr => ?_⟩
  · simpa [satisfiedResult, Function.comp_def] using hnodup
  · obtain ⟨id, hid, rfl⟩ := List.mem_map.1 hr
    exact hknown id hid

/-- **Listed criteria.**  A lock whose logic lists criteria of its own decides as listed
    exactly if the criteria that are not listed make no difference; and it does so for all
    evidence exactly if it lists all its criteria. -/
theorem decidesAsListed_iff (lock : ContentLock) (hne : lock.criteria ≠ [])
    (hnodup : (lock.criteria.map (·.criterionId)).Nodup)
    (hknown : ∀ id ∈ lock.lockLogic.criteria, id ∈ lock.criteria.map (·.criterionId)) :
    (∀ result : VerificationResult, result.For lock → (lock.DecidesAsListed result ↔
      match lock.lockLogic with
      | .all listed => (∀ id ∈ listed, result.SatisfiesId id) →
          ∀ c ∈ lock.criteria, result.Satisfies c
      | .any listed => (∃ c ∈ lock.criteria, result.Satisfies c) →
          ∃ id ∈ listed, result.SatisfiesId id)) ∧
    ((∀ result : VerificationResult, result.For lock → lock.DecidesAsListed result) ↔
      ∀ c ∈ lock.criteria, c.criterionId ∈ lock.lockLogic.criteria) := by
  have hevaluated := evaluateEntitlement_iff lock
  unfold ContentLock.DecidesAsListed
  cases hlogic : lock.lockLogic with
  | all listed =>
    rw [hlogic] at hknown hevaluated
    have hpoint : ∀ result : VerificationResult, result.For lock →
        ((evaluateEntitlement lock result = .ok true ↔ ∀ id ∈ listed, result.SatisfiesId id) ↔
          ((∀ id ∈ listed, result.SatisfiesId id) → ∀ c ∈ lock.criteria, result.Satisfies c)) := by
      intro result hresult
      rw [hevaluated result hne hnodup hresult]
      refine ⟨fun h => h.2, fun h => ⟨fun hall id hid => ?_, h⟩⟩
      obtain ⟨c, hc, rfl⟩ := List.mem_map.1 (hknown id hid)
      exact hall c hc
    refine ⟨hpoint, fun h c hc => ?_, fun hall result hresult => ?_⟩
    · -- evidence for the listed criteria only
      have hfor : (satisfiedResult ((lock.criteria.map (·.criterionId)).filter (· ∈ listed))).For
          lock := satisfiedResult_for (hnodup.filter _) fun id hid => List.mem_of_mem_filter hid
      have hlast := (hpoint _ hfor).1 (h _ hfor) (fun id hid => satisfiesId_satisfiedResult.2
        (List.mem_filter.2 ⟨hknown id hid, decide_eq_true hid⟩)) c hc
      exact of_decide_eq_true (List.mem_filter.1 (satisfiesId_satisfiedResult.1 hlast)).2
    · exact (hpoint result hresult).2 fun hlisted c hc => hlisted _ (hall c hc)
  | any listed =>
    rw [hlogic] at hknown hevaluated
    have hpoint : ∀ result : VerificationResult, result.For lock →
        ((evaluateEntitlement lock result = .ok true ↔ ∃ id ∈ listed, result.SatisfiesId id) ↔
          ((∃ c ∈ lock.criteria, result.Satisfies c) → ∃ id ∈ listed, result.SatisfiesId id)) := by
      intro result hresult
      rw [hevaluated result hne hnodup hresult]
      refine ⟨fun h => h.1, fun h => ⟨h, fun ⟨id, hid, hs⟩ => ?_⟩⟩
      obtain ⟨c, hc, rfl⟩ := List.mem_map.1 (hknown id hid)
      exact ⟨c, hc, hs⟩
    refine ⟨hpoint, fun h c hc => ?_, fun hall result hresult => ?_⟩
    · -- evidence for this criterion only
      have hfor : (satisfiedResult [c.criterionId]).For lock := by
        refine satisfiedResult_for (List.pairwise_singleton _ _) fun id hid => ?_
        rw [List.mem_singleton.1 hid]
        exact List.mem_map_of_mem hc
      obtain ⟨id, hid, hs⟩ := (hpoint _ hfor).1 (h _ hfor)
        ⟨c, hc, satisfiesId_satisfiedResult.2 (List.mem_singleton_self _)⟩
      exact List.mem_singleton.1 (satisfiesId_satisfiedResult.1 hs) ▸ hid
    · exact (hpoint result hresult).2 fun ⟨c, hc, hs⟩ => ⟨_, hall c hc, hs⟩

def twoCriteriaLock (logic : LockLogic) : ContentLock :=
  { staticLock ⟨"creator"⟩ with
    criteria := [⟨"a", .devStatic, .null⟩, ⟨"b", .devStatic, .null⟩]
    lockLogic := logic }

/-- The logic lists one criterion of two.  With `all`, satisfying it is not
    enough; with `any`, satisfying the other one is. -/
theorem listed_criteria_ignored :
    evaluateEntitlement (twoCriteriaLock (.all ["a"])) (satisfiedResult ["a"]) = .ok false ∧
      evaluateEntitlement (twoCriteriaLock (.any ["a"])) (satisfiedResult ["b"]) = .ok true :=
  ⟨rfl, rfl⟩

theorem listed_criteria_decide : let lock := twoCriteriaLock (.any ["b", "a"])
    (∀ result : VerificationResult, result.For lock → lock.DecidesAsListed result) ∧
      evaluateEntitlement lock (satisfiedResult ["b"]) = .ok true := by
  intro lock
  have hall := (decidesAsListed_iff lock (List.cons_ne_nil _ _) (by decide) (by decide)).2.2
    (by decide)
  refine ⟨hall, (hall _ (satisfiedResult_for (by decide) (by decide))).2 ?_⟩
  exact ⟨"b", List.mem_cons_self, satisfiesId_satisfiedResult.2 (List.mem_singleton_self _)⟩

/-! ## What a successful check establishes -/

section
variable {E : Externals} {entitlements : EntitlementRepository} {locks : ContentLockRepository}
  {creator : CreatorPubky} {bundleId : BundleId} {v : ValidEntitlement}

theorem verifyLockId_eq_ok {actual : Except String LockId} {path : ContentLockPath} {l : LockId} :
    verifyLockId actual path = .ok l ↔ actual = .ok l ∧ l = path.lockId := by
  simp only [verifyLockId, bind_eq_ok, mapError_eq_ok, refuse_eq_ok,
    pure_eq_ok, not_not]
  constructor
  · rintro ⟨a, ha, -, hl, rfl⟩
    exact ⟨ha, hl⟩
  · rintro ⟨ha, hl⟩
    exact ⟨l, ha, (), hl, rfl⟩

/-- The version-1 branch: the lock that the entitlement names hashes to the
    named id and the evidence satisfies it. -/
theorem loadValidV1Entitlement_eq_ok {bundle : VerifiedProofBundle} :
    loadValidV1Entitlement E locks bundle = .ok v ↔
      ∃ lock, locks.getContentLock bundle.pubkyLockResource.creator
          bundle.pubkyLockResource.contentLockPath = .ok (some lock) ∧
        lock.lockId E = .ok bundle.pubkyLockResource.lockId ∧
        evaluateEntitlement lock bundle.verificationResult = .ok true ∧
        v = ⟨.v1 lock, bundle.pubkyLockResource.lockId⟩ := by
  simp only [loadValidV1Entitlement, bind_eq_ok, okOr_eq_ok, verifyLockId_eq_ok,
    refuse_eq_ok, pure_eq_ok]
  constructor
  · rintro ⟨-, hget, lock, rfl, l, ⟨hid, rfl⟩, satisfied, heval, -, hs, rfl⟩
    obtain rfl : satisfied = true := by simpa using hs
    exact ⟨lock, hget, hid, heval, rfl⟩
  · rintro ⟨lock, hget, hid, heval, rfl⟩
    exact ⟨_, hget, lock, rfl, _, ⟨hid, rfl⟩, true, heval, (), by simp, rfl⟩

/-- What the version-2 branch requires of the entitlement and the lock. -/
structure AcceptsV2 (E : Externals) (creator : CreatorPubky) (bundleId : BundleId)
    (bundle : VerifiedProofBundleV2) (lock : ContentLockV2) : Prop where
  valid : bundle.validate = .ok ()
  ownCreator : bundle.creator = creator
  ownBundleId : bundle.bundleId = bundleId
  resource : bundle.pubkyLockResource.creator = creator
  satisfiedBy : bundle.satisfiedBy = [.graph]
  lockCreator : lock.creator = bundle.creator
  payment : lock.payment = none
  graph : lock.graph.isSome
  lockId : lock.lockId E = .ok bundle.pubkyLockResource.lockId

theorem loadValidV2Entitlement_eq_ok {bundle : VerifiedProofBundleV2} :
    loadValidV2Entitlement E locks creator bundleId bundle = .ok v ↔
      ∃ lock, locks.getContentLockPayload bundle.pubkyLockResource.creator
          bundle.pubkyLockResource.contentLockPath = .ok (some (.v2 lock)) ∧
        AcceptsV2 E creator bundleId bundle lock ∧
        v = ⟨.v2 lock, bundle.pubkyLockResource.lockId⟩ := by
  simp only [loadValidV2Entitlement, bind_eq_ok, mapError_eq_ok, okOr_eq_ok,
    refuse_eq_ok, not_or, not_not]
  constructor
  · rintro ⟨_, hvalid, _, ⟨hc, hb, hr, hs⟩, _, hget, payload, rfl, h⟩
    cases payload with
    | v1 lock => cases h
    | v2 lock =>
      simp only [bind_eq_ok, refuse_eq_ok, verifyLockId_eq_ok, pure_eq_ok,
        not_or, not_not, Option.not_isSome_iff_eq_none, Option.isNone_iff_eq_none] at h
      obtain ⟨_, ⟨hlc, hp, hg⟩, _, ⟨hid, rfl⟩, rfl⟩ := h
      exact ⟨lock, hget,
        ⟨hvalid, hc, hb, hr, hs, hlc, hp, Option.isSome_iff_ne_none.2 hg, hid⟩, rfl⟩
  · rintro ⟨lock, hget, h, rfl⟩
    refine ⟨(), h.valid, (), ⟨h.ownCreator, h.ownBundleId, h.resource, h.satisfiedBy⟩, _, hget,
      .v2 lock, rfl, ?_⟩
    simp only [bind_eq_ok, refuse_eq_ok, verifyLockId_eq_ok, pure_eq_ok,
      not_or, not_not, Option.not_isSome_iff_eq_none, Option.isNone_iff_eq_none]
    exact ⟨(), ⟨h.lockCreator, h.payment, Option.isSome_iff_ne_none.1 h.graph⟩, _, ⟨h.lockId, rfl⟩,
      rfl⟩

/-- **The check succeeds** exactly through one of its branches. -/
theorem loadValidEntitlement_eq_ok :
    loadValidEntitlement E entitlements locks creator bundleId = .ok v ↔
      (∃ bundle, entitlements.getVerifiedProofBundlePayload creator bundleId = .ok (some (.v1 bundle)) ∧
        loadValidV1Entitlement E locks bundle = .ok v) ∨
      ∃ bundle, entitlements.getVerifiedProofBundlePayload creator bundleId = .ok (some (.v2 bundle)) ∧
        loadValidV2Entitlement E locks creator bundleId bundle = .ok v := by
  simp only [loadValidEntitlement, bind_eq_ok, okOr_eq_ok]
  constructor
  · rintro ⟨_, hget, entitlement, rfl, h⟩
    cases entitlement with
    | v1 bundle => exact .inl ⟨bundle, hget, h⟩
    | v2 bundle => exact .inr ⟨bundle, hget, h⟩
  · rintro (⟨bundle, hget, h⟩ | ⟨bundle, hget, h⟩)
    · exact ⟨_, hget, _, rfl, h⟩
    · exact ⟨_, hget, _, rfl, h⟩

end

/-! ## The binding of an entitlement to its key -/

def VerifiedProofBundlePayload.bundleId : VerifiedProofBundlePayload → BundleId
  | v1 bundle => bundle.bundleId
  | v2 bundle => bundle.bundleId

def VerifiedProofBundlePayload.pubkyLockResource : VerifiedProofBundlePayload → PubkyLockResource
  | v1 bundle => bundle.pubkyLockResource
  | v2 bundle => bundle.pubkyLockResource

/-- The checked entitlement is about its key: the stored one names the handle
    and a lock of the creator, the loaded lock names the creator, and the id is
    the one its hash gives and the stored one names. -/
def Binds (E : Externals) (entitlements : EntitlementRepository) (creator : CreatorPubky)
    (bundleId : BundleId) (v : ValidEntitlement) : Prop :=
  ∃ stored, entitlements.getVerifiedProofBundlePayload creator bundleId = .ok (some stored) ∧
    stored.bundleId = bundleId ∧ stored.pubkyLockResource = .of creator v.lockId ∧
    v.contentLock.creator = creator ∧ v.contentLock.lockId E = .ok v.lockId

/-- A version-1 entitlement stored under the key names it, and so does the lock
    at the resource it names. -/
def NamesKey (entitlements : EntitlementRepository) (locks : ContentLockRepository)
    (creator : CreatorPubky) (bundleId : BundleId) : Prop :=
  ∀ bundle lock,
    entitlements.getVerifiedProofBundlePayload creator bundleId = .ok (some (.v1 bundle)) →
    locks.getContentLock bundle.pubkyLockResource.creator
      bundle.pubkyLockResource.contentLockPath = .ok (some lock) →
    bundle.bundleId = bundleId ∧ bundle.pubkyLockResource.creator = creator ∧
      lock.creator = creator

/-- **A successful check binds the entitlement to its key** exactly if a
    version-1 entitlement under that key names it. -/
theorem binds_iff (E : Externals) (entitlements : EntitlementRepository)
    (locks : ContentLockRepository) (creator : CreatorPubky) (bundleId : BundleId)
    (v : ValidEntitlement)
    (h : loadValidEntitlement E entitlements locks creator bundleId = .ok v) :
    Binds E entitlements creator bundleId v ↔ NamesKey entitlements locks creator bundleId := by
  rcases loadValidEntitlement_eq_ok.1 h with ⟨bundle, hget, hload⟩ | ⟨bundle, hget, hload⟩
  · obtain ⟨lock, hlock, hid, -, rfl⟩ := loadValidV1Entitlement_eq_ok.1 hload
    constructor
    · rintro ⟨stored, hstored, hb, hr, hc, -⟩ bundle' lock' hget' hlock'
      rw [hget, Except.ok.injEq, Option.some.injEq] at hstored hget'
      subst hstored
      cases hget'
      rw [hlock, Except.ok.injEq, Option.some.injEq] at hlock'
      subst hlock'
      exact ⟨hb, congrArg PubkyLockResource.creator hr, hc⟩
    · intro hnames
      obtain ⟨hb, hc, hl⟩ := hnames bundle lock hget hlock
      refine ⟨.v1 bundle, hget, hb, ?_, hl, hid⟩
      rw [← hc]
      exact bundle.pubkyLockResource.eq_of
  · -- the version-2 branch makes all four comparisons itself
    obtain ⟨lock, -, haccept, rfl⟩ := loadValidV2Entitlement_eq_ok.1 hload
    constructor
    · rintro - bundle' lock' hget' -
      rw [hget] at hget'
      cases hget'
    · intro _
      refine ⟨.v2 bundle, hget, haccept.ownBundleId, ?_, ?_, haccept.lockId⟩
      · show bundle.pubkyLockResource = _
        rw [← haccept.resource]
        exact bundle.pubkyLockResource.eq_of
      · exact haccept.lockCreator.trans haccept.ownCreator

def staticEntitlement (creator : CreatorPubky) (bundleId : BundleId) (hash : LockHash) :
    VerifiedProofBundle where
  version := VERIFIED_PROOF_BUNDLE_VERSION
  bundleId := bundleId
  pubkyLockResource := .of creator (LockId.fromHash hash)
  verificationResult := ⟨[⟨"criterion-1", true, 0, ⟨"server"⟩, .devStatic⟩]⟩
  entitlementLifetime := .unbounded

def staticLocks : ContentLockRepository where
  getContentLock creator _ := .ok (some (staticLock creator))
  getContentLockPayload creator _ := .ok (some (.v1 (staticLock creator)))

/-- The creator has stored, under a handle of their own, the entitlement to a
    lock of someone else; the check accepts it. -/
theorem foreign_entitlement_accepted : let E := Externals.constant (.replicate 7)
    let entitlements : EntitlementRepository :=
      ⟨fun _ _ => .ok (some (.v1 (staticEntitlement ⟨"other"⟩ ⟨"bundle-2"⟩ (.replicate 7))))⟩
    ∃ v, loadValidEntitlement E entitlements staticLocks ⟨"creator"⟩ ⟨"bundle-1"⟩ = .ok v ∧
      v.contentLock = .v1 (staticLock ⟨"other"⟩) ∧
      ¬ Binds E entitlements ⟨"creator"⟩ ⟨"bundle-1"⟩ v := by
  refine ⟨⟨.v1 (staticLock ⟨"other"⟩), LockId.fromHash (.replicate 7)⟩, rfl, rfl, ?_⟩
  rintro ⟨stored, -, -, -, hc, -⟩
  exact absurd hc (by decide)

/-- An entitlement stored under its own handle is bound to it. -/
theorem own_entitlement_binds : let E := Externals.constant (.replicate 7)
    let entitlements : EntitlementRepository :=
      ⟨fun creator bundleId => .ok (some (.v1 (staticEntitlement creator bundleId (.replicate 7))))⟩
    Binds E entitlements ⟨"creator"⟩ ⟨"bundle"⟩
      ⟨.v1 (staticLock ⟨"creator"⟩), LockId.fromHash (.replicate 7)⟩ := by
  intro E entitlements
  refine (binds_iff E entitlements staticLocks ⟨"creator"⟩ ⟨"bundle"⟩ _ rfl).2 ?_
  intro bundle lock hbundle hlock
  cases hbundle
  cases hlock
  exact ⟨rfl, rfl, rfl⟩

end PubkyLocks
