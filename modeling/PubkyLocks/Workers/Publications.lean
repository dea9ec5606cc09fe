/-
  The publication of entitlements by the version-1 workers
  (`complete_verification_task.rs`), the graph workers (`graph_worker.rs`), the
  payment workers (`payment_worker.rs`) and the payment drain
  (`drain_lock_payments.rs`).

  Each of them writes the payload of its task into the store of the creator,
  reads it back and completes the task under its own fence.  A write may fail,
  fail and land nonetheless, or land late; a publisher may stop at any point and
  others, also those that have lost their claim, run in between.
-/
import PubkyLocks.Lib.WriteOnce
import PubkyLocks.Store.Settled

namespace PubkyLocks

open TaskRow TaskStatement Operation

/-! ## Entitlements -/

/-- `same_entitlement_decision` of the ports: the two are equal, but for the
    times their criteria were verified at. -/
def sameEntitlementDecision (existing candidate : VerifiedProofBundle) : Bool :=
  let stored := existing.verificationResult.criteria
  let criteria := candidate.verificationResult.criteria
  stored.length == criteria.length &&
    existing == { candidate with
      verificationResult :=
        ⟨List.zipWith (fun c s => { c with verifiedAt := s.verifiedAt }) criteria stored⟩ }

/-- What a criterion result decides, without the time it was verified at. -/
def CriterionVerificationResult.decision (c : CriterionVerificationResult) :=
  (c.criterionId, c.satisfied, c.verifiedBy, c.verifierType)

/-- The entitlement, without the times its criteria were verified at. -/
def VerifiedProofBundle.decision (e : VerifiedProofBundle) :=
  (e.version, e.bundleId, e.pubkyLockResource, e.entitlementLifetime,
    e.verificationResult.criteria.map CriterionVerificationResult.decision)

/-- A stored entitlement is the payload of a task: exactly for version 2, up to
    `verified_at` for version 1. -/
def VerifiedProofBundlePayload.Publishes : (stored payload : VerifiedProofBundlePayload) → Prop
  | .v1 stored, .v1 e => stored.decision = e.decision
  | .v2 stored, .v2 e => stored = e
  | _, _ => False

theorem decision_zipWith {criteria stored : List CriterionVerificationResult}
    (h : stored.length = criteria.length) :
    (List.zipWith (fun c s => { c with verifiedAt := s.verifiedAt }) criteria stored).map
      CriterionVerificationResult.decision = criteria.map CriterionVerificationResult.decision := by
  induction criteria generalizing stored with
  | nil => rfl
  | cons c criteria ih =>
    cases stored with
    | nil => cases h
    | cons s stored =>
      rw [List.zipWith_cons_cons, List.map_cons, List.map_cons, ih (Nat.succ.inj h)]
      rfl

theorem decision_of_same {existing candidate : VerifiedProofBundle}
    (h : sameEntitlementDecision existing candidate) : existing.decision = candidate.decision := by
  simp only [sameEntitlementDecision, Bool.and_eq_true, beq_iff_eq] at h
  obtain ⟨hlen, heq⟩ := h
  rw [heq]
  simp only [VerifiedProofBundle.decision, decision_zipWith hlen]

/-! ## Publishers -/

/-- `ClaimedVerificationTask`: a lease and the task as the claim returned it. -/
structure V1Claim where
  lease : Lease
  task : VerificationTaskRecord
deriving DecidableEq

/-- `PaymentDrainObligation`, as far as the publication reads it. -/
structure PaymentDrainObligation where
  taskId : TaskId
  bundleId : BundleId
  lockResource : PubkyLockResource
  criterionId : String
  status : VerificationTaskStatus
  entitlementToPublish : Option VerifiedProofBundle
deriving DecidableEq

/-- The criterion of the first Paykit proof, `criterion_id` of the task
    snapshot. -/
def TaskRow.paykitCriterion? (r : TaskRow) : Option String :=
  match r.submittedProofBundle with
  | .v1 b => (b.proofs.find? (·.verifierType == .paykitPayment)).map (·.criterionId)
  | .v2 _ => none

/-- The payload of a row of the version-1 lane; another payload does not
    decode. -/
def TaskRow.entitlementV1? (r : TaskRow) : Option (Option VerifiedProofBundle) :=
  match r.entitlementToPublish with
  | none => some none
  | some (.v1 e) => some (some e)
  | some (.v2 _) => none

/-- `row_to_obligation`; the columns of the task snapshot are copies of columns
    that no statement writes. -/
def TaskRow.toObligation (r : TaskRow) : Option PaymentDrainObligation := do
  let criterionId ← r.paykitCriterion?
  let e ← r.entitlementV1?
  some { taskId := r.taskId, bundleId := r.bundleId, lockResource := r.resource, criterionId,
         status := r.status, entitlementToPublish := e }

def Database.listObligations (db : Database) (jobId : Uuid) : List PaymentDrainObligation :=
  (db.snapshots.filter fun s => s.deletionJobId == jobId && s.paykitAdmissionRequired).filterMap
    fun s => ((db.task? s.verificationTaskId).filter (·.invoiceAdmissionPhase != .failed)).bind
      (·.toObligation)

def PaymentDrainObligation.verified (o : PaymentDrainObligation) (verifiedBy : LockServerPubky)
    (verifiedAt : Timestamp) : VerifiedProofBundle where
  version := VERIFIED_PROOF_BUNDLE_VERSION
  bundleId := o.bundleId
  pubkyLockResource := o.lockResource
  verificationResult := ⟨[⟨o.criterionId, true, verifiedAt, verifiedBy, .paykitPayment⟩]⟩
  entitlementLifetime := .unbounded

/-- The entitlement the drain publishes for an obligation: the stored one, or
    for a task not yet in publication a new one. -/
def PaymentDrainObligation.entitlement? (o : PaymentDrainObligation) (verifiedBy : LockServerPubky)
    (now : Timestamp) : Option VerifiedProofBundle :=
  match o.status with
  | .publishingEntitlement => o.entitlementToPublish
  | .pending | .inProgress => some (o.entitlementToPublish.getD (o.verified verifiedBy now))
  | .completed | .failed | .expired => none

/-- What a publisher presents when it completes its task: the record of its
    lease, the tokens of a version-2 lane, or the token of the drain. -/
inductive PublicationFence where
  | v1 (l : Lease) (task : VerificationTaskRecord)
  | graph (l : Lease) (expectedRevision : ℕ) (publicationToken : Uuid)
  | payment (l : Lease) (expectedRevision : ℕ) (publicationToken : Uuid)
  | drain (l : JobLease) (taskId : TaskId) (publicationToken : Uuid)
deriving DecidableEq

namespace PublicationFence

def taskId : PublicationFence → TaskId
  | v1 l _ | graph l _ _ | payment l _ _ => l.taskId
  | drain _ id _ => id

def completion (at' dbNow : Timestamp) : PublicationFence → TaskStatement
  | v1 l task => .v1Persist l task (.complete at') dbNow
  | graph l n k => .graphComplete l n k dbNow
  | payment l n k => .paymentComplete l n k dbNow
  | drain l id k => .drainComplete l id k dbNow

/-- The payload of the row once it is completed: the version-1 lane writes the
    one of its record, the others leave it. -/
def completedPayload (r : TaskRow) : PublicationFence → Option VerifiedProofBundlePayload
  | v1 _ task => task.entitlementToPublish.map .v1
  | graph .. | payment .. | drain .. => r.entitlementToPublish

/-- The check before a publication of a version-2 lane,
    `acquire_graph_publication_action` and `acquire_payment_publication_action`. -/
def live (db : Database) (dbNow : Timestamp) : PublicationFence → Bool
  | graph l n k => db.tasks.any (Graph.acquireLive db l n k dbNow)
  | payment l n k => db.tasks.any (Payment.acquireLive db l n k dbNow)
  | v1 .. | drain .. => true

/-- What a publisher takes for its payload when it reads the store. -/
def accepts : PublicationFence → (payload stored : VerifiedProofBundlePayload) → Bool
  | v1 .., .v1 e, .v1 existing => existing == e
  | drain .., .v1 e, .v1 existing => sameEntitlementDecision existing e
  | graph .., .v2 e, .v2 existing | payment .., .v2 e, .v2 existing => existing == e
  | _, _, _ => false

end PublicationFence

/-- The point a publisher has reached: it acquires the action of its task, looks
    for its payload, writes it, reads it back, completes the task. -/
inductive PublicationPhase where
  | acquire
  | probe
  | insert
  | readBack
  | complete
deriving DecidableEq

structure Publisher where
  fence : PublicationFence
  payload : VerifiedProofBundlePayload
  phase : PublicationPhase
deriving DecidableEq

/-- The next phase, given whether the fence is live, whether the store answered
    and what it holds; `none` gives the publication up. -/
def Publisher.next (p : Publisher) (live ok : Bool) (stored : Option VerifiedProofBundlePayload) :
    Option PublicationPhase :=
  match p.phase with
  | .acquire => if live then some .probe else none
  | .probe =>
    if ok then
      match stored with
      | none => some .insert
      | some e => if p.fence.accepts p.payload e then some .complete else none
    else none
  | .insert =>
    -- the version-1 lane and the drain look at the outcome of their write only
    -- after the read-back has failed
    match p.fence with
    | .v1 .. | .drain .. => some .readBack
    | .graph .. | .payment .. => if ok then some .readBack else none
  | .readBack => if ok && stored.any (p.fence.accepts p.payload) then some .complete else none
  | .complete => none

/-- `publish_claimed_entitlement` of a claimed or persisted graph row. -/
def Publisher.ofGraph (l : Lease) (r : TaskRow) : Option Publisher := do
  let t ← (toGraphTask r).toOption
  let payload ← t.entitlementToPublish
  let token ← t.entitlementPublicationToken
  if t.status = .publishingEntitlement then
    some ⟨.graph l t.evaluatorRevision token, .v2 payload, .acquire⟩
  else none

def Publisher.ofPayment (l : Lease) (r : TaskRow) : Option Publisher := do
  let t ← (toPaymentTask r).toOption
  let payload ← t.entitlementToPublish
  let token ← t.entitlementPublicationToken
  if t.status = .publishingEntitlement then
    some ⟨.payment l t.evaluatorRevision token, .v2 payload, .acquire⟩
  else none

/-- `publish_entitlement_and_complete` of a claimed version-1 row. -/
def Publisher.ofRecord (l : Lease) (r : TaskRow) : Option Publisher := do
  let t ← r.toRecord.toOption
  let payload ← t.entitlementToPublish
  if t.status = .publishingEntitlement then some ⟨.v1 l t, .v1 payload, .insert⟩ else none

/-- The publication a transaction of a worker starts: of the row it claimed or
    persisted, if that is to be published. -/
def Operation.publisher? (db : Database) : Operation → Option Publisher
  | statement (.v1Claim l _ _ _) => (db.task? l.taskId).bind (Publisher.ofRecord l)
  | statement (.graphClaim l _ _ _) | statement (.graphPersist l _ _ _ _) =>
    (db.task? l.taskId).bind (Publisher.ofGraph l)
  | statement (.paymentClaim l _ _ _) | statement (.paymentPersist l _ _ _ _) =>
    (db.task? l.taskId).bind (Publisher.ofPayment l)
  | _ => none

/-- The copy a version-1 worker gets with its claim. -/
def Operation.v1Claim? (db : Database) : Operation → Option V1Claim
  | statement (.v1Claim l _ _ _) =>
    ((db.task? l.taskId).bind (·.toRecord.toOption)).map (⟨l, ·⟩)
  | _ => none

/-- What the verification of a claimed version-1 task comes to. -/
inductive V1Verdict where
  | satisfied (result : VerificationResult)
  | failed (at' : Timestamp) (message : String)
  | unsatisfied (at' : Timestamp) (request : PaymentRequestState) (payment : PaymentState)
deriving DecidableEq

/-- The transition `execute` hands to the claimer. -/
def V1Verdict.transition (t : VerificationTaskRecord) : V1Verdict → CompletionTransition
  | satisfied result => .publish
      { version := VERIFIED_PROOF_BUNDLE_VERSION, bundleId := t.submittedProofBundle.bundleId,
        pubkyLockResource := t.submittedProofBundle.pubkyLockResource,
        verificationResult := result, entitlementLifetime := .unbounded }
  | failed at' message => .fail at' message
  | unsatisfied at' request payment => .expire at' request payment

def V1Claim.publisher? (c : V1Claim) : CompletionTransition → Option Publisher
  | .publish e =>
    let task := { c.task with status := .publishingEntitlement, entitlementToPublish := some e }
    some ⟨.v1 c.lease task, .v1 e, .insert⟩
  | _ => none

/-! ## The service -/

abbrev EntitlementStore := WriteOnce.Store (CreatorPubky × BundleId) VerifiedProofBundlePayload

def HoldsPayload (store : EntitlementStore) (payload : VerifiedProofBundlePayload) : Prop :=
  ∃ stored, store.read payload.key = some stored ∧ stored.Publishes payload

/-- The database, the stores of the creators, and what the version-1 workers,
    the drains and the publishers hold in memory. -/
structure PublicationService where
  db : Database
  store : EntitlementStore
  claims : List V1Claim
  obligations : List PaymentDrainObligation
  publishers : List Publisher

inductive PublicationEvent where
  | transaction (op : Operation)
  | work (c : V1Claim) (verdict : V1Verdict) (dbNow : Timestamp)
  | list (jobId : Uuid)
  | drain (l : JobLease) (o : PaymentDrainObligation) (verifiedBy : LockServerPubky)
      (verifiedAt : Timestamp) (publicationToken : Uuid) (now : Timestamp)
  | land (key : CreatorPubky × BundleId) (e : VerifiedProofBundlePayload)
  | advance (p : Publisher) (ok : Bool) (dbNow : Timestamp)
  | complete (p : Publisher) (at' dbNow : Timestamp)

/-- The transactions that only version-1 workers, drains and publishers issue. -/
def Operation.ofPublication : Operation → Bool
  | statement (.v1Persist ..) | statement (.drainBegin ..) => true
  | op => op.completes

/-- The submissions insert pending tasks. -/
def Operation.submitsPending : Operation → Bool
  | admission (.insertVerificationTask t) | admission (.insertInvoicePendingTask t _ _) =>
    t.status == .pending
  | _ => true

namespace PublicationService

/-- The service before any request, over stores that may hold anything. -/
def init (store : EntitlementStore) : PublicationService := ⟨.empty, store, [], [], []⟩

def exec (E : Externals) (s : PublicationService) : PublicationEvent → Option PublicationService
  | .transaction op =>
    if op.ofPublication || !op.submitsPending then none
    else (op.run E s.db).map fun db =>
      { s with db, claims := (op.v1Claim? db).toList ++ s.claims,
               publishers := (op.publisher? db).toList ++ s.publishers }
  | .work c verdict dbNow =>
    if c ∈ s.claims ∧ c.task.status = .inProgress then
      let transition := verdict.transition c.task
      match Operation.run E s.db (.statement (.v1Persist c.lease c.task transition dbNow)) with
      | some db => some
        { s with db, claims := s.claims.erase c,
                 publishers := (c.publisher? transition).toList ++ s.publishers }
      | none => some { s with claims := s.claims.erase c }
    else none
  | .list jobId => some { s with obligations := s.db.listObligations jobId ++ s.obligations }
  | .drain l o verifiedBy verifiedAt k now =>
    if o ∈ s.obligations then
      (o.entitlement? verifiedBy verifiedAt).bind fun e =>
        (Operation.run E s.db (.statement (.drainBegin l o.taskId e k now))).map fun db =>
          let token := (db.task? o.taskId).bind (·.entitlementPublicationClaimToken)
          { s with db, publishers :=
              token.toList.map (⟨.drain l o.taskId ·, .v1 e, .insert⟩) ++ s.publishers }
    else none
  | .land key e => some { s with store := s.store.write key e }
  | .advance p ok dbNow =>
    if p ∈ s.publishers then
      let next := p.next (p.fence.live s.db dbNow) ok (s.store.read p.payload.key)
      some { s with publishers := next.toList.map ({ p with phase := · }) ++ s.publishers.erase p }
    else none
  | .complete p at' dbNow =>
    if p ∈ s.publishers ∧ p.phase = .complete then
      let op := statement (p.fence.completion at' dbNow)
      some { s with db := (op.run E s.db).getD s.db,
                    publishers := s.publishers.erase p }
    else none

end PublicationService

/-! ## Rows -/

/-- What an event does to a row: a payload once stored stays, a row that becomes
    settled starts to publish for its handle, and a row that becomes completed
    has its payload in the store. -/
structure RowKept (store : EntitlementStore) (r q : TaskRow) : Prop where
  identity : q.identity = r.identity
  settled : r.Settled → q.Settled ∧ q.entitlementToPublish = r.entitlementToPublish
  entered : ¬ r.Settled → q.Settled →
    ∃ p, q.entitlementToPublish = some p ∧ p.key = (r.creator, r.bundleId)
  completed : r.status ≠ .completed → q.status = .completed →
    ∃ p, q.entitlementToPublish = some p ∧ HoldsPayload store p

variable {store store' : EntitlementStore} {db : Database} {op : Operation} {r q : TaskRow}

theorem HoldsPayload.mono {p : VerifiedProofBundlePayload} (hle : store.Le store')
    (h : HoldsPayload store p) :
    HoldsPayload store' p := by
  obtain ⟨stored, hread, hpub⟩ := h
  exact ⟨stored, hle _ _ hread, hpub⟩

theorem RowKept.refl (store : EntitlementStore) (r : TaskRow) : RowKept store r r :=
  ⟨rfl, fun h => ⟨h, rfl⟩, fun hn h => absurd h hn, fun hn h => absurd h hn⟩

/-- **Transactions** that complete nothing. -/
theorem rowKept_of_transaction (hs : db.Sound) (hmem : r ∈ db.tasks) (h : RowStep db r op q)
    (hop : op.completes = false)
    (hkey : ∀ p, Entered r op p → p.key = (r.creator, r.bundleId)) : RowKept store r q where
  identity := identity_of_rowStep h
  settled := by
    intro hr
    obtain ⟨hst, he⟩ := settled_kept h hr hop
    exact ⟨by rwa [Settled, hst], he⟩
  entered := by
    intro hr hq
    obtain ⟨-, p, hp, hent⟩ := entered_of_rowStep hs hmem h hr hq hop
    exact ⟨p, hp, hkey p hent⟩
  completed := by
    intro hne hq
    by_cases hr : r.Settled
    · exact absurd ((settled_kept h hr hop).1.symm.trans hq) hne
    · have hpub := (entered_of_rowStep hs hmem h hr (.inr hq) hop).1
      rw [hq] at hpub
      cases hpub

variable {p : Publisher} {f : PublicationFence} {at' dbNow : Timestamp} {id : TaskId} {l : Lease}
  {c : V1Claim} {db' : Database}

theorem completion_cases (h : RowStep db r (.statement (f.completion at' dbNow)) q) :
    q = r ∨ r.taskId = f.taskId ∧ r.status = .publishingEntitlement ∧ q.status = .completed ∧
      q.entitlementToPublish = f.completedPayload r := by
  cases h with
  | kept => exact .inl rfl
  | statement st hst hg =>
    refine .inr ?_
    cases f with
    | v1 l task =>
      simp only [PublicationFence.completion, update] at hg ⊢
      split at hg
      · rename_i t ht
        simp only [V1.persistTransition, Bool.and_eq_true, beq_iff_eq, Lease.holds] at hg ⊢
        obtain ⟨hst, he⟩ := CompletionTransition.completed_of_apply ht
        rw [hst] at hg
        exact ⟨hg.1.1.1.1.1, (Option.some.inj hg.1.1.2).symm, hst, congrArg _ he⟩
      · cases hg
    | graph l n k =>
      simp only [PublicationFence.completion, update, Graph.complete,
        Bool.and_eq_true] at hg
      have hpub := hg.1.1.2
      exact ⟨Evaluator.taskId_of_publishing hpub, Evaluator.status_of_publishing hpub, rfl, rfl⟩
    | payment l n k =>
      simp only [PublicationFence.completion, update, Payment.complete,
        Bool.and_eq_true] at hg
      have hpub := hg.1.1.2
      exact ⟨Evaluator.taskId_of_publishing hpub, Evaluator.status_of_publishing hpub, rfl, rfl⟩
    | drain l id k =>
      simp only [PublicationFence.completion, update, Drain.persistCompleted,
        Bool.and_eq_true, beq_iff_eq] at hg
      exact ⟨hg.1.1.1.1.1.1, hg.1.1.2, rfl, rfl⟩

/-- The publisher publishes the payload of its task, and has found it in the
    store if it is about to complete the task. -/
structure Publisher.Bound (p : Publisher) (db : Database) (store : EntitlementStore) : Prop where
  row : ∃ r ∈ db.tasks, r.taskId = p.fence.taskId ∧ r.Settled ∧
    r.entitlementToPublish = some p.payload
  record : ∀ l t, p.fence = .v1 l t → t.entitlementToPublish.map .v1 = some p.payload
  held : p.phase = .complete → HoldsPayload store p.payload

/-- **Completions.** -/
theorem rowKept_of_completion (hs : db.Sound) (hmem : r ∈ db.tasks) (hp : p.Bound db store)
    (hphase : p.phase = .complete)
    (h : RowStep db r (.statement (p.fence.completion at' dbNow)) q) : RowKept store r q := by
  rcases completion_cases h with rfl | ⟨hid, hpub, hdone, he⟩
  · exact .refl store q
  have hr : r.entitlementToPublish = some p.payload := by
    obtain ⟨r', hr', hid', -, he'⟩ := hp.row
    rwa [List.inj_on_of_nodup_map hs.taskIds hmem hr' (hid.trans hid'.symm)]
  have hq : q.entitlementToPublish = some p.payload := by
    rw [he]
    cases hf : p.fence with
    | v1 l task => exact hp.record l task hf
    | graph l n k => exact hr
    | payment l n k => exact hr
    | drain l id k => exact hr
  exact
    { identity := identity_of_rowStep h
      settled := fun _ => ⟨.inr hdone, hq.trans hr.symm⟩
      entered := fun hn _ => absurd (.inl hpub) hn
      completed := fun _ _ => ⟨p.payload, hq, hp.held hphase⟩ }

theorem PublicationFence.publishes_of_accepts
    {payload stored : VerifiedProofBundlePayload} (h : f.accepts payload stored) :
    stored.Publishes payload := by
  unfold accepts at h
  split at h
  · rw [beq_iff_eq] at h
    rw [h]
    rfl
  · exact decision_of_same h
  · exact beq_iff_eq.1 h
  · exact beq_iff_eq.1 h
  · cases h

theorem Publisher.holds_of_next {live ok : Bool}
    (h : p.next live ok (store.read p.payload.key) = some .complete) : HoldsPayload store p.payload := by
  have haccepts : ∀ e, store.read p.payload.key = some e → p.fence.accepts p.payload e →
      HoldsPayload store p.payload := fun e he ha => ⟨e, he, PublicationFence.publishes_of_accepts ha⟩
  unfold next at h
  split at h
  · split at h <;> cases h
  · split at h
    · split at h
      · cases h
      · rename_i e he
        split at h
        · rename_i ha
          exact haccepts e he ha
        · cases h
    · cases h
  · split at h
    · cases h
    · cases h
    · split at h <;> cases h
    · split at h <;> cases h
  · split at h
    · rename_i ha
      rw [Bool.and_eq_true] at ha
      obtain ⟨e, he, ha⟩ := (Option.any_eq_true _ _).1 ha.2
      exact haccepts e he ha
    · cases h
  · cases h

/-! ### Reads -/

theorem mem_of_task? (h : db.task? id = some r) : r ∈ db.tasks ∧ r.taskId = id :=
  ⟨List.mem_of_find?_eq_some h, by simpa using List.find?_some h⟩

theorem Except.eq_ok_of_toOption {ε α : Type} {x : Except ε α} {a : α}
    (h : x.toOption = some a) : x = .ok a := by
  cases x with
  | error e => cases h
  | ok b => cases h; rfl

theorem TaskRow.entitlementV2_eq_ok {m : String} {e : Option VerifiedProofBundleV2}
    (h : r.entitlementV2 m = .ok e) : r.entitlementToPublish = e.map .v2 := by
  unfold entitlementV2 at h
  split at h <;> cases h <;> assumption

theorem publication_of_toGraphTask {t : GraphTaskRecord} (h : toGraphTask r = .ok t) :
    r.status = t.status ∧ r.entitlementToPublish = t.entitlementToPublish.map .v2 := by
  simp only [toGraphTask, Checks.bind_eq_ok] at h
  obtain ⟨s, -, _, -, _, -, e, he, _, -, _, -, h⟩ := h
  cases h
  exact ⟨rfl, r.entitlementV2_eq_ok he⟩

theorem publication_of_toPaymentTask {t : PaymentTaskRecord} (h : toPaymentTask r = .ok t) :
    r.status = t.status ∧ r.entitlementToPublish = t.entitlementToPublish.map .v2 := by
  simp only [toPaymentTask, Checks.bind_eq_ok] at h
  obtain ⟨s, -, _, -, _, -, e, he, _, -, _, -, h⟩ := h
  cases h
  exact ⟨rfl, r.entitlementV2_eq_ok he⟩

theorem Publisher.bound_of_row (hr : db.task? p.fence.taskId = some r)
    (hs : r.status = .publishingEntitlement) (he : r.entitlementToPublish = some p.payload)
    (hrecord : ∀ l t, p.fence = .v1 l t → t.entitlementToPublish.map .v1 = some p.payload)
    (hphase : p.phase ≠ .complete) : p.Bound db store := by
  obtain ⟨hmem, hid⟩ := mem_of_task? hr
  exact ⟨⟨r, hmem, hid, .inl hs, he⟩, hrecord, fun h => absurd h hphase⟩

section
variable (hr : db.task? l.taskId = some r)
include hr

theorem Publisher.bound_of_graph (h : Publisher.ofGraph l r = some p) : p.Bound db store := by
  simp only [ofGraph, Option.bind_eq_bind, Option.bind_eq_some_iff] at h
  obtain ⟨t, ht, payload, hpay, k, -, h⟩ := h
  split at h
  · rename_i hst
    cases h
    obtain ⟨hrs, hre⟩ := publication_of_toGraphTask (Except.eq_ok_of_toOption ht)
    rw [hpay] at hre
    exact bound_of_row hr (hrs.trans hst) hre (by rintro l t ⟨⟩) nofun
  · cases h

theorem Publisher.bound_of_payment (h : Publisher.ofPayment l r = some p) : p.Bound db store := by
  simp only [ofPayment, Option.bind_eq_bind, Option.bind_eq_some_iff] at h
  obtain ⟨t, ht, payload, hpay, k, -, h⟩ := h
  split at h
  · rename_i hst
    cases h
    obtain ⟨hrs, hre⟩ := publication_of_toPaymentTask (Except.eq_ok_of_toOption ht)
    rw [hpay] at hre
    exact bound_of_row hr (hrs.trans hst) hre (by rintro l t ⟨⟩) nofun
  · cases h

theorem Publisher.bound_of_record (h : Publisher.ofRecord l r = some p) : p.Bound db store := by
  simp only [ofRecord, Option.bind_eq_bind, Option.bind_eq_some_iff] at h
  obtain ⟨t, ht, payload, hpay, h⟩ := h
  split at h
  · rename_i hst
    cases h
    have hread := readAs_of_toRecord (Except.eq_ok_of_toOption ht)
    have hre := hread.entitlement
    rw [hpay] at hre
    refine bound_of_row hr (hread.status.trans hst) hre ?_ nofun
    rintro l t' ⟨⟩
    rw [hpay]
    rfl
  · cases h

end

theorem bound_of_publisher? (h : op.publisher? db = some p) : p.Bound db store := by
  unfold publisher? at h
  split at h
  · obtain ⟨r, hr, h⟩ := Option.bind_eq_some_iff.1 h
    exact Publisher.bound_of_record hr h
  · obtain ⟨r, hr, h⟩ := Option.bind_eq_some_iff.1 h
    exact Publisher.bound_of_graph hr h
  · obtain ⟨r, hr, h⟩ := Option.bind_eq_some_iff.1 h
    exact Publisher.bound_of_graph hr h
  · obtain ⟨r, hr, h⟩ := Option.bind_eq_some_iff.1 h
    exact Publisher.bound_of_payment hr h
  · obtain ⟨r, hr, h⟩ := Option.bind_eq_some_iff.1 h
    exact Publisher.bound_of_payment hr h
  · cases h

/-- The handle of a claimed task is the handle of its row. -/
def V1Claim.Matches (c : V1Claim) (db : Database) : Prop :=
  ∃ r ∈ db.tasks, r.taskId = c.lease.taskId ∧
    r.creator = c.task.submittedProofBundle.pubkyLockResource.creator ∧
    r.bundleId = c.task.submittedProofBundle.bundleId

/-- What the drain publishes for an obligation is for the handle of its row. -/
def PaymentDrainObligation.Matches (o : PaymentDrainObligation) (db : Database) : Prop :=
  ∃ r ∈ db.tasks, r.taskId = o.taskId ∧ ∀ verifiedBy now e,
    o.entitlement? verifiedBy now = some e →
      VerifiedProofBundlePayload.key (.v1 e) = (r.creator, r.bundleId)

theorem matches_of_v1Claim? (h : op.v1Claim? db = some c) : c.Matches db := by
  unfold v1Claim? at h
  split at h
  · obtain ⟨t, ht, rfl⟩ := Option.map_eq_some_iff.1 h
    obtain ⟨r, hr, ht⟩ := Option.bind_eq_some_iff.1 ht
    obtain ⟨hmem, hid⟩ := mem_of_task? hr
    have hread := readAs_of_toRecord (Except.eq_ok_of_toOption ht)
    exact ⟨r, hmem, hid, hread.creator, hread.bundleId⟩
  · cases h

theorem matches_of_listObligations (hs : db.Sound)
    (hsettled : ∀ r ∈ db.tasks, ∀ p, r.entitlementToPublish = some p →
      p.key = (r.creator, r.bundleId))
    {jobId : Uuid} {o : PaymentDrainObligation} (h : o ∈ db.listObligations jobId) :
    o.Matches db := by
  simp only [Database.listObligations, List.mem_filterMap, Option.bind_eq_some_iff,
    Option.filter_eq_some_iff] at h
  obtain ⟨sn, -, r, ⟨hr, -⟩, h⟩ := h
  obtain ⟨hmem, -⟩ := mem_of_task? hr
  simp only [toObligation, Option.bind_eq_bind, Option.bind_eq_some_iff] at h
  obtain ⟨criterionId, -, e, he, h⟩ := h
  cases h
  have hstored : ∀ e', e = some e' → r.entitlementToPublish = some (.v1 e') := by
    rintro e' rfl
    unfold entitlementV1? at he
    split at he
    · cases he
    · rename_i hre
      cases he
      exact hre
    · cases he
  refine ⟨r, hmem, rfl, fun verifiedBy now e' hent => ?_⟩
  have hnew : VerifiedProofBundlePayload.key (.v1 ((e.getD
      (PaymentDrainObligation.verified ⟨r.taskId, r.bundleId, r.resource, criterionId, r.status, e⟩
        verifiedBy now)))) = (r.creator, r.bundleId) := by
    cases e with
    | none => exact Prod.ext (hs.creator r hmem) rfl
    | some e => exact hsettled r hmem _ (hstored e rfl)
  unfold PaymentDrainObligation.entitlement? at hent
  split at hent
  · exact hsettled r hmem _ (hstored e' hent)
  · cases hent; exact hnew
  · cases hent; exact hnew
  · cases hent
  · cases hent
  · cases hent

theorem bound_of_verdict {tr : CompletionTransition}
    (h : (v1Persist c.lease c.task tr dbNow).run db = some db') (hp : c.publisher? tr = some p) :
    p.Bound db' store := by
  unfold V1Claim.publisher? at hp
  split at hp
  · rename_i e
    cases hp
    obtain ⟨r, hr, hg, hset⟩ := exists_written_of_run h
    cases ht : (CompletionTransition.publish e).apply c.task with
    | error m => simp [update, ht, TaskUpdate.skip] at hg
    | ok t =>
      simp only [update, ht] at hg hset
      simp only [V1.persistTransition, Bool.and_eq_true, beq_iff_eq, Lease.holds] at hg
      cases CompletionTransition.publishing_of_apply ht
      refine ⟨⟨_, hset, hg.1.1.1.1.1, .inl rfl, rfl⟩, ?_, by rintro ⟨⟩⟩
      rintro l t ⟨⟩
      rfl
  · cases hp

theorem bound_of_drainBegin {l : JobLease} {e : VerifiedProofBundle} {k k' : Uuid}
    {now : Timestamp} (h : (drainBegin l id e k now).run db = some db') :
    Publisher.Bound ⟨.drain l id k', .v1 e, .insert⟩ db' store := by
  obtain ⟨r, hr, hg, hset⟩ := exists_written_of_run h
  simp only [update, Drain.beginPublication, Bool.and_eq_true, beq_iff_eq,
    Bool.or_eq_true, Drain.unpublished_iff] at hg
  obtain ⟨⟨⟨⟨hid, -⟩, -⟩, -⟩, hpay⟩ := hg
  have hset' : ((Drain.beginPublication db l id e k now).set r).entitlementToPublish =
      some (.v1 e) := by
    rcases hpay with ⟨-, he, -⟩ | ⟨⟨-, he⟩, -⟩
    · simp [Drain.beginPublication, Option.isNone_iff_eq_none.1 he]
    · simp [Drain.beginPublication, he]
  exact ⟨⟨_, hset, hid, .inl rfl, hset'⟩, by rintro l t ⟨⟩, by rintro ⟨⟩⟩

theorem not_settled_of_newRow {a : Admission} (h : (admission a).submitsPending)
    (hq : a.NewRow q) : ¬ q.Settled := by
  have hpending : q.status = .pending := by
    cases a with
    | insertVerificationTask t =>
      cases hq
      exact beq_iff_eq.1 h
    | insertInvoicePendingTask t intent dbNow =>
      cases hq
      exact beq_iff_eq.1 h
    | insertGraphTask t => rw [hq.2]; rfl
    | admitPaymentTask request dbNow => obtain ⟨p, -, rfl⟩ := hq; rfl
    | startOrRotate request dbNow => exact hq.elim
    | acceptAndInsertGraphTask attempt taskId reader dbNow => obtain ⟨t, -, rfl⟩ := hq; rfl
  rintro (h | h) <;> rw [hpending] at h <;> cases h

/-! ## Runs -/

namespace PublicationService

/-- Settled rows have a payload for their handle, completed rows have it in the
    store, and what workers, drains and publishers hold is about stored rows. -/
structure Inv (s : PublicationService) : Prop where
  sound : s.db.Sound
  settled : ∀ r ∈ s.db.tasks, r.Settled →
    ∃ p, r.entitlementToPublish = some p ∧ p.key = (r.creator, r.bundleId)
  completed : ∀ r ∈ s.db.tasks, r.status = .completed →
    ∃ p, r.entitlementToPublish = some p ∧ HoldsPayload s.store p
  claims : ∀ c ∈ s.claims, c.Matches s.db
  obligations : ∀ o ∈ s.obligations, o.Matches s.db
  publishers : ∀ p ∈ s.publishers, p.Bound s.db s.store

/-- What an event does: the store only grows, rows are kept, and what is new in
    memory is about the rows after the event. -/
structure Step (E : Externals) (s s' : PublicationService) : Prop where
  store : s.store.Le s'.store
  tables : s'.db = s.db ∨ ∃ op : Operation, op.run E s.db = some s'.db ∧
    (∀ r ∈ s.db.tasks, ∀ q, RowStep s.db r op q → RowKept s.store r q) ∧
    ∀ a q, op = .admission a → a.NewRow q → ¬ q.Settled
  claims : ∀ c ∈ s'.claims, c ∈ s.claims ∨ c.Matches s'.db
  obligations : ∀ o ∈ s'.obligations, o ∈ s.obligations ∨ o.Matches s'.db
  publishers : ∀ p ∈ s'.publishers, p ∈ s.publishers ∨ p.Bound s'.db s'.store

variable {E : Externals} {s s' : PublicationService} {ev : PublicationEvent}

section
variable (hi : s.Inv)
include hi

theorem Inv.key (hr : r ∈ s.db.tasks)
    {p : VerifiedProofBundlePayload} (h : r.entitlementToPublish = some p) :
    p.key = (r.creator, r.bundleId) := by
  have hc := stateCheck_of_checks (hi.sound.checks r hr)
  obtain ⟨p', hp', hkey⟩ := hi.settled r hr (settled_of_payload hc h)
  rw [h] at hp'
  cases hp'
  exact hkey

theorem Inv.unique (hr : r ∈ s.db.tasks)
    (hq : q ∈ s.db.tasks) (h : r.taskId = q.taskId) : r = q :=
  List.inj_on_of_nodup_map hi.sound.taskIds hr hq h

theorem rowKept_of_other {op : Operation} (hop : op.ofPublication = false)
    (hr : r ∈ s.db.tasks) (h : RowStep s.db r op q) :
    RowKept s.store r q := by
  have hcomp : op.completes = false := by
    unfold ofPublication at hop
    split at hop
    · cases hop
    · cases hop
    · exact hop
  refine rowKept_of_transaction hi.sound hr h hcomp fun p hp => ?_
  cases hp with
  | evaluator op e hc hb => exact Prod.ext hc hb
  | verdict l claimed e dbNow hid => cases hop
  | drain l e k now => cases hop

theorem rowKept_of_verdict {c : V1Claim} (hc : c ∈ s.claims) {v : V1Verdict}
    {dbNow : Timestamp} (hr : r ∈ s.db.tasks)
    (h : RowStep s.db r
      (.statement (.v1Persist c.lease c.task (v.transition c.task) dbNow)) q) :
    RowKept s.store r q := by
  refine rowKept_of_transaction hi.sound hr h ?_ fun p hp => ?_
  · cases v <;> rfl
  · obtain ⟨r', hr', hid', hcreator, hbundle⟩ := hi.claims c hc
    generalize hop : statement (.v1Persist c.lease c.task (v.transition c.task) dbNow) =
      op at hp
    cases hp with
    | evaluator op e hc hb => exact Prod.ext hc hb
    | verdict l claimed e dbNow hid =>
      cases v with
      | satisfied result =>
        cases hop
        cases hi.unique hr hr' (hid.trans hid'.symm)
        exact Prod.ext hcreator.symm hbundle.symm
      | failed at' message => cases hop
      | unsatisfied at' request payment => cases hop
    | drain l e k now => cases hop

theorem rowKept_of_drain {o : PaymentDrainObligation} (ho : o ∈ s.obligations)
    {verifiedBy : LockServerPubky} {verifiedAt now : Timestamp} {e : VerifiedProofBundle}
    (he : o.entitlement? verifiedBy verifiedAt = some e) {l : JobLease} {k : Uuid}
    (hr : r ∈ s.db.tasks)
    (h : RowStep s.db r (.statement (.drainBegin l o.taskId e k now)) q) :
    RowKept s.store r q := by
  refine rowKept_of_transaction hi.sound hr h rfl fun p hp => ?_
  obtain ⟨r', hr', hid', hkey⟩ := hi.obligations o ho
  generalize hop : statement (.drainBegin l o.taskId e k now) = op at hp
  cases hp with
  | evaluator op e hc hb => exact Prod.ext hc hb
  | verdict l claimed e dbNow hid => cases hop
  | drain l e k now =>
    simp only [statement.injEq, drainBegin.injEq] at hop
    obtain ⟨-, hid, rfl, -⟩ := hop
    cases hi.unique hr hr' (hid.symm.trans hid'.symm)
    exact hkey _ _ _ he

/-- **Events**, inverted. -/
theorem step_of_exec (h : s.exec E ev = some s') : Step E s s' := by
  cases ev with
  | transaction op =>
    simp only [exec] at h
    split at h
    · cases h
    · rename_i hop
      simp only [Bool.or_eq_true, Bool.not_eq_true', not_or, Bool.not_eq_true,
        Bool.not_eq_false] at hop
      obtain ⟨w, hw, rfl⟩ := Option.map_eq_some_iff.1 h
      refine ⟨.refl _, .inr ⟨op, hw, fun r hr q hq => rowKept_of_other hi hop.1 hr hq, ?_⟩, ?_,
        fun _ ho => .inl ho, ?_⟩
      · rintro a q rfl hq
        exact not_settled_of_newRow hop.2 hq
      · intro c hc
        rcases List.mem_append.1 hc with hnew | hold
        · exact .inr (matches_of_v1Claim? (Option.mem_toList.1 hnew))
        · exact .inl hold
      · intro p hp
        rcases List.mem_append.1 hp with hnew | hold
        · exact .inr (bound_of_publisher? (Option.mem_toList.1 hnew))
        · exact .inl hold
  | work c v dbNow =>
    simp only [exec] at h
    split at h
    · rename_i hpre
      split at h
      · rename_i w hw
        cases h
        refine ⟨.refl _, .inr ⟨_, hw, fun r hr q hq => rowKept_of_verdict hi hpre.1 hr hq,
          by rintro _ _ ⟨⟩⟩, fun d hd => .inl (List.mem_of_mem_erase hd), fun _ ho => .inl ho, ?_⟩
        intro p hp
        rcases List.mem_append.1 hp with hnew | hold
        · exact .inr (bound_of_verdict hw (Option.mem_toList.1 hnew))
        · exact .inl hold
      · cases h
        exact ⟨.refl _, .inl rfl, fun d hd => .inl (List.mem_of_mem_erase hd), fun _ ho => .inl ho,
          fun _ hp => .inl hp⟩
    · cases h
  | list jobId =>
    cases h
    refine ⟨.refl _, .inl rfl, fun _ hc => .inl hc, fun o ho => ?_, fun _ hp => .inl hp⟩
    rcases List.mem_append.1 ho with hnew | hold
    · exact .inr (matches_of_listObligations hi.sound (fun r hr p hp => hi.key hr hp) hnew)
    · exact .inl hold
  | drain l o verifiedBy verifiedAt k now =>
    simp only [exec] at h
    split at h
    · rename_i ho
      obtain ⟨e, he, h⟩ := Option.bind_eq_some_iff.1 h
      obtain ⟨w, hw, rfl⟩ := Option.map_eq_some_iff.1 h
      refine ⟨.refl _, .inr ⟨_, hw, fun r hr q hq => rowKept_of_drain hi ho he hr hq,
        by rintro _ _ ⟨⟩⟩, fun _ hc => .inl hc, fun _ ho => .inl ho, ?_⟩
      intro p hp
      rcases List.mem_append.1 hp with hnew | hold
      · obtain ⟨k', -, rfl⟩ := List.mem_map.1 hnew
        exact .inr (bound_of_drainBegin hw)
      · exact .inl hold
    · cases h
  | land key e =>
    cases h
    exact ⟨WriteOnce.Store.le_write _ _ _, .inl rfl, fun _ hc => .inl hc, fun _ ho => .inl ho,
      fun _ hp => .inl hp⟩
  | advance p ok dbNow =>
    simp only [exec] at h
    split at h
    · rename_i hp
      cases h
      refine ⟨.refl _, .inl rfl, fun _ hc => .inl hc, fun _ ho => .inl ho, fun p' hp' => ?_⟩
      rcases List.mem_append.1 hp' with hnew | hold
      · obtain ⟨phase, hphase, rfl⟩ := List.mem_map.1 hnew
        obtain ⟨hrow, hrecord, -⟩ := hi.publishers p hp
        refine .inr ⟨hrow, hrecord, ?_⟩
        rintro rfl
        have hheld := Publisher.holds_of_next (Option.mem_toList.1 hphase)
        exact hheld
      · exact .inl (List.mem_of_mem_erase hold)
    · cases h
  | complete p at' dbNow =>
    simp only [exec] at h
    split at h
    · rename_i hpre
      cases h
      refine ⟨.refl _, ?_, fun _ hc => .inl hc, fun _ ho => .inl ho,
        fun _ hp => .inl (List.mem_of_mem_erase hp)⟩
      cases hw : Operation.run E s.db (.statement (p.fence.completion at' dbNow)) with
      | none => exact .inl rfl
      | some w =>
        refine .inr ⟨_, hw, fun r hr q hq => ?_, by rintro _ _ ⟨⟩⟩
        exact rowKept_of_completion hi.sound hr (hi.publishers p hpre.1) hpre.2 hq
    · cases h

theorem Step.forward (h : Step E s s') (hr : r ∈ s.db.tasks) :
    ∃ q ∈ s'.db.tasks, RowKept s.store r q := by
  rcases h.tables with hw | ⟨op, hop, hkept, -⟩
  · exact ⟨r, hw ▸ hr, .refl _ r⟩
  · have heffect := effect_of_run hi.sound hop
    obtain ⟨q, hq, hid⟩ := exists_row_of_effect heffect hr
    exact ⟨q, hq, hkept r hr q (rowStep_of_taskId hi.sound heffect hr hq hid)⟩

theorem Step.origin (h : Step E s s') (hq : q ∈ s'.db.tasks) :
    (∃ r ∈ s.db.tasks, RowKept s.store r q) ∨ ¬ q.Settled := by
  rcases h.tables with hw | ⟨op, hop, hkept, hnew⟩
  · exact .inl ⟨q, hw ▸ hq, .refl _ q⟩
  · rcases rowStep_of_run hi.sound hop hq with ⟨r, hr, hstep⟩ | ⟨a, ha, hrow, -⟩
    · exact .inl ⟨r, hr, hkept r hr q hstep⟩
    · exact .inr (hnew a q ha hrow)

/-- **Step.** -/
theorem Step.inv (h : Step E s s') : s'.Inv where
  sound := by
    rcases h.tables with hw | ⟨op, hop, -⟩
    · exact hw ▸ hi.sound
    · exact sound_of_effect hi.sound (effect_of_run hi.sound hop)
  settled := by
    intro q hq hqs
    rcases h.origin hi hq with ⟨r, hr, hk⟩ | hn
    · rw [creator_of_identity hk.identity, bundleId_of_identity hk.identity]
      by_cases hrs : r.Settled
      · rw [(hk.settled hrs).2]
        exact hi.settled r hr hrs
      · exact hk.entered hrs hqs
    · exact absurd hqs hn
  completed := by
    intro q hq hqc
    rcases h.origin hi hq with ⟨r, hr, hk⟩ | hn
    · obtain ⟨p, hp, hheld⟩ : ∃ p, q.entitlementToPublish = some p ∧ HoldsPayload s.store p := by
        by_cases hrc : r.status = .completed
        · rw [(hk.settled (.inr hrc)).2]
          exact hi.completed r hr hrc
        · exact hk.completed hrc hqc
      exact ⟨p, hp, hheld.mono h.store⟩
    · exact absurd (.inr hqc) hn
  claims := by
    intro c hc
    rcases h.claims c hc with hold | hnew
    · obtain ⟨r, hr, hid, hhandle⟩ := hi.claims c hold
      obtain ⟨q, hq, hk⟩ := h.forward hi hr
      refine ⟨q, hq, (taskId_of_identity hk.identity).trans hid, ?_⟩
      rwa [creator_of_identity hk.identity, bundleId_of_identity hk.identity]
    · exact hnew
  obligations := by
    intro o ho
    rcases h.obligations o ho with hold | hnew
    · obtain ⟨r, hr, hid, hkey⟩ := hi.obligations o hold
      obtain ⟨q, hq, hk⟩ := h.forward hi hr
      refine ⟨q, hq, (taskId_of_identity hk.identity).trans hid, ?_⟩
      rwa [creator_of_identity hk.identity, bundleId_of_identity hk.identity]
    · exact hnew
  publishers := by
    intro p hp
    rcases h.publishers p hp with hold | hnew
    · obtain ⟨⟨r, hr, hid, hrs, hre⟩, hrecord, hheld⟩ := hi.publishers p hold
      obtain ⟨q, hq, hk⟩ := h.forward hi hr
      obtain ⟨hqs, hqe⟩ := hk.settled hrs
      exact ⟨⟨q, hq, (taskId_of_identity hk.identity).trans hid, hqs, hqe.trans hre⟩, hrecord,
        fun hphase => (hheld hphase).mono h.store⟩
    · exact hnew

end

theorem inv_init (store : EntitlementStore) : (init store).Inv where
  sound := Database.sound_empty
  settled := List.forall_mem_nil _
  completed := List.forall_mem_nil _
  claims := List.forall_mem_nil _
  obligations := List.forall_mem_nil _
  publishers := List.forall_mem_nil _

variable {events : List PublicationEvent}

section
variable (h : Runs.Run (Runs.ofExec (exec E)) s events s') (hi : s.Inv)
include h hi

/-- **Run.** -/
theorem inv_of_run : s'.Inv :=
  h.invariant (I := Inv) hi fun _ _ _ hi hstep => (step_of_exec hi hstep).inv hi

theorem payload_of_run (hr : r ∈ s.db.tasks) (hs : r.Settled) : ∃ q ∈ s'.db.tasks,
      q.taskId = r.taskId ∧ q.Settled ∧ q.entitlementToPublish = r.entitlementToPublish := by
  apply h.invariant_under hi fun _ _ _ hi hstep => (step_of_exec hi hstep).inv hi
  · exact ⟨r, hr, rfl, hs, rfl⟩
  rintro s₁ ev s₂ hi₁ ⟨q, hq, hid, hqs, hqe⟩ hstep
  obtain ⟨q', hq', hk⟩ := (step_of_exec hi₁ hstep).forward hi₁ hq
  obtain ⟨hqs', hqe'⟩ := hk.settled hqs
  exact ⟨q', hq', (taskId_of_identity hk.identity).trans hid, hqs', hqe'.trans hqe⟩

end

end PublicationService

/-- **Completed implies published.**  In every state of a run a completed task
    has its payload in the store of the creator, under its bundle id; and from
    the time a task publishes its entitlement, its payload stays. -/
theorem completed_published {E : Externals} {store : EntitlementStore}
    {events : List PublicationEvent} {s : PublicationService}
    (h : Runs.Run (Runs.ofExec (PublicationService.exec E)) (.init store) events s) :
    (∀ r ∈ s.db.tasks, r.status = .completed → ∃ payload stored,
      r.entitlementToPublish = some payload ∧
        s.store.read (r.creator, r.bundleId) = some stored ∧ stored.Publishes payload) ∧
    ∀ later s', Runs.Run (Runs.ofExec (PublicationService.exec E)) s later s' →
      ∀ r ∈ s.db.tasks, r.status = .publishingEntitlement ∨ r.status = .completed →
        ∃ q ∈ s'.db.tasks, q.taskId = r.taskId ∧
          (q.status = .publishingEntitlement ∨ q.status = .completed) ∧
          q.entitlementToPublish = r.entitlementToPublish := by
  have hi := PublicationService.inv_of_run h (PublicationService.inv_init store)
  refine ⟨fun r hr hc => ?_, fun later s' hlater r hr hs => ?_⟩
  · obtain ⟨p, hp, stored, hread, hpub⟩ := hi.completed r hr hc
    rw [hi.key hr hp] at hread
    exact ⟨p, stored, hp, hread, hpub⟩
  · exact PublicationService.payload_of_run hlater hi hr hs

/-! ## A publication whose write fails and lands -/

def submittedTask : VerificationTaskRecord where
  taskId := ⟨⟨1⟩⟩
  creator := ⟨"creator"⟩
  submittedProofBundle :=
    ⟨1, ⟨"bundle"⟩, .of ⟨"creator"⟩ (LockId.fromHash (.replicate 7)), none, none, []⟩
  status := .pending
  submittedAt := 0
  startedAt := none
  completedAt := none
  failureMessage := none
  terminalReason := none
  entitlementToPublish := none

/-- The write of the worker reports a failure, lands before the read-back, and
    the task is completed. -/
def publishedRun : List PublicationEvent :=
  let lease : Lease := ⟨⟨⟨1⟩⟩, "worker", ⟨2⟩⟩
  let claimed := { submittedTask with status := .inProgress, startedAt := some 0 }
  let e : VerifiedProofBundle :=
    ⟨1, ⟨"bundle"⟩, .of ⟨"creator"⟩ (LockId.fromHash (.replicate 7)), ⟨[]⟩, .unbounded⟩
  let published := { claimed with status := .publishingEntitlement, entitlementToPublish := some e }
  [.transaction (.admission (.insertVerificationTask submittedTask)),
    .transaction (.statement (.v1Claim lease 0 (Duration.seconds 60) 0)),
    .work ⟨lease, claimed⟩ (.satisfied ⟨[]⟩) 0,
    .advance ⟨.v1 lease published, .v1 e, .insert⟩ false 0,
    .land (⟨"creator"⟩, ⟨"bundle"⟩) (.v1 e),
    .advance ⟨.v1 lease published, .v1 e, .readBack⟩ true 0,
    .complete ⟨.v1 lease published, .v1 e, .complete⟩ 0 0]

theorem landed_write_completed : let E := Externals.constant (.replicate 7)
    ∃ s r, Runs.execList (PublicationService.exec E) (.init ⟨[]⟩) publishedRun = some s ∧
      r ∈ s.db.tasks ∧ r.status = .completed ∧
      ∃ payload stored, r.entitlementToPublish = some payload ∧
        s.store.read (r.creator, r.bundleId) = some stored ∧ stored.Publishes payload := by
  intro E
  have h : (Runs.execList (PublicationService.exec E) (.init ⟨[]⟩) publishedRun).isSome := by
    decide +kernel
  refine ⟨_, _, (Option.some_get h).symm, List.mem_cons_self, rfl, ?_⟩
  exact (completed_published (Runs.run_of_execList (PublicationService.exec E)
    (Option.some_get h).symm)).1 _ List.mem_cons_self rfl

end PubkyLocks
