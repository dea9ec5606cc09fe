/-
  Reads of guarded resources with an access credential:
  `ProxyReadGuardedResourceUseCase::execute` over the credential store of
  `postgres/access_credentials.rs`.

  An ordinary credential is looked up, its entitlement is loaded again, and the
  lookup is finished in a transaction that deletes the credential if the
  validation returned any error.  A credential that a deletion has enrolled is
  answered from the frozen lock instead.

  Between the lookup and its end other transactions may commit; they are the
  parameter `interleaved`.
-/
import PubkyLocks.Access.EntitlementCheck
import PubkyLocks.Store.Database

namespace PubkyLocks

open Checks (refuse okOr)

/-! ## The credential store -/

/-- An `AccessCredentialLookupKey`, as the number of its 256 bits. -/
structure LookupKey where
  bits : ℕ
deriving DecidableEq, Repr

structure AccessCredentialRecord where
  creator : CreatorPubky
  bundleId : BundleId
  expiresAt : Timestamp
deriving DecidableEq, Repr

structure AccessCredentialRow where
  lookupKey : LookupKey
  record : AccessCredentialRecord
  deletionJobId : Option Uuid
deriving DecidableEq, Repr

inductive CredentialKind where
  | ordinary
  | final
deriving DecidableEq, Repr

/-- A row of `content_lock_access_drain_credentials`. -/
structure DrainCredential where
  credentialId : Uuid
  deletionJobId : Uuid
  lookupKey : LookupKey
  creator : CreatorPubky
  kind : CredentialKind
  expiresAt : Timestamp
deriving DecidableEq, Repr

/-- A row of `content_lock_access_drain_reads`. -/
structure DrainRead where
  credentialId : Uuid
  guardedPath : String
  claimToken : Option Uuid
  claimExpiresAt : Option Timestamp
  consumedAt : Option Timestamp
deriving DecidableEq, Repr

/-- A deletion job with the deadline of its final reads. -/
structure DrainJob where
  job : DeletionJob
  finalReadDeadline : Option Timestamp
deriving DecidableEq

structure CredentialStore where
  credentials : List AccessCredentialRow
  drainCredentials : List DrainCredential
  drainReads : List DrainRead
  jobs : List DrainJob
deriving DecidableEq

inductive OrdinaryCredentialLookupResult where
  | ordinaryCurrent
  | deletionEnrolled
  | missing
deriving DecidableEq, Repr

structure DeletionReadAuthorization where
  claimToken : Option Uuid
  creator : CreatorPubky
  resource : GuardedResource
deriving DecidableEq

def phaseAllowsCredentialAccess : ContentLockDeletionPhase → CredentialKind → Bool
  | .withdraw, .ordinary | .startPaymentDrain, .ordinary | .drainPayments, .ordinary
  | .drainExistingCredentials, .ordinary => true
  | .issueFinalCredentials, _ | .drainFinalReads, _ => true
  | _, _ => false

namespace CredentialStore

variable (s : CredentialStore)

def credential? (key : LookupKey) : Option AccessCredentialRow :=
  s.credentials.find? fun r => r.lookupKey == key

def getAccessCredential (key : LookupKey) : Option AccessCredentialRecord :=
  (s.credential? key).map (·.record)

/-- `DELETE FROM access_credentials` with the actions of the foreign keys. -/
def deleteCredential (key : LookupKey) : CredentialStore :=
  { s with
    credentials := s.credentials.filter fun r => r.lookupKey != key
    drainCredentials := s.drainCredentials.filter fun d => d.lookupKey != key
    drainReads := s.drainReads.filter fun r =>
      !s.drainCredentials.any fun d => d.lookupKey == key && d.credentialId == r.credentialId }

def finishOrdinaryCredentialLookup (key : LookupKey) (expected : AccessCredentialRecord)
    (invalidate : Bool) : OrdinaryCredentialLookupResult × CredentialStore :=
  match s.credential? key with
  | none => (.missing, s)
  | some row =>
    if row.record ≠ expected then (.missing, s)
    else if row.deletionJobId.isSome then (.deletionEnrolled, s)
    else if invalidate then (.missing, s.deleteCredential key)
    else (.ordinaryCurrent, s)

def deletionCredentialEnrolled (key : LookupKey) : Bool :=
  s.drainCredentials.any fun d => d.lookupKey == key

def drainCredential? (key : LookupKey) : Option DrainCredential :=
  s.drainCredentials.find? fun d => d.lookupKey == key

def activeDrainJob? (id : Uuid) : Option DrainJob :=
  s.jobs.find? fun j =>
    j.job.jobId == id && !j.job.state.isTerminal && j.job.forceRequestedAt.isNone

def updateReads (guard : DrainRead → Bool) (set : DrainRead → DrainRead) : CredentialStore :=
  { s with drainReads := Table.updateWhere guard set s.drainReads }

/-- The claim of a final read, as `prepare_deletion_read` bounds it. -/
def boundedExpiry (dbNow claimExpiresAt credentialExpiry readDeadline : Timestamp) : Timestamp :=
  min (min (min claimExpiresAt (dbNow + Duration.seconds 30)) credentialExpiry) readDeadline

/-- The claim of the final read of a path; `none` if it is consumed, claimed or
    too late. -/
def claimFinalRead (job : DrainJob) (credential : DrainCredential) (path : String)
    (resource : GuardedResource) (claimDuration : Duration) (dbNow : Timestamp) (token : Uuid) :
    Except ApplicationError (Option DeletionReadAuthorization) × CredentialStore :=
  match s.drainReads.find? fun r => r.credentialId == credential.credentialId &&
      r.guardedPath == path with
  | none => (.ok none, s)
  | some read =>
    if read.consumedAt.isSome then (.ok none, s)
    else if credential.expiresAt ≤ dbNow || !phaseAllowsCredentialAccess job.job.phase .final ||
        (read.claimToken.isSome && read.claimExpiresAt.any (dbNow < ·)) then (.ok none, s)
    else match job.finalReadDeadline with
      | none => (.ok none, s)
      | some readDeadline => match dbNow.checkedAdd claimDuration with
        | none => (.error (.storage "final read claim expiry overflow"), s)
        | some claimExpiresAt =>
          let expiry := boundedExpiry dbNow claimExpiresAt credential.expiresAt readDeadline
          if readDeadline ≤ dbNow || expiry ≤ dbNow then (.ok none, s)
          else (.ok (some ⟨some token, credential.creator, resource⟩),
            s.updateReads
              (fun r => r.credentialId == credential.credentialId && r.guardedPath == path)
              fun r => { r with claimToken := some token, claimExpiresAt := some expiry })

def prepareDeletionRead (key : LookupKey) (path : String) (claimDuration : Duration)
    (dbNow : Timestamp) (token : Uuid) :
    Except ApplicationError (Option DeletionReadAuthorization) × CredentialStore :=
  match s.drainCredential? key with
  | none => (.ok none, s)
  | some credential => match s.activeDrainJob? credential.deletionJobId with
    | none => (.ok none, s)
    | some job => match job.job.frozenContentLock.resourceForPath path with
      | none => (.ok none, s)
      | some resource => match credential.kind with
        | .ordinary =>
          if credential.expiresAt ≤ dbNow || !phaseAllowsCredentialAccess job.job.phase .ordinary
          then (.ok none, s)
          else (.ok (some ⟨none, credential.creator, resource⟩), s)
        | .final => s.claimFinalRead job credential path resource claimDuration dbNow token

def releaseDeletionRead (key : LookupKey) (path : String) (token : Uuid) : CredentialStore :=
  match s.drainCredential? key with
  | none => s
  | some credential => match s.activeDrainJob? credential.deletionJobId with
    | none => s
    | some _ =>
      s.updateReads
        (fun r => r.credentialId == credential.credentialId && r.guardedPath == path &&
          r.claimToken == some token && r.consumedAt.isNone)
        fun r => { r with claimToken := none, claimExpiresAt := none }

end CredentialStore

/-! ## Reads -/

/-- `GuardedResourceRecord`, without the key it is stored under. -/
structure GuardedResourceRecord where
  hash : GuardedResourceHash
  contentType : String
  size : ℕ
  bytes : List UInt8
deriving DecidableEq

structure DeletionReadClaim where
  lookupKey : LookupKey
  path : String
  claimToken : Uuid
deriving DecidableEq

structure ProxiedGuardedResource where
  path : String
  contentType : String
  hash : GuardedResourceHash
  bytes : List UInt8
  deletionClaim : Option DeletionReadClaim
deriving DecidableEq

/-- What a read depends on besides the credential store: the repositories, the
    clocks of the service and of the database, the token for a claim, and what
    other transactions commit while the entitlement is loaded. -/
structure ReadContext where
  externals : Externals
  entitlements : EntitlementRepository
  contentLocks : ContentLockRepository
  getCurrentGuardedResource :
    CreatorPubky → String → Except ApplicationError (Option GuardedResourceRecord)
  now : Timestamp
  dbNow : Timestamp
  claimToken : Uuid
  interleaved : CredentialStore → CredentialStore

namespace ReadContext

variable (ctx : ReadContext)

/-- The stored resource, if it is the one the lock describes. -/
def currentResource (creator : CreatorPubky) (resource : GuardedResource) :
    Except ApplicationError GuardedResourceRecord := do
  let stored ← ctx.getCurrentGuardedResource creator resource.path
  let record ← okOr stored .guardedResourceUnavailable
  refuse (record.hash ≠ resource.hash ∨ record.contentType ≠ resource.contentType ∨
    record.size ≠ resource.size) .guardedResourceUnavailable
  pure record

def prepareDeletionResponse (s : CredentialStore) (key : LookupKey) (path : String) :
    Except ApplicationError (Option ProxiedGuardedResource) × CredentialStore :=
  match s.prepareDeletionRead key path (Duration.seconds 30) ctx.dbNow ctx.claimToken with
  | (.error e, s) => (.error e, s)
  | (.ok none, s) => (.ok none, s)
  | (.ok (some authorization), s) =>
    match ctx.currentResource authorization.creator authorization.resource with
    | .ok record =>
      (.ok (some ⟨authorization.resource.path, record.contentType, authorization.resource.hash,
        record.bytes, authorization.claimToken.map fun token => ⟨key, path, token⟩⟩), s)
    | .error e => match authorization.claimToken with
      | none => (.error e, s)
      | some token => (.error e, s.releaseDeletionRead key path token)

def ordinaryValidation (record : AccessCredentialRecord) :
    Except ApplicationError ValidEntitlement :=
  if record.expiresAt ≤ ctx.now then .error .expiredAccessCredential
  else loadValidEntitlement ctx.externals ctx.entitlements ctx.contentLocks record.creator
    record.bundleId

def serve (record : AccessCredentialRecord) (path : String) :
    Except ApplicationError ProxiedGuardedResource := do
  let entitlement ← ctx.ordinaryValidation record
  let resource ← okOr (entitlement.resourceForPath path) .guardedResourceUnavailable
  let stored ← ctx.currentResource record.creator resource
  pure ⟨resource.path, stored.contentType, resource.hash, stored.bytes, none⟩

/-- The error of a credential that is gone after its validation. -/
def missingError (validation : Except ApplicationError ValidEntitlement) : ApplicationError :=
  match validation with
  | .error e => e
  | .ok _ => .invalidAccessCredential

/-- The branches of `execute` on the classification of the credential. -/
def respond (s : CredentialStore) (key : LookupKey) (path : String)
    (record : AccessCredentialRecord) :
    OrdinaryCredentialLookupResult → Except ApplicationError ProxiedGuardedResource × CredentialStore
  | .ordinaryCurrent => (ctx.serve record path, s)
  | .deletionEnrolled => match ctx.prepareDeletionResponse s key path with
    | (.error e, s) => (.error e, s)
    | (.ok response, s) => (okOr response .guardedResourceUnavailable, s)
  | .missing => (.error (missingError (ctx.ordinaryValidation record)), s)

/-- `ProxyReadGuardedResourceUseCase::execute`, from the lookup key of the
    presented credential. -/
def execute (s : CredentialStore) (key : LookupKey) (path : String) :
    Except ApplicationError ProxiedGuardedResource × CredentialStore :=
  match ctx.prepareDeletionResponse s key path with
  | (.error e, s) => (.error e, s)
  | (.ok (some response), s) => (.ok response, s)
  | (.ok none, s) =>
    if s.deletionCredentialEnrolled key then (.error .guardedResourceUnavailable, s)
    else match s.getAccessCredential key with
      | none => (.error .invalidAccessCredential, s)
      | some record =>
        let finished := (ctx.interleaved s).finishOrdinaryCredentialLookup key record
          !(ctx.ordinaryValidation record).isOk
        ctx.respond finished.2 key path record finished.1

end ReadContext

/-! ## Unavailable repositories -/

/-- The errors that say nothing about the stored data: the storage failed or the
    authority of the creator is unavailable. -/
def ApplicationError.isUnavailability : ApplicationError → Bool
  | storage _ | creatorAuthorityUnavailable => true
  | _ => false

/-- The version-2 entitlement names its key and a graph, so that its lock is
    loaded. -/
def VerifiedProofBundleV2.Named (bundle : VerifiedProofBundleV2) (creator : CreatorPubky)
    (bundleId : BundleId) : Prop :=
  bundle.validate = .ok () ∧ bundle.creator = creator ∧ bundle.bundleId = bundleId ∧
    bundle.pubkyLockResource.creator = creator ∧ bundle.satisfiedBy = [.graph]

def RepositoryFails (entitlements : EntitlementRepository) (locks : ContentLockRepository)
    (creator : CreatorPubky) (bundleId : BundleId) (e : ApplicationError) : Prop :=
  match entitlements.getVerifiedProofBundlePayload creator bundleId with
  | .error e' => e' = e
  | .ok (some (.v1 bundle)) =>
    locks.getContentLock bundle.pubkyLockResource.creator
      bundle.pubkyLockResource.contentLockPath = .error e
  | .ok (some (.v2 bundle)) =>
    bundle.Named creator bundleId ∧
      locks.getContentLockPayload bundle.pubkyLockResource.creator
        bundle.pubkyLockResource.contentLockPath = .error e
  | .ok none => False

variable {E : Externals} {entitlements : EntitlementRepository} {locks : ContentLockRepository}
  {creator : CreatorPubky} {bundleId : BundleId} {e : ApplicationError}

/-- **A repository that fails** makes the validation fail with its error. -/
theorem loadValidEntitlement_unavailable
    (h : RepositoryFails entitlements locks creator bundleId e) :
    loadValidEntitlement E entitlements locks creator bundleId = .error e := by
  unfold RepositoryFails at h
  unfold loadValidEntitlement
  cases hget : entitlements.getVerifiedProofBundlePayload creator bundleId with
  | error e' =>
    rw [hget] at h
    exact congrArg Except.error h
  | ok stored =>
    rw [hget] at h
    cases stored with
    | none => exact h.elim
    | some entitlement =>
      cases entitlement with
      | v1 bundle =>
        show loadValidV1Entitlement E locks bundle = _
        unfold loadValidV1Entitlement
        dsimp only at h ⊢
        rw [h]
        rfl
      | v2 bundle =>
        obtain ⟨⟨hv, hc, hb, hr, hs⟩, hl⟩ := h
        show loadValidV2Entitlement E locks creator bundleId bundle = _
        unfold loadValidV2Entitlement
        dsimp only
        rw [hv, hl]
        have hok : refuse (bundle.creator ≠ creator ∨ bundle.bundleId ≠ bundleId ∨
            bundle.pubkyLockResource.creator ≠ creator ∨ bundle.satisfiedBy ≠ [.graph])
            ApplicationError.entitlementNotSatisfied = .ok () := by
          rw [Checks.refuse_eq_ok]
          simp [hc, hb, hr, hs]
        rw [hok]
        rfl

/-! ## Reads with an ordinary credential -/

namespace CredentialStore

variable {s : CredentialStore} {key : LookupKey} {record : AccessCredentialRecord}

/-- The key belongs to this credential, and no deletion job has it. -/
def Current (s : CredentialStore) (key : LookupKey) (record : AccessCredentialRecord) : Prop :=
  ∃ row, s.credential? key = some row ∧ row.record = record ∧ row.deletionJobId = none

/-- A stored ordinary credential, which no deletion has enrolled. -/
structure Ordinary (s : CredentialStore) (key : LookupKey) (record : AccessCredentialRecord) :
    Prop where
  current : s.Current key record
  apart : s.deletionCredentialEnrolled key = false

theorem Current.getAccessCredential (h : s.Current key record) :
    s.getAccessCredential key = some record := by
  obtain ⟨row, hrow, rfl, -⟩ := h
  rw [CredentialStore.getAccessCredential, hrow]
  rfl

theorem credential?_deleteCredential (s : CredentialStore) (key : LookupKey) :
    (s.deleteCredential key).credential? key = none := by
  rw [credential?, deleteCredential, List.find?_eq_none]
  intro row hrow
  obtain ⟨-, hne⟩ := List.mem_filter.1 hrow
  simpa using hne

theorem deleteCredential_ne (h : s.Current key record) : s.deleteCredential key ≠ s := by
  intro heq
  obtain ⟨row, hrow, -⟩ := h
  have hnone := s.credential?_deleteCredential key
  rw [heq, hrow] at hnone
  cases hnone

theorem finish_of_current (h : s.Current key record) (invalidate : Bool) :
    s.finishOrdinaryCredentialLookup key record invalidate =
      if invalidate then (.missing, s.deleteCredential key) else (.ordinaryCurrent, s) := by
  obtain ⟨row, hrow, rfl, hjob⟩ := h
  simp [finishOrdinaryCredentialLookup, hrow, hjob]

theorem finish_of_not_current (h : ¬ s.Current key record) {invalidate : Bool} :
    (s.finishOrdinaryCredentialLookup key record invalidate).2 = s := by
  unfold finishOrdinaryCredentialLookup
  cases hrow : s.credential? key with
  | none => rfl
  | some row =>
    dsimp only
    split
    · rfl
    · split
      · rfl
      · rename_i hrecord hjob
        rw [not_ne_iff] at hrecord
        rw [Option.not_isSome_iff_eq_none] at hjob
        exact absurd ⟨row, hrow, hrecord, hjob⟩ h

/-- The credential is not enrolled, or it is enrolled as an ordinary one.  Jobs enrol
    stored credentials so; final credentials have keys of their own. -/
def EnrolledOrdinary (s : CredentialStore) (key : LookupKey) : Prop :=
  ∀ d, s.drainCredential? key = some d → d.kind = .ordinary

/-- An active job lets the enrolled credential read the path of its frozen lock. -/
def Lists (s : CredentialStore) (d : DrainCredential) (path : String) (dbNow : Timestamp)
    (resource : GuardedResource) : Prop :=
  ∃ job, s.activeDrainJob? d.deletionJobId = some job ∧
    job.job.frozenContentLock.resourceForPath path = some resource ∧ dbNow < d.expiresAt ∧
    phaseAllowsCredentialAccess job.job.phase .ordinary

theorem prepareDeletionRead_ordinary (h : s.EnrolledOrdinary key) (path : String)
    (duration : Duration) (now : Timestamp) (token : Uuid) :
    ∃ found, s.prepareDeletionRead key path duration now token = (.ok found, s) ∧
      ∀ a, found = some a ↔ ∃ d resource, s.drainCredential? key = some d ∧
        s.Lists d path now resource ∧ a = ⟨none, d.creator, resource⟩ := by
  unfold prepareDeletionRead
  cases hd : s.drainCredential? key with
  | none => exact ⟨none, rfl, by simp⟩
  | some d =>
    dsimp only
    cases hjob : s.activeDrainJob? d.deletionJobId with
    | none => exact ⟨none, rfl, by simp [Lists, hjob]⟩
    | some job =>
      dsimp only
      cases hr : job.job.frozenContentLock.resourceForPath path with
      | none => exact ⟨none, rfl, by simp [Lists, hjob, hr]⟩
      | some resource =>
        simp only [h d hd]
        split
        · rename_i hlate
          refine ⟨none, rfl, ?_⟩
          simp only [Bool.or_eq_true, decide_eq_true_eq, Bool.not_eq_true'] at hlate
          rcases hlate with hlate | hphase
          · simp [Lists, hjob, not_lt.2 hlate]
          · simp [Lists, hjob, hphase]
        · rename_i hlive
          simp only [Bool.or_eq_true, decide_eq_true_eq, Bool.not_eq_true', not_or, not_le,
            Bool.not_eq_false] at hlive
          refine ⟨_, rfl, fun a => ⟨?_, ?_⟩⟩
          · rintro ⟨⟩
            exact ⟨d, resource, rfl, ⟨job, hjob, hr, hlive⟩, rfl⟩
          · rintro ⟨_, resource', ⟨⟩, ⟨job', hjob', hr', -⟩, rfl⟩
            cases hjob.symm.trans hjob'
            cases hr.symm.trans hr'
            rfl

theorem deletionCredentialEnrolled_eq :
    s.deletionCredentialEnrolled key = (s.drainCredential? key).isSome := by
  rw [deletionCredentialEnrolled, drainCredential?, List.isSome_find?]

end CredentialStore

namespace ReadContext

variable {ctx : ReadContext} {s : CredentialStore} {key : LookupKey} {path : String}
  {record : AccessCredentialRecord}

/-- What a read needs, if no other transaction commits meanwhile: for an enrolled
    credential that its job lets it read the path, for another one a row of its own
    and an entitlement that lists the path. -/
def Grants (ctx : ReadContext) (s : CredentialStore) (key : LookupKey) (path : String) : Prop :=
  match s.drainCredential? key with
  | some d => ∃ resource, s.Lists d path ctx.dbNow resource ∧
      (ctx.currentResource d.creator resource).isOk
  | none => ∃ row entitlement resource, s.credential? key = some row ∧ row.deletionJobId = none ∧
      ctx.now < row.record.expiresAt ∧
      loadValidEntitlement ctx.externals ctx.entitlements ctx.contentLocks row.record.creator
        row.record.bundleId = .ok entitlement ∧
      entitlement.resourceForPath path = some resource ∧
      (ctx.currentResource row.record.creator resource).isOk

theorem prepareDeletionResponse_ordinary (ctx : ReadContext) (h : s.EnrolledOrdinary key)
    (path : String) :
    ∃ result, ctx.prepareDeletionResponse s key path = (result, s) ∧
      ((∃ r, result = .ok (some r)) ↔ ∃ d resource, s.drainCredential? key = some d ∧
        s.Lists d path ctx.dbNow resource ∧ (ctx.currentResource d.creator resource).isOk) := by
  obtain ⟨found, hread, hfound⟩ := CredentialStore.prepareDeletionRead_ordinary h path
    (Duration.seconds 30) ctx.dbNow ctx.claimToken
  unfold prepareDeletionResponse
  rw [hread]
  cases found with
  | none =>
    refine ⟨_, rfl, iff_of_false (by rintro ⟨r, ⟨⟩⟩) ?_⟩
    rintro ⟨d, resource, hd, hlists, -⟩
    cases (hfound _).2 ⟨d, resource, hd, hlists, rfl⟩
  | some a =>
    obtain ⟨d, resource, hd, hlists, rfl⟩ := (hfound a).1 rfl
    -- the frozen lock lists one resource for the path
    have hone : ∀ r', s.Lists d path ctx.dbNow r' → r' = resource := by
      intro r' hr'
      have := (hfound _).2 ⟨d, r', hd, hr', rfl⟩
      simpa using this.symm
    dsimp only
    cases hcurrent : ctx.currentResource d.creator resource with
    | error e =>
      refine ⟨_, rfl, iff_of_false (by rintro ⟨r, ⟨⟩⟩) ?_⟩
      rintro ⟨d', r', hd', hlists', hok⟩
      cases hd.symm.trans hd'
      rw [hone r' hlists', hcurrent] at hok
      cases hok
    | ok stored =>
      exact ⟨_, rfl, iff_of_true ⟨_, rfl⟩ ⟨d, resource, hd, hlists, by rw [hcurrent]; rfl⟩⟩

theorem respond_store (h : s.EnrolledOrdinary key) (c : OrdinaryCredentialLookupResult) :
    (ctx.respond s key path record c).2 = s := by
  cases c with
  | ordinaryCurrent => rfl
  | missing => rfl
  | deletionEnrolled =>
    obtain ⟨result, heq, -⟩ := ctx.prepareDeletionResponse_ordinary h path
    rw [respond, heq]
    cases result <;> rfl

theorem serve_isOk : (ctx.serve record path).isOk ↔ ∃ entitlement resource,
    ctx.now < record.expiresAt ∧
    loadValidEntitlement ctx.externals ctx.entitlements ctx.contentLocks record.creator
      record.bundleId = .ok entitlement ∧
    entitlement.resourceForPath path = some resource ∧
    (ctx.currentResource record.creator resource).isOk := by
  simp only [serve, Checks.isOk_iff, Checks.bind_eq_ok, Checks.okOr_eq_ok, ordinaryValidation]
  constructor
  · rintro ⟨r, entitlement, hvalid, resource, hpath, stored, hstored, -⟩
    split at hvalid
    · cases hvalid
    · rename_i hlive
      exact ⟨entitlement, resource, not_le.1 hlive, hvalid, hpath, stored, hstored⟩
  · rintro ⟨entitlement, resource, hlive, hvalid, hpath, stored, hstored⟩
    exact ⟨_, entitlement, by rw [if_neg (not_le.2 hlive)]; exact hvalid, resource, hpath, stored,
      hstored, rfl⟩

theorem prepareDeletionResponse_of_apart (h : s.drainCredential? key = none) :
    ctx.prepareDeletionResponse s key path = (.ok none, s) := by
  rw [prepareDeletionResponse, CredentialStore.prepareDeletionRead, h]

/-- **A read with an ordinary credential** validates it and ends the lookup on
    the store that the other transactions left. -/
theorem execute_ordinary (h : s.Ordinary key record) : ctx.execute s key path =
      ctx.respond ((ctx.interleaved s).finishOrdinaryCredentialLookup key record
          !(ctx.ordinaryValidation record).isOk).2 key path record
        ((ctx.interleaved s).finishOrdinaryCredentialLookup key record
          !(ctx.ordinaryValidation record).isOk).1 := by
  have hnone : s.drainCredential? key = none := by
    simpa [CredentialStore.deletionCredentialEnrolled_eq] using h.apart
  rw [execute, prepareDeletionResponse_of_apart hnone]
  dsimp only
  rw [if_neg (by simp [h.apart]), h.current.getAccessCredential]

theorem execute_ordinary_isOk (halone : ctx.interleaved = id) (h : s.Ordinary key record) :
    (ctx.execute s key path).1.isOk = (ctx.serve record path).isOk := by
  rw [execute_ordinary h, halone, id, CredentialStore.finish_of_current h.current]
  cases hvalid : ctx.ordinaryValidation record with
  | error e => simp [Except.isOk, Except.toBool, respond, serve, hvalid, bind, Except.bind]
  | ok entitlement => simp [Except.isOk, Except.toBool, respond]

/-- **A read that runs alone** is served exactly if the store grants it. -/
theorem execute_isOk (halone : ctx.interleaved = id) (h : s.EnrolledOrdinary key) :
    (ctx.execute s key path).1.isOk ↔ ctx.Grants s key path := by
  obtain ⟨result, heq, hresult⟩ := ctx.prepareDeletionResponse_ordinary h path
  unfold Grants
  cases hd : s.drainCredential? key with
  | some d =>
    have hserved : (ctx.execute s key path).1.isOk ↔ ∃ r, result = .ok (some r) := by
      unfold execute
      rw [heq]
      cases result with
      | error e => simp [Except.isOk, Except.toBool]
      | ok response =>
        cases response with
        | none =>
          simp [CredentialStore.deletionCredentialEnrolled_eq, hd, Except.isOk, Except.toBool]
        | some r => simp [Except.isOk, Except.toBool]
    simp only [hserved, hresult, hd, Option.some.injEq]
    simp
  | none =>
    have hapart : s.deletionCredentialEnrolled key = false := by
      rw [CredentialStore.deletionCredentialEnrolled_eq, hd]
      rfl
    dsimp only
    cases hrow : s.credential? key with
    | none =>
      rw [execute, prepareDeletionResponse_of_apart hd]
      simp [hapart, CredentialStore.getAccessCredential, hrow, Except.isOk, Except.toBool]
    | some row =>
      by_cases hjob : row.deletionJobId = none
      · rw [execute_ordinary_isOk halone ⟨⟨row, hrow, rfl, hjob⟩, hapart⟩, serve_isOk]
        simp [hjob]
      · rw [execute, prepareDeletionResponse_of_apart hd]
        simp [hapart, CredentialStore.getAccessCredential, hrow, hjob, halone, respond,
          CredentialStore.finishOrdinaryCredentialLookup, Option.isSome_iff_ne_none,
          prepareDeletionResponse_of_apart hd, okOr, Except.isOk, Except.toBool]

/-- The read keeps the credential: it leaves the store as the other transactions did,
    and the same read is served later. -/
def Retains (ctx later : ReadContext) (s : CredentialStore) (key : LookupKey) (path : String) :
    Prop :=
  (ctx.execute s key path).2 = ctx.interleaved s ∧
    (later.execute (ctx.execute s key path).2 key path).1.isOk

/-- **Outages and credentials.**  A read with an unexpired ordinary credential that fails
    because a repository is unavailable retains the credential exactly if, when the
    lookup ends, another transaction has changed, deleted or enrolled it, and what is
    stored then grants the later read. -/
theorem retained_iff (ctx later : ReadContext) (s : CredentialStore) (key : LookupKey)
    (path : String) (record : AccessCredentialRecord) (e : ApplicationError)
    (hs : s.Ordinary key record) (hlive : ctx.now < record.expiresAt) (_he : e.isUnavailability)
    (hfail : RepositoryFails ctx.entitlements ctx.contentLocks record.creator record.bundleId e)
    (hordinary : (ctx.interleaved s).EnrolledOrdinary key) (hlater : later.interleaved = id) :
    ctx.Retains later s key path ↔
      ¬ (ctx.interleaved s).Current key record ∧ later.Grants (ctx.interleaved s) key path := by
  have hval : ctx.ordinaryValidation record = .error e := by
    rw [ordinaryValidation, if_neg (not_le.2 hlive)]
    exact loadValidEntitlement_unavailable hfail
  have hstore : (ctx.execute s key path).2 = ctx.interleaved s ↔
      ¬ (ctx.interleaved s).Current key record := by
    rw [execute_ordinary hs, hval]
    by_cases hcurrent : (ctx.interleaved s).Current key record
    · rw [CredentialStore.finish_of_current hcurrent]
      exact iff_of_false (CredentialStore.deleteCredential_ne hcurrent) (not_not.2 hcurrent)
    · rw [CredentialStore.finish_of_not_current hcurrent, respond_store hordinary]
      exact iff_of_true rfl hcurrent
  unfold Retains
  rw [hstore]
  refine and_congr_right fun hcurrent => ?_
  rw [hstore.2 hcurrent, execute_isOk hlater hordinary]

/-- A credential of a reader, valid for fifteen minutes. -/
def issuedRecord : AccessCredentialRecord := ⟨⟨"creator"⟩, ⟨"bundle"⟩, Duration.seconds 900⟩

/-- The store after its issue. -/
def issuedStore : CredentialStore := ⟨[⟨⟨1⟩, issuedRecord, none⟩], [], [], []⟩

def answering : ReadContext where
  externals := .constant (.replicate 7)
  entitlements :=
    ⟨fun creator bundleId => .ok (some (.v1 (staticEntitlement creator bundleId (.replicate 7))))⟩
  contentLocks := staticLocks
  getCurrentGuardedResource _ _ := .ok (some ⟨.replicate 1, "application/json", 5, [1, 2, 3, 4, 5]⟩)
  now := Duration.seconds 60
  dbNow := Duration.seconds 60
  claimToken := ⟨0⟩
  interleaved := id

/-- The creator has revoked the session that the entitlement is read with. -/
def outage : ReadContext :=
  { answering with entitlements := ⟨fun _ _ => .error .creatorAuthorityUnavailable⟩ }

/-- One read during the outage deletes the credential: it is refused afterwards,
    although the same read without the outage is served. -/
theorem revoked_by_outage : let path := "/priv/app.locks/content/post.json"
    issuedStore.Ordinary ⟨1⟩ issuedRecord ∧
      RepositoryFails outage.entitlements outage.contentLocks issuedRecord.creator
        issuedRecord.bundleId .creatorAuthorityUnavailable ∧
      (answering.execute issuedStore ⟨1⟩ path).1.isOk ∧
      (outage.execute issuedStore ⟨1⟩ path).2.credentials = [] ∧
      (answering.execute (outage.execute issuedStore ⟨1⟩ path).2 ⟨1⟩ path).1 =
        .error .invalidAccessCredential :=
  ⟨⟨⟨⟨⟨1⟩, issuedRecord, none⟩, rfl, rfl, rfl⟩, rfl⟩, rfl, rfl, rfl, rfl⟩

/-- A deletion job enrols the credential during the outage. -/
def enrolling : ReadContext :=
  { outage with interleaved := fun s =>
      { credentials := s.credentials.map fun r => { r with deletionJobId := some ⟨9⟩ }
        drainCredentials := [⟨⟨3⟩, ⟨9⟩, ⟨1⟩, ⟨"creator"⟩, .ordinary, Duration.seconds 900⟩]
        drainReads := []
        jobs := [⟨⟨⟨9⟩, ⟨"creator"⟩, LockId.fromHash (.replicate 7), staticLock ⟨"creator"⟩, 0,
          .queued, .withdraw, 0, none, none, none, none, none, none⟩, none⟩] } }

/-- The credential is then read with again, from the frozen lock. -/
theorem retained_when_enrolled : let path := "/priv/app.locks/content/post.json"
    enrolling.Retains answering issuedStore ⟨1⟩ path ∧
      (answering.execute (enrolling.execute issuedStore ⟨1⟩ path).2 ⟨1⟩ path).1.isOk := by
  intro path
  have hord : issuedStore.Ordinary ⟨1⟩ issuedRecord :=
    ⟨⟨⟨⟨1⟩, issuedRecord, none⟩, rfl, rfl, rfl⟩, rfl⟩
  have hretained := (retained_iff enrolling answering issuedStore ⟨1⟩ path issuedRecord
    .creatorAuthorityUnavailable hord (by decide) rfl rfl (by rintro d ⟨⟩; rfl) rfl).2
    ⟨by rintro ⟨row, ⟨⟩, -, ⟨⟩⟩, _, ⟨_, rfl, rfl, by decide, rfl⟩, rfl⟩
  exact ⟨hretained, hretained.2⟩

end ReadContext

end PubkyLocks
