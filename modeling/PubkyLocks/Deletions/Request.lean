/-
  The DELETE request of a creator for a content lock, up to the transaction it
  reaches (`locks-server/src/api/creator_publishing.rs`): without force
  `insert_job`, with force `prepare_force_deletion_with_manifest`.

  Verification loads a stored lock with the decoder of both versions
  (`get_content_lock_payload`); both deletions load it with the decoder of
  version 1 (`get_content_lock`) and validate it before its manifest is used.
-/
import PubkyLocks.Api.Errors
import PubkyLocks.Access.EntitlementCheck
import PubkyLocks.Core.Wire
import PubkyLocks.Store.Database

namespace PubkyLocks

open Checks (refuse)

/-! ## The repository on the homeserver -/

abbrev HomeserverClient := CreatorPubky → String → Except ApplicationError (Option Json)

/-- A stored value through a decoder. -/
def HomeserverClient.read {α : Type} (client : HomeserverClient) (decode : Json → Option α)
    (creator : CreatorPubky) (path : ContentLockPath) : Except ApplicationError (Option α) := do
  match ← client creator path.display with
  | none => pure none
  | some value => match decode value with
    | some lock => pure (some lock)
    | none => throw (.storage "failed to deserialize content lock from Pubky storage")

def pubkyContentLocks (C : Codec) (E : Externals) (client : HomeserverClient) :
    ContentLockRepository where
  getContentLock := client.read (decodeContentLock C)
  getContentLockPayload := client.read (decodeContentLockPayload C E)

theorem HomeserverClient.read_eq_some {α : Type} {client : HomeserverClient}
    {decode : Json → Option α} {creator : CreatorPubky} {path : ContentLockPath} {a : α} :
    client.read decode creator path = .ok (some a) ↔
      ∃ value, client creator path.display = .ok (some value) ∧ decode value = some a := by
  rw [HomeserverClient.read, Checks.bind_eq_ok]
  constructor
  · rintro ⟨stored, hstored, h⟩
    cases stored with
    | none => cases h
    | some value =>
      refine ⟨value, hstored, ?_⟩
      dsimp only at h
      split at h
      · rename_i lock hlock
        cases h
        exact hlock
      · cases h
  · rintro ⟨value, hvalue, h⟩
    refine ⟨some value, hvalue, ?_⟩
    dsimp only
    rw [h]
    rfl

/-! ## Validation of the loaded lock -/

structure ContentLocksConfig where
  maxResourceBytes : ℕ
  maxResources : ℕ
  maxTotalResourceBytes : ℕ

def ContentLocksConfig.default : ContentLocksConfig := ⟨10000000, 10, 100000000⟩

def saturatingAddU64 (a b : ℕ) : ℕ := min (a + b) (2 ^ 64 - 1)

def validateDescriptorSize (limits : ContentLocksConfig) (size : ℕ) : Except ApiError Unit :=
  refuse (size > limits.maxResourceBytes)
    ⟨.invalidRequest, "guarded resource size exceeds max_resource_bytes"⟩

/-- The sizes of the resources, in the order the limits are checked. -/
def ContentLock.sizes (lock : ContentLock) : List ℕ :=
  (lock.primaryResource.map (·.size)).toList ++ lock.secondaryResources.entries.map (·.2.size)

def validatePersistedContentLockLimits (lock : ContentLock) (limits : ContentLocksConfig) :
    Except ApiError Unit := do
  refuse (lock.resourceCount > limits.maxResources)
    ⟨.invalidRequest, "content lock must include at most " ++ toString limits.maxResources ++
      " resources"⟩
  Checks.checkAll (validateDescriptorSize limits) lock.sizes
  refuse (lock.sizes.foldl saturatingAddU64 0 > limits.maxTotalResourceBytes)
    ⟨.invalidRequest, "content lock total resource size exceeds " ++
      toString limits.maxTotalResourceBytes ++ " bytes"⟩

section
variable (E : Externals)

def validateContentLockIdentity (lock : ContentLock) (creator : CreatorPubky)
    (expectedLockId : LockId) : Except ApiError Unit := do
  let actual ← (lock.lockId E).mapError fun _ => ⟨.internalError, "content lock unavailable"⟩
  refuse (lock.creator ≠ creator ∨ actual ≠ expectedLockId)
    ⟨.internalError, "content lock unavailable"⟩

/-- The checks on the loaded lock, in both modes. -/
def validatePublishedLock (limits : ContentLocksConfig) (creator : CreatorPubky) (lockId : LockId)
    (lock : ContentLock) : Except ApiError Unit := do
  validateContentLockIdentity E lock creator lockId
  (lock.validateResourceSet E).mapError fun e => .ofApplication (.invalidGuardedResource e.message)
  validatePersistedContentLockLimits lock limits

/-! ## The request -/

structure DeleteContentLockQuery where
  force : Option Bool
  graceful : Option Bool

def DeleteContentLockQuery.mode (q : DeleteContentLockQuery) : Except ApiError Bool :=
  match q.force, q.graceful with
  | none, none | none, some true => .ok false
  | some true, none => .ok true
  | _, _ => .error ⟨.invalidRequest, "invalid request"⟩

/-- What a request does next with the deletions of the lock. -/
inductive DeleteAction where
  /-- Respond that the deletion is complete. -/
  | respondCompleted
  /-- Continue with the job that exists. -/
  | continueJob (job : DeletionJob)
  /-- `insert_job` for the loaded lock. -/
  | insertJob (lock : ContentLock)
  /-- `prepare_force_deletion_with_manifest`. -/
  | prepareForceDeletion (manifest : Option ContentLock)
deriving DecidableEq

/-- What a request reads: the database, the content locks, the limits. -/
structure DeleteContext where
  db : Database
  contentLocks : ContentLockRepository
  limits : ContentLocksConfig

variable (ctx : DeleteContext) (creator : CreatorPubky) (lockId : LockId)

def DeleteContext.receipt? : Option ForceReceipt :=
  ctx.db.receipts.find? fun r => r.creator == creator && r.lockId == lockId

def DeleteContext.publicationInProgress : Except ApplicationError Bool :=
  if ctx.db.deletionCutoff creator lockId then .error .contentLockDeletionInProgress
  else .ok (ctx.db.hasIntent creator lockId)

/-- The lock at its canonical path, through the decoder of version 1. -/
def DeleteContext.loadLock : Except ApiError (Option ContentLock) :=
  (ctx.contentLocks.getContentLock creator ⟨lockId⟩).mapError .ofApplication

/-- `force_delete_content_lock` up to `prepare_force_deletion_with_manifest`. -/
def forceDeleteContentLock : Except ApiError DeleteAction :=
  match ctx.receipt? creator lockId with
  | some receipt =>
    if receipt.completedAt.isSome then .ok .respondCompleted else .ok (.prepareForceDeletion none)
  | none => match ctx.db.jobFor? creator lockId with
    | some _ => .ok (.prepareForceDeletion none)
    | none => do
      let published ← ctx.loadLock creator lockId
      Checks.onSome published (validatePublishedLock E ctx.limits creator lockId)
      pure (.prepareForceDeletion published)

/-- The rest of a request without force once no lock is found. -/
def deleteMissingLock : Except ApiError DeleteAction := do
  let inProgress ← (ctx.publicationInProgress creator lockId).mapError .ofApplication
  refuse inProgress ⟨.contentLockPathConflict, "content lock publication is in progress"⟩
  pure .respondCompleted

/-- `delete_content_lock_for_authenticated_creator` without force, up to
    `insert_job`; the job is built from the lock by `ContentLockDeletionJob::new`. -/
def gracefulDeleteContentLock : Except ApiError DeleteAction :=
  match ctx.receipt? creator lockId with
  | some receipt =>
    if receipt.completedAt.isSome then .ok .respondCompleted
    else forceDeleteContentLock E ctx creator lockId
  | none => match ctx.db.jobFor? creator lockId with
    | some job => .ok (.continueJob job)
    | none => do
      match ← ctx.loadLock creator lockId with
      | none => deleteMissingLock ctx creator lockId
      | some lock =>
        validatePublishedLock E ctx.limits creator lockId lock
        let _ ← (lock.lockId E).mapError fun e => .ofApplication (.contentLockCanonicalization e)
        pure (.insertJob lock)

def deleteContentLock (q : DeleteContentLockQuery) : Except ApiError DeleteAction := do
  if ← q.mode then forceDeleteContentLock E ctx creator lockId
  else gracefulDeleteContentLock E ctx creator lockId

end

/-! ## Published locks -/

/-- No deletion of the lock is recorded.  Publication intents and entitlement
    publications are left to `insert_job`, which reads them. -/
structure Undeleted (db : Database) (creator : CreatorPubky) (lockId : LockId) : Prop where
  receipt : db.hasReceipt creator lockId = false
  job : db.jobFor? creator lockId = none

variable {C : Codec} {E : Externals} {client : HomeserverClient} {ctx : DeleteContext}
  {creator : CreatorPubky} {lockId : LockId} {lock : ContentLock}

theorem receipt?_eq_none (h : ctx.db.hasReceipt creator lockId = false) :
    ctx.receipt? creator lockId = none := by
  rw [Database.hasReceipt, List.any_eq_false] at h
  exact List.find?_eq_none.2 h

theorem forceDelete_of_undeleted (h : Undeleted ctx.db creator lockId) :
    forceDeleteContentLock E ctx creator lockId = (do
      let published ← ctx.loadLock creator lockId
      Checks.onSome published (validatePublishedLock E ctx.limits creator lockId)
      pure (.prepareForceDeletion published)) := by
  rw [forceDeleteContentLock, receipt?_eq_none h.receipt]
  dsimp only
  rw [h.job]

theorem gracefulDelete_of_undeleted (h : Undeleted ctx.db creator lockId) :
    gracefulDeleteContentLock E ctx creator lockId = (do
      match ← ctx.loadLock creator lockId with
      | none => deleteMissingLock ctx creator lockId
      | some lock =>
        validatePublishedLock E ctx.limits creator lockId lock
        let _ ← (lock.lockId E).mapError fun e => .ofApplication (.contentLockCanonicalization e)
        pure (.insertJob lock)) := by
  rw [gracefulDeleteContentLock, receipt?_eq_none h.receipt]
  dsimp only
  rw [h.job]

theorem loadLock_of_v1 (hctx : ctx.contentLocks = pubkyContentLocks C E client)
    (h : ctx.contentLocks.getContentLockPayload creator ⟨lockId⟩ = .ok (some (.v1 lock))) :
    ctx.loadLock creator lockId = .ok (some lock) := by
  rw [hctx] at h
  obtain ⟨value, hvalue, hdecode⟩ := HomeserverClient.read_eq_some.1 h
  rw [DeleteContext.loadLock, Checks.mapError_eq_ok, hctx]
  exact HomeserverClient.read_eq_some.2
    ⟨value, hvalue, (decodeContentLockPayload_v1_iff.1 hdecode).1⟩

theorem validatePublishedLock_eq (hc : lock.creator = creator) (hid : lock.lockId E = .ok lockId)
    (hlimits : validatePersistedContentLockLimits lock ctx.limits = .ok ()) :
    validatePublishedLock E ctx.limits creator lockId lock =
      (lock.validateResourceSet E).mapError fun e =>
        .ofApplication (.invalidGuardedResource e.message) := by
  have hident : validateContentLockIdentity E lock creator lockId = .ok () := by
    simp only [validateContentLockIdentity, Checks.bind_eq_ok, Checks.mapError_eq_ok,
      Checks.refuse_eq_ok]
    exact ⟨lockId, hid, by simp [hc]⟩
  rw [validatePublishedLock, hident, hlimits]
  cases lock.validateResourceSet E <;> rfl

/-- **Published version-1 locks are deletable** exactly if their resource set is
    valid: then the request without force reaches `insert_job` and the request
    with force reaches `prepare_force_deletion_with_manifest`, with the lock;
    otherwise both are refused as an invalid guarded resource. -/
theorem deletable_iff (C : Codec) (E : Externals) (client : HomeserverClient) (ctx : DeleteContext)
    (lock : ContentLock) (lockId : LockId)
    (hctx : ctx.contentLocks = pubkyContentLocks C E client)
    (hserved : ctx.contentLocks.getContentLockPayload lock.creator ⟨lockId⟩ = .ok (some (.v1 lock)))
    (hid : lock.lockId E = .ok lockId)
    (hlimits : validatePersistedContentLockLimits lock ctx.limits = .ok ())
    (hdb : Undeleted ctx.db lock.creator lockId) :
    (deleteContentLock E ctx lock.creator lockId ⟨none, none⟩ = .ok (.insertJob lock) ∧
      deleteContentLock E ctx lock.creator lockId ⟨some true, none⟩ =
        .ok (.prepareForceDeletion (some lock)) ↔ lock.validateResourceSet E = .ok ()) ∧
    (lock.validateResourceSet E ≠ .ok () →
      deleteContentLock E ctx lock.creator lockId ⟨none, none⟩ =
          .error ⟨.invalidRequest, "invalid guarded resource"⟩ ∧
        deleteContentLock E ctx lock.creator lockId ⟨some true, none⟩ =
          .error ⟨.invalidRequest, "invalid guarded resource"⟩) := by
  have hgraceful : deleteContentLock E ctx lock.creator lockId ⟨none, none⟩ =
      gracefulDeleteContentLock E ctx lock.creator lockId := rfl
  have hforce : deleteContentLock E ctx lock.creator lockId ⟨some true, none⟩ =
      forceDeleteContentLock E ctx lock.creator lockId := rfl
  have hcheck := validatePublishedLock_eq rfl hid hlimits
  rw [hgraceful, hforce, gracefulDelete_of_undeleted hdb, forceDelete_of_undeleted hdb,
    loadLock_of_v1 hctx hserved]
  cases hset : lock.validateResourceSet E with
  | ok u =>
    rw [hset] at hcheck
    constructor
    · refine ⟨fun _ => rfl, fun _ => ⟨?_, ?_⟩⟩
      · show (validatePublishedLock E ctx.limits lock.creator lockId lock >>= fun _ =>
          ((lock.lockId E).mapError fun e => ApiError.ofApplication
            (.contentLockCanonicalization e)) >>= fun _ => pure (DeleteAction.insertJob lock)) = _
        rw [hcheck, hid]
        rfl
      · show (validatePublishedLock E ctx.limits lock.creator lockId lock >>= fun _ =>
          pure (DeleteAction.prepareForceDeletion (some lock))) = _
        rw [hcheck]
        rfl
    · intro hne
      exact absurd rfl hne
  | error e =>
    rw [hset] at hcheck
    have hg : (validatePublishedLock E ctx.limits lock.creator lockId lock >>= fun _ =>
        ((lock.lockId E).mapError fun e => ApiError.ofApplication
          (.contentLockCanonicalization e)) >>= fun _ => pure (DeleteAction.insertJob lock)) =
        .error ⟨.invalidRequest, "invalid guarded resource"⟩ := by
      rw [hcheck]
      rfl
    have hf : (validatePublishedLock E ctx.limits lock.creator lockId lock >>= fun _ =>
        pure (DeleteAction.prepareForceDeletion (some lock))) =
        .error ⟨.invalidRequest, "invalid guarded resource"⟩ := by
      rw [hcheck]
      rfl
    constructor
    · constructor
      · rintro ⟨h, -⟩
        exact absurd (hg.symm.trans h) (by simp)
      · intro h
        cases h
    · exact fun _ => ⟨hg, hf⟩

/-- **Published version-2 locks are not deletable**: both requests fail in the decoder
    of version 1. -/
theorem v2_refused {lock : ContentLockV2} (hctx : ctx.contentLocks = pubkyContentLocks C E client)
    (hserved : ctx.contentLocks.getContentLockPayload creator ⟨lockId⟩ = .ok (some (.v2 lock)))
    (hdb : Undeleted ctx.db creator lockId) {q : DeleteContentLockQuery}
    (hq : q = ⟨none, none⟩ ∨ q = ⟨some true, none⟩) :
    deleteContentLock E ctx creator lockId q =
      .error (.ofApplication
        (.storage "failed to deserialize content lock from Pubky storage")) := by
  have hload : ctx.loadLock creator lockId =
      .error (.ofApplication
        (.storage "failed to deserialize content lock from Pubky storage")) := by
    rw [hctx] at hserved
    obtain ⟨value, hvalue, hdecode⟩ := HomeserverClient.read_eq_some.1 hserved
    rw [DeleteContext.loadLock, hctx]
    simp only [pubkyContentLocks, HomeserverClient.read, hvalue, bind, Except.bind,
      decodeContentLock_of_v2 hdecode]
    rfl
  rcases hq with rfl | rfl
  · show gracefulDeleteContentLock E ctx creator lockId = _
    rw [gracefulDelete_of_undeleted hdb, hload]
    rfl
  · show forceDeleteContentLock E ctx creator lockId = _
    rw [forceDelete_of_undeleted hdb, hload]
    rfl

def storedLock (resources : List (String × Json)) : Json :=
  .obj ([("access_policy", .obj [("requested_credential_ttl_seconds", .int 900)]),
    ("created_at", .str "2026-08-10T00:00:00Z"),
    ("creator", .str "creator"),
    ("criteria", .arr []),
    ("lock_logic", .obj [("criteria", .arr []), ("type", .str "all")]),
    ("lock_server", .obj [])] ++ resources ++ [("version", .int 1)])

def storedPrimary : List (String × Json) :=
  [("primary_resource", .obj [
    ("content_type", .str "application/json"),
    ("hash", .str "01"),
    ("path", .str "/priv/app.locks/content/post.json"),
    ("size", .int 5)])]

/-- A homeserver that stores one value, under the default limits and in an empty
    database. -/
def storedContext (E : Externals) (value : Json) : DeleteContext where
  db := .empty
  contentLocks := pubkyContentLocks .lenient E fun _ _ => .ok (some value)
  limits := .default

/-- The lock of the stored value. -/
def loadedLock (primaryResource : Option GuardedResource) : ContentLock where
  version := CONTENT_LOCK_VERSION
  creator := ⟨"creator"⟩
  primaryResource := primaryResource
  secondaryResources := .empty
  criteria := []
  lockLogic := .all []
  accessPolicy := ⟨900⟩
  lockServer := ⟨none⟩
  createdAt := 0

/-- A published lock without resources is within the limits, and neither request
    of its creator deletes it. -/
theorem empty_lock_refused : let E := Externals.constant (.replicate 7)
    let ctx := storedContext E (storedLock [])
    let lockId := LockId.fromHash (.replicate 7)
    ctx.contentLocks.getContentLockPayload ⟨"creator"⟩ ⟨lockId⟩ =
        .ok (some (.v1 (loadedLock none))) ∧
      (loadedLock none).lockId E = .ok lockId ∧
      validatePersistedContentLockLimits (loadedLock none) ctx.limits = .ok () ∧
      ctx.db = .empty ∧
      deleteContentLock E ctx ⟨"creator"⟩ lockId ⟨none, none⟩ =
        .error ⟨.invalidRequest, "invalid guarded resource"⟩ ∧
      deleteContentLock E ctx ⟨"creator"⟩ lockId ⟨some true, none⟩ =
        .error ⟨.invalidRequest, "invalid guarded resource"⟩ :=
  ⟨rfl, rfl, rfl, rfl, rfl, rfl⟩

/-- A published lock with a valid primary resource is deletable. -/
theorem stored_lock_deletable : let E := Externals.constant (.replicate 7)
    let ctx := storedContext E (storedLock storedPrimary)
    let lockId := LockId.fromHash (.replicate 7)
    let lock := loadedLock
      (some ⟨"/priv/app.locks/content/post.json", .replicate 1, "application/json", 5⟩)
    deleteContentLock E ctx ⟨"creator"⟩ lockId ⟨none, none⟩ = .ok (.insertJob lock) ∧
      deleteContentLock E ctx ⟨"creator"⟩ lockId ⟨some true, none⟩ =
        .ok (.prepareForceDeletion (some lock)) := by
  intro E ctx lockId lock
  have hdb : Undeleted ctx.db lock.creator lockId := ⟨rfl, rfl⟩
  have h := deletable_iff .lenient E (fun _ _ => .ok (some (storedLock storedPrimary))) ctx lock
    lockId rfl rfl rfl rfl hdb
  exact h.1.2 rfl

end PubkyLocks
