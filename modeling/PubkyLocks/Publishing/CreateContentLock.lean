/-
  The creation of content locks
  (`locks-service/src/application/use_cases/create_content_lock.rs`).

  A call validates its request and then makes repository operations one by one;
  between two of them it is in a `CreatePhase`.  Calls run side by side, stop at
  any point, and any operation may fail: with its transaction rolled back, or
  committed with the answer lost.  A write to the homeserver that fails without
  proof that it was not started may still land later.
-/
import PubkyLocks.Core.Criteria
import PubkyLocks.Publishing.Repository

namespace PubkyLocks

open Checks (refuse)

/-! ## Requests -/

structure CreateContentLockRequest where
  creator : CreatorPubky
  primaryResource : Option GuardedResource
  secondaryResources : SecondaryResources
  criteria : List Criterion
  lockLogic : LockLogic
  accessPolicy : AccessPolicy
  lockServer : LockServerConfig
deriving DecidableEq

/-- `CreatedContentLock`; its path is the one of its lock id. -/
structure CreatedContentLock where
  lockId : LockId
  contentLock : ContentLock
deriving DecidableEq

def CreateContentLockRequest.contentLock (q : CreateContentLockRequest) (now : Timestamp) :
    ContentLock where
  version := CONTENT_LOCK_VERSION
  creator := q.creator
  primaryResource := q.primaryResource
  secondaryResources := q.secondaryResources
  criteria := q.criteria
  lockLogic := q.lockLogic
  accessPolicy := q.accessPolicy
  lockServer := q.lockServer
  createdAt := now

def resourceDescriptors (lock : ContentLock) : List GuardedResource :=
  lock.primaryResource.toList ++
    lock.secondaryResources.entries.map fun e => ⟨e.1, e.2.hash, e.2.contentType, e.2.size⟩

theorem path_resourceDescriptors (lock : ContentLock) :
    (resourceDescriptors lock).map (·.path) = publicationGuardedPaths lock := by
  unfold resourceDescriptors publicationGuardedPaths
  cases lock.primaryResource <;> simp [Function.comp_def]

abbrev GuardedResourceRepository :=
  CreatorPubky → String → Except ApplicationError (Option GuardedResource)

def checkCurrentResource (resources : GuardedResourceRepository) (creator : CreatorPubky)
    (described : GuardedResource) : Except ApplicationError Unit := do
  let current ← Checks.okOr (← resources creator described.path) .guardedResourceUnavailable
  refuse (current.hash ≠ described.hash ∨ current.contentType ≠ described.contentType ∨
      current.size ≠ described.size)
    (.invalidGuardedResource
      "guarded resource descriptor does not match current stored resource")

/-- The checks of `execute` before it looks at the ownership of the paths. -/
def CreateContentLockRequest.validated (C : Codec) (E : Externals)
    (resources : GuardedResourceRepository) (q : CreateContentLockRequest) (now : Timestamp) :
    Except ApplicationError ContentLock := do
  let lock := q.contentLock now
  (lock.validateResourceSet E).mapError fun e => .invalidGuardedResource e.message
  (validateCriterionParams C lock.criteria).mapError .invalidGuardedResource
  (lock.validatePaykitPaymentV1Policy C).mapError fun e => .invalidGuardedResource e.message
  Checks.checkAll (checkCurrentResource resources q.creator) (resourceDescriptors lock)
  pure lock

/-! ## Calls -/

def PUBLICATION_BOOKKEEPING_ATTEMPTS : ℕ := 3

/-- Where a call is: the operation it makes next and what it knows by then.
    `attempts` counts the failed attempts of an operation that is retried. -/
inductive CreatePhase where
  /-- `get_path_ownership` of the next path. -/
  | readingOwnership (seen : List (Option ContentLockOwnership))
  /-- `recover_publication` for the lock that owns the paths. -/
  | recovering (ownership : List (Option ContentLockOwnership)) (lockId : LockId)
  /-- `get_path_ownership` again, since there is no intent. -/
  | rereadingOwnership (ownership : List (Option ContentLockOwnership)) (lockId : LockId)
      (seen : List (Option ContentLockOwnership))
  /-- `get_content_lock`, to compare it with the written original. -/
  | readingWritten (status : ContentLockOwnershipStatus) (lockId : LockId) (original : ContentLock)
  /-- `get_content_lock`, to take over its creation time. -/
  | readingPublished (status : ContentLockOwnershipStatus) (lockId : LockId)
  /-- `recover_publication` for the published lock. -/
  | recoveringAgain (status : ContentLockOwnershipStatus) (lock : ContentLock) (lockId : LockId)
  /-- `reconcile_publication` of a recovered write. -/
  | reconcilingRecovered (status : ContentLockOwnershipStatus) (lock : ContentLock)
      (lockId : LockId)
  | reserving (lock : ContentLock) (lockId : LockId)
  | beginning (newlyReserved : Bool) (lock : ContentLock) (lockId : LockId)
  /-- `compensate_reserved_paths`, whose error is ignored. -/
  | compensatingPaths (lockId : LockId) (error : ApplicationError)
  /-- `upsert_content_lock_classified`. -/
  | writing (newlyReserved : Bool) (lock : ContentLock) (lockId : LockId) (token : Uuid)
  | abandoning (lockId : LockId) (token : Uuid) (error : ApplicationError) (attempts : ℕ)
  | compensating (lockId : LockId) (token : Uuid) (error : ApplicationError) (attempts : ℕ)
  | markingWritten (lock : ContentLock) (lockId : LockId) (token : Uuid) (attempts : ℕ)
  | reconciling (lock : ContentLock) (lockId : LockId)
  | markingPublished (lock : ContentLock) (lockId : LockId)
  | finished (result : Except ApplicationError CreatedContentLock)
  | stopped
deriving DecidableEq

def CreatePhase.ended : CreatePhase → Bool
  | finished _ | stopped => true
  | _ => false

structure CreateCall where
  requested : ContentLock
  phase : CreatePhase
deriving DecidableEq

def CreateCall.guardedPaths (c : CreateCall) : List String := publicationGuardedPaths c.requested

/-- What happens to a repository operation: it runs, it fails and is rolled
    back, or it commits and its answer is lost. -/
inductive OperationResult where
  | runs
  | fails (error : ApplicationError)
  | lost (error : ApplicationError)

def OperationResult.apply {α : Type} (r : OperationResult) (t : PublicationTables)
    (op : Except ApplicationError (α × PublicationTables)) :
    Except ApplicationError α × PublicationTables :=
  match r, op with
  | runs, .ok (a, t') => (.ok a, t')
  | runs, .error e => (.error e, t)
  | fails e, _ => (.error e, t)
  | lost e, .ok (_, t') => (.error e, t')
  | lost e, .error _ => (.error e, t)

def OperationResult.read {α : Type} (r : OperationResult) (value : Except ApplicationError α) :
    Except ApplicationError α :=
  match r with
  | runs => value
  | fails e | lost e => .error e

/-! ## The phases of `resolve_owned_content_lock` -/

namespace CreateCall

variable (E : Externals) (c : CreateCall)

/-- The conflict on the first path. -/
def conflict : CreatePhase :=
  .finished (.error (.contentLockPathConflict (c.guardedPaths.headD "")))

def free : CreatePhase :=
  match c.requested.lockId E with
  | .error m => .finished (.error (.contentLockCanonicalization m))
  | .ok lockId => .reserving c.requested lockId

def allStatus (status : ContentLockOwnershipStatus)
    (ownership : List (Option ContentLockOwnership)) : Bool :=
  ownership.all fun o => o.any (·.status == status)

/-- The status of paths that are all published or all reserved. -/
def uniformStatus (ownership : List (Option ContentLockOwnership)) :
    ContentLockOwnershipStatus :=
  if allStatus .published ownership then .published else .reserved

def afterOwnership (ownership : List (Option ContentLockOwnership)) : CreatePhase :=
  match ownership.findSome? fun o => o.map (·.lockId) with
  | none => c.free E
  | some lockId =>
    match (c.guardedPaths.zip ownership).find? fun r => !r.2.any (·.lockId == lockId) with
    | some (path, _) => .finished (.error (.contentLockPathConflict path))
    | none =>
      if !allStatus .published ownership && !allStatus .reserved ownership then c.conflict
      else .recovering ownership lockId

/-- The phase after a path is read, of one of the two loops over the paths. -/
def readPath (t : PublicationTables) (seen : List (Option ContentLockOwnership))
    (again : List (Option ContentLockOwnership) → CreatePhase)
    (done : List (Option ContentLockOwnership) → CreatePhase) : CreatePhase :=
  match c.guardedPaths[seen.length]? with
  | none => done seen
  | some path =>
    let seen := seen ++ [Ownership.getPathOwnership t.ownership c.requested.creator path]
    if seen.length < c.guardedPaths.length then again seen else done seen

def afterRecovery (ownership : List (Option ContentLockOwnership)) (lockId : LockId) :
    PublicationRecovery → CreatePhase
  | .requestMismatch => c.conflict
  | .pending _ _ => .finished (.error .contentLockPublicationInProgress)
  | .writeCompleted _ original => .readingWritten (uniformStatus ownership) lockId original
  | .none => .rereadingOwnership ownership lockId []

def afterReread (ownership : List (Option ContentLockOwnership)) (lockId : LockId)
    (current : List (Option ContentLockOwnership)) : CreatePhase :=
  if current.all Option.isNone then c.free E
  else if current ≠ ownership then c.conflict
  else .readingPublished (uniformStatus ownership) lockId

def afterReadWritten (status : ContentLockOwnershipStatus) (lockId : LockId)
    (original : ContentLock) (published : Option ContentLock) : CreatePhase :=
  if published = some original then .reconcilingRecovered status original lockId else c.conflict

def afterReadPublished (status : ContentLockOwnershipStatus) (lockId : LockId) :
    Option ContentLock → CreatePhase
  | none => c.conflict
  | some existing =>
    match existing.lockId E with
    | .error m => .finished (.error (.contentLockCanonicalization m))
    | .ok canonical =>
      if canonical ≠ lockId ∨ existing ≠ { c.requested with createdAt := existing.createdAt } then
        c.conflict
      else .recoveringAgain status existing lockId

def afterSecondRecovery (status : ContentLockOwnershipStatus) (lock : ContentLock)
    (lockId : LockId) : PublicationRecovery → CreatePhase
  | .none =>
    if status = .published then .finished (.ok ⟨lockId, lock⟩) else .beginning false lock lockId
  | .writeCompleted _ recovered => .reconcilingRecovered status recovered lockId
  | .pending _ _ => .finished (.error .contentLockPublicationInProgress)
  | .requestMismatch => c.conflict

def afterReconcile (reconciled : Bool) (next : CreatePhase) : CreatePhase :=
  if reconciled then next
  else .finished (.error (.storage "content lock publication reconciliation was not committed"))

/-- The phase after an operation that is retried: its answer, or the next
    attempt. -/
def retried {α : Type} (attempts : ℕ) (again : ℕ → CreatePhase) (answer : α → CreatePhase) :
    Except ApplicationError α → CreatePhase
  | .ok a => answer a
  | .error e =>
    if attempts + 1 = PUBLICATION_BOOKKEEPING_ATTEMPTS then .finished (.error e)
    else again (attempts + 1)

def answered {α : Type} (answer : α → CreatePhase) : Except ApplicationError α → CreatePhase
  | .ok a => answer a
  | .error e => .finished (.error e)

/-- The end of a call whose write was not started. -/
def undone (error : ApplicationError) (message : String) (committed : Bool) : CreatePhase :=
  .finished (.error (if committed then error else .storage message))

end CreateCall

/-! ## Outcomes

What holds of a phase after a read or an operation, from what holds of each phase
that may follow it.  Every other end is an error (`herror`). -/

namespace CreateCall

variable {E : Externals} {c : CreateCall} {M : CreatePhase → Prop}

theorem answered_cases {α : Type} {answer : α → CreatePhase} {value : Except ApplicationError α}
    (herror : ∀ e, M (.finished (.error e))) (hok : ∀ a, value = .ok a → M (answer a)) :
    M (answered answer value) := by
  cases value with
  | error e => exact herror e
  | ok a => exact hok a rfl

theorem retried_cases {α : Type} {attempts : ℕ} {again : ℕ → CreatePhase} {answer : α → CreatePhase}
    {value : Except ApplicationError α} (herror : ∀ e, M (.finished (.error e)))
    (hagain : ∀ n, M (again n)) (hok : ∀ a, M (answer a)) :
    M (retried attempts again answer value) := by
  unfold retried
  split
  · exact hok _
  · split
    · exact herror _
    · exact hagain _

/-- The rows with the one of the next path. -/
def Reads (c : CreateCall) (t : PublicationTables) (seen l : List (Option ContentLockOwnership)) :
    Prop :=
  ∃ path, c.guardedPaths[seen.length]? = some path ∧
    l = seen ++ [Ownership.getPathOwnership t.ownership c.requested.creator path]

theorem readPath_cases {t : PublicationTables} {seen : List (Option ContentLockOwnership)}
    {again done : List (Option ContentLockOwnership) → CreatePhase}
    (hagain : ∀ l, c.Reads t seen l → M (again l))
    (hdone : ∀ l, l = seen ∨ c.Reads t seen l → c.guardedPaths.length ≤ l.length → M (done l)) :
    M (c.readPath t seen again done) := by
  unfold readPath
  split
  · rename_i hend
    exact hdone _ (.inl rfl) (List.getElem?_eq_none_iff.1 hend)
  · rename_i path hpath
    dsimp only
    split
    · exact hagain _ ⟨path, hpath, rfl⟩
    · rename_i hlong
      exact hdone _ (.inr ⟨path, hpath, rfl⟩) (Nat.le_of_not_lt hlong)

theorem free_cases (herror : ∀ e, M (.finished (.error e)))
    (hfree : ∀ lockId, c.requested.lockId E = .ok lockId → M (.reserving c.requested lockId)) :
    M (c.free E) := by
  unfold free
  split
  · exact herror _
  · rename_i lockId hid
    exact hfree lockId hid

variable {ownership : List (Option ContentLockOwnership)} {lockId : LockId}
  {recovered : PublicationRecovery} {status : ContentLockOwnershipStatus}
  {published : Option ContentLock}

theorem afterOwnership_cases (herror : ∀ e, M (.finished (.error e)))
    (hfree : (∀ row ∈ ownership, row = none) →
      ∀ lockId, c.requested.lockId E = .ok lockId → M (.reserving c.requested lockId))
    (howned : ∀ lockId, (∀ r ∈ c.guardedPaths.zip ownership, r.2.any (·.lockId == lockId)) →
      M (.recovering ownership lockId)) : M (c.afterOwnership E ownership) := by
  unfold afterOwnership
  split
  · rename_i hnone
    refine free_cases herror (hfree fun row hrow => ?_)
    exact Option.map_eq_none_iff.1 (List.findSome?_eq_none_iff.1 hnone row hrow)
  · rename_i lockId _
    split
    · exact herror _
    · rename_i hall
      split
      · exact herror _
      · refine howned lockId fun r hr => ?_
        simpa using List.find?_eq_none.1 hall r hr

theorem afterRecovery_cases (herror : ∀ e, M (.finished (.error e)))
    (hnone : M (.rereadingOwnership ownership lockId []))
    (hwritten : ∀ token original, recovered = .writeCompleted token original →
      M (.readingWritten (uniformStatus ownership) lockId original)) :
    M (c.afterRecovery ownership lockId recovered) := by
  cases recovered with
  | none => exact hnone
  | requestMismatch => exact herror _
  | writeCompleted token original => exact hwritten token original rfl
  | pending token original => exact herror _

theorem afterReread_cases {current : List (Option ContentLockOwnership)}
    (herror : ∀ e, M (.finished (.error e)))
    (hfree : (∀ row ∈ current, row = none) →
      ∀ lockId, c.requested.lockId E = .ok lockId → M (.reserving c.requested lockId))
    (howned : M (.readingPublished (uniformStatus ownership) lockId)) :
    M (c.afterReread E ownership lockId current) := by
  unfold afterReread
  split
  · rename_i hnone
    refine free_cases herror (hfree fun row hrow => ?_)
    exact Option.isNone_iff_eq_none.1 (List.all_eq_true.1 hnone row hrow)
  · split
    · exact herror _
    · exact howned

theorem afterReadWritten_cases {original : ContentLock} (herror : ∀ e, M (.finished (.error e)))
    (hsame : published = some original → M (.reconcilingRecovered status original lockId)) :
    M (c.afterReadWritten status lockId original published) := by
  unfold afterReadWritten
  split
  · rename_i heq
    exact hsame heq
  · exact herror _

theorem afterReadPublished_cases (herror : ∀ e, M (.finished (.error e)))
    (hsame : ∀ existing, published = some existing → existing.lockId E = .ok lockId →
      existing = { c.requested with createdAt := existing.createdAt } →
      M (.recoveringAgain status existing lockId)) :
    M (c.afterReadPublished E status lockId published) := by
  unfold afterReadPublished
  split
  · exact herror _
  · rename_i existing
    split
    · exact herror _
    · rename_i canonical hid
      split
      · exact herror _
      · rename_i hne
        rw [not_or, not_not, not_not] at hne
        obtain ⟨rfl, hsame'⟩ := hne
        exact hsame existing rfl hid hsame'

theorem afterSecondRecovery_cases {lock : ContentLock} (herror : ∀ e, M (.finished (.error e)))
    (hdone : status = .published → M (.finished (.ok ⟨lockId, lock⟩)))
    (hbegin : M (.beginning false lock lockId))
    (hwritten : ∀ token original, recovered = .writeCompleted token original →
      M (.reconcilingRecovered status original lockId)) :
    M (c.afterSecondRecovery status lock lockId recovered) := by
  cases recovered with
  | none =>
    show M (if status = .published then _ else _)
    split
    · rename_i hstatus
      exact hdone hstatus
    · exact hbegin
  | requestMismatch => exact herror _
  | writeCompleted token original => exact hwritten token original rfl
  | pending token original => exact herror _

theorem afterReconcile_cases {reconciled : Bool} {next : CreatePhase}
    (herror : ∀ e, M (.finished (.error e))) (hnext : M next) :
    M (afterReconcile reconciled next) := by
  unfold afterReconcile
  split
  · exact hnext
  · exact herror _

end CreateCall

/-! ## Operations -/

/-- A write to the homeserver whose result is not known. -/
structure LockWrite where
  creator : CreatorPubky
  lockId : LockId
  lock : ContentLock

/-- The tables, the locks on the homeserver and the writes that may still land. -/
structure PublishStores where
  tables : PublicationTables
  published : CreatorPubky → LockId → Option ContentLock
  inFlight : List LockWrite

namespace PublishStores

/-- The homeserver after a write to the canonical path. -/
def write (s : PublishStores) (w : LockWrite) : PublishStores :=
  { s with
    published := fun creator lockId =>
      if creator = w.creator ∧ lockId = w.lockId then some w.lock else s.published creator lockId }

def operate {α : Type} (s : PublishStores) (r : OperationResult)
    (op : Except ApplicationError (α × PublicationTables))
    (next : Except ApplicationError α → CreatePhase) : PublishStores × CreatePhase :=
  let answer := r.apply s.tables op
  ({ s with tables := answer.2 }, next answer.1)

end PublishStores

def PublicationTables.withOwnership (t : PublicationTables)
    (rows : Except ApplicationError (List ContentLockOwnership)) :
    Except ApplicationError (Unit × PublicationTables) :=
  rows.map fun ownership => ((), { t with ownership })

open CreateCall in
/-- The next operation of a call; `token` is the token of an intent it inserts. -/
def CreateCall.advance (E : Externals) (c : CreateCall) (s : PublishStores) (r : OperationResult)
    (token : Uuid) : Option (PublishStores × CreatePhase) :=
  let creator := c.requested.creator
  match c.phase with
  | .readingOwnership seen => some (s, answered
      (fun t => c.readPath t seen .readingOwnership (c.afterOwnership E)) (r.read (.ok s.tables)))
  | .recovering ownership lockId => some (s, answered (c.afterRecovery ownership lockId)
      (r.read (s.tables.recoverPublication E creator lockId c.requested)))
  | .rereadingOwnership ownership lockId seen => some (s, answered
      (fun t => c.readPath t seen (.rereadingOwnership ownership lockId)
        (c.afterReread E ownership lockId)) (r.read (.ok s.tables)))
  | .readingWritten status lockId original => some (s, answered
      (c.afterReadWritten status lockId original) (r.read (.ok (s.published creator lockId))))
  | .readingPublished status lockId => some (s, answered
      (c.afterReadPublished E status lockId) (r.read (.ok (s.published creator lockId))))
  | .recoveringAgain status lock lockId => some (s, answered
      (c.afterSecondRecovery status lock lockId)
      (r.read (s.tables.recoverPublication E creator lockId lock)))
  | .reconcilingRecovered status lock lockId => some (s.operate r
      (s.tables.reconcilePublication E creator lockId lock c.guardedPaths)
      (answered fun reconciled => afterReconcile reconciled
        (if status = .reserved then .markingPublished lock lockId
          else .finished (.ok ⟨lockId, lock⟩))))
  | .reserving lock lockId => some (s.operate r
      (s.tables.withOwnership
        (Ownership.reservePaths s.tables.ownership creator c.guardedPaths lockId))
      (answered fun _ => .beginning true lock lockId))
  | .beginning newly lock lockId => some (s.operate r
      (s.tables.beginPublication E creator lockId token lock) fun
        | .ok _ => .writing newly lock lockId token
        | .error e => if newly then .compensatingPaths lockId e else .finished (.error e))
  | .compensatingPaths lockId error => some (s.operate r
      (s.tables.withOwnership (.ok
        (Ownership.compensateReservedPaths s.tables.ownership creator c.guardedPaths lockId)))
      fun _ => .finished (.error error))
  | .writing newly lock lockId token => match r with
    | .runs => some (s.write ⟨creator, lockId, lock⟩, .markingWritten lock lockId token 0)
    | .fails e => some (s, if newly then .compensating lockId token e 0
        else .abandoning lockId token e 0)
    | .lost e => some ({ s with inFlight := ⟨creator, lockId, lock⟩ :: s.inFlight },
        .finished (.error e))
  | .abandoning lockId token error attempts => some (s.operate r
      (s.tables.abandonPublication creator lockId token)
      (retried attempts (.abandoning lockId token error)
        (undone error "content lock publication abandonment was not committed")))
  | .compensating lockId token error attempts => some (s.operate r
      (s.tables.compensatePublication creator lockId token)
      (retried attempts (.compensating lockId token error)
        (undone error "content lock publication compensation was not committed")))
  | .markingWritten lock lockId token attempts => some (s.operate r
      (s.tables.markPublicationWritten creator lockId token)
      (retried attempts (.markingWritten lock lockId token) fun committed =>
        if committed then .reconciling lock lockId
        else .finished (.error
          (.storage "content lock publication write completion was not committed"))))
  | .reconciling lock lockId => some (s.operate r
      (s.tables.reconcilePublication E creator lockId lock c.guardedPaths)
      (answered fun reconciled => afterReconcile reconciled (.markingPublished lock lockId)))
  | .markingPublished lock lockId => some (s.operate r
      (s.tables.withOwnership
        (Ownership.markPathsPublished s.tables.ownership creator c.guardedPaths lockId))
      (answered fun _ => .finished (.ok ⟨lockId, lock⟩)))
  | .finished _ | .stopped => none

/-! ## Runs -/

structure PublishState where
  stores : PublishStores
  calls : List CreateCall

inductive PublishEvent where
  /-- A call begins; `resources` answers its reads of guarded resources. -/
  | call (request : CreateContentLockRequest) (resources : GuardedResourceRepository)
      (now : Timestamp)
  /-- A call makes its next operation. -/
  | advance (i : ℕ) (result : OperationResult) (token : Uuid)
  /-- A call stops between two operations. -/
  | stop (i : ℕ)
  /-- A write with an unknown result lands. -/
  | land (k : ℕ)

namespace PublishState

variable (C : Codec) (E : Externals) (s : PublishState)

def init (deletions : List IntentKey) (published : CreatorPubky → LockId → Option ContentLock) :
    PublishState :=
  ⟨⟨⟨[], [], deletions⟩, published, []⟩, []⟩

def setPhase (i : ℕ) (c : CreateCall) (stores : PublishStores) (phase : CreatePhase) :
    PublishState :=
  ⟨stores, s.calls.set i { c with phase }⟩

/-- The call of a request; a request that is refused ends at once. -/
def start (request : CreateContentLockRequest) (resources : GuardedResourceRepository)
    (now : Timestamp) : CreateCall where
  requested := request.contentLock now
  phase := match request.validated C E resources now with
    | .ok _ => .readingOwnership []
    | .error e => .finished (.error e)

def exec : PublishEvent → Option PublishState
  | .call request resources now =>
    some { s with calls := s.calls ++ [start C E request resources now] }
  | .advance i r token => (s.calls[i]?).bind fun c =>
    (c.advance E s.stores r token).map fun next => s.setPhase i c next.1 next.2
  | .stop i => (s.calls[i]?).bind fun c =>
    if c.phase.ended then none else some (s.setPhase i c s.stores .stopped)
  | .land k => (s.stores.inFlight[k]?).map fun w =>
    { s with stores := { s.stores.write w with inFlight := s.stores.inFlight.eraseIdx k } }

/-- No call is between two operations. -/
def quiescent : Bool := s.calls.all (·.phase.ended)

/-- The call makes `n` operations, all of which run. -/
def runAlone (i : ℕ) (token : Uuid) : ℕ → PublishState → PublishState
  | 0, s => s
  | n + 1, s => match s.exec C E (.advance i .runs token) with
    | none => s
    | some s => runAlone i token n s

end PublishState

def staticRequest : CreateContentLockRequest where
  creator := ⟨"creator"⟩
  primaryResource := (staticLock ⟨"creator"⟩).primaryResource
  secondaryResources := .empty
  criteria := (staticLock ⟨"creator"⟩).criteria
  lockLogic := .all ["criterion-1"]
  accessPolicy := ⟨900⟩
  lockServer := ⟨none⟩

def describedResources : GuardedResourceRepository :=
  fun _ _ => .ok (staticLock ⟨"creator"⟩).primaryResource

end PubkyLocks
