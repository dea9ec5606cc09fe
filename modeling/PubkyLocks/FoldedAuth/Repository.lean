/-
  Folded-auth attempts (`application/models/folded_auth.rs`,
  `infrastructure/postgres/folded_auth.rs`): the statements on
  `folded_auth_attempts` and the decisions around them.

  An attempt is pending until it is accepted, expires or requires a restart.
  While a poll for its approval is in flight, `poll_dispatched_at` is set;
  `markPollDispatched` sets it on an attempt without it,
  `renewPollDispatch` renews it, and `confirmNotAttempted` and
  `transitionAfterPoll` clear it.
-/
import PubkyLocks.Lanes.Graph

namespace PubkyLocks

open Checks (refuse)

def FOLDED_AUTH_TTL : Duration := Duration.seconds 600
def FOLDED_AUTH_TOMBSTONE_TTL : Duration := Duration.seconds 86400
def FOLDED_AUTH_POLL_ABANDONED_AFTER : Duration := Duration.seconds 60

structure StartFoldedAuthAttempt where
  submittedProofBundle : SubmittedProofBundleV2
  pubkyLockResource : PubkyLockResource
  lockHash : LockHash
  verificationWindowSeconds : ℕ
  graph : GraphPolicyV2
  stateHash : StateHash
  flowSecret : List UInt8
deriving DecidableEq

namespace StartFoldedAuthAttempt

def creator (q : StartFoldedAuthAttempt) : CreatorPubky :=
  q.submittedProofBundle.pubkyLockResource.creator

def bundleId (q : StartFoldedAuthAttempt) : BundleId := q.submittedProofBundle.bundleId

def validate (q : StartFoldedAuthAttempt) : Except String Unit := do
  refuse (q.flowSecret = []) "folded auth flow secret is empty"
  refuse (q.submittedProofBundle.version ≠ 2 ∨ q.submittedProofBundle.readerPubky.isSome ∨
      q.submittedProofBundle.pubkyLockResource ≠ q.pubkyLockResource ∨
      q.pubkyLockResource.creator ≠ q.creator)
    "folded auth request binding is invalid"
  refuse (!(60 ≤ q.verificationWindowSeconds && q.verificationWindowSeconds ≤ 604800))
    "folded auth verification window is invalid"
  refuse (!(1 ≤ q.graph.predicates.length && q.graph.predicates.length ≤ 8) ||
      (q.graph.predicates.length == 1) != q.graph.operator.isNone)
    "folded auth graph policy is invalid"
  refuse (!decide q.graph.predicates.Nodup) "folded auth graph policy contains duplicates"

end StartFoldedAuthAttempt

def followStart : StartFoldedAuthAttempt :=
  let resource := PubkyLockResource.of ⟨"creator"⟩ (LockId.fromHash (.replicate 7))
  ⟨⟨2, ⟨"bundle"⟩, resource, none⟩, resource, .replicate 7, 600,
    ⟨[.follows .reader .creator], none⟩, ⟨1⟩, [1]⟩

namespace FoldedAuthAttempt

def exactRequestMatches (a : FoldedAuthAttempt) (q : StartFoldedAuthAttempt) : Bool :=
  a.submittedProofBundle == q.submittedProofBundle && a.pubkyLockResource == q.pubkyLockResource &&
    a.lockHash == q.lockHash && a.verificationWindowSeconds == q.verificationWindowSeconds &&
    a.graph == q.graph

def acceptedGraphTask (a : FoldedAuthAttempt) (taskId : TaskId) (reader : CreatorPubky)
    (acceptedAt : Timestamp) : Except String GraphTaskRecord :=
  (GraphTaskSnapshotV1.new a.creator a.bundleId a.pubkyLockResource a.lockHash reader acceptedAt
    a.verificationWindowSeconds a.graph).map fun snapshot =>
      { taskId, snapshot, evaluatorRevision := 0, status := .pending,
        entitlementToPublish := none, entitlementPublicationToken := none, completedAt := none }

/-- The row `WHERE state_hash = $1 AND generation = $2 AND status = 'pending'`. -/
def pendingAs (h : StateHash) (g : ℕ) (a : FoldedAuthAttempt) : Bool :=
  a.stateHash == h && a.generation == g && a.status == .pending

def ofHandle (c : CreatorPubky) (b : BundleId) (a : FoldedAuthAttempt) : Bool :=
  a.creator == c && a.bundleId == b

/-- The columns a terminal status sets. -/
def terminalized (status : FoldedAuthStatus) (now purgeAfter : Timestamp) (a : FoldedAuthAttempt) :
    FoldedAuthAttempt :=
  { a with status, encryptedFlowSecret := none, pollDispatchedAt := none, terminalAt := some now,
           purgeAfter := some purgeAfter }

theorem pendingAs_iff {h : StateHash} {g : ℕ} {a : FoldedAuthAttempt} :
    a.pendingAs h g ↔ a.stateHash = h ∧ a.generation = g ∧ a.status = .pending := by
  simp only [pendingAs, Bool.and_eq_true, beq_iff_eq, and_assoc]

end FoldedAuthAttempt

def checkedPurgeAfter (now : Timestamp) : Option Timestamp :=
  now.checkedAdd FOLDED_AUTH_TOMBSTONE_TTL

namespace FoldedAuth

variable (attempts : List FoldedAuthAttempt)

def getByStateHash (h : StateHash) : Option FoldedAuthAttempt :=
  attempts.find? (·.stateHash == h)

def latestByHandle (c : CreatorPubky) (b : BundleId) : Option FoldedAuthAttempt :=
  (attempts.filter (·.ofHandle c b)).foldl
    (fun latest a => match latest with
      | none => some a
      | some m => if m.generation < a.generation then some a else some m) none

/-- `set_poll_dispatched`: the flag of a pending attempt is set when it is not,
    or cleared when it is. -/
def setPollDispatched (h : StateHash) (g : ℕ) (dispatched : Bool) (dbNow : Timestamp) :
    Option (List FoldedAuthAttempt) :=
  let matches' := fun a : FoldedAuthAttempt =>
    a.pendingAs h g && a.pollDispatchedAt.isNone == dispatched
  if attempts.any matches' then
    some (Table.updateWhere matches'
      (fun a => { a with pollDispatchedAt := if dispatched then some dbNow else none }) attempts)
  else none

def markPollDispatched (h : StateHash) (g : ℕ) (dbNow : Timestamp) :
    Option (List FoldedAuthAttempt) :=
  setPollDispatched attempts h g true dbNow

def confirmNotAttempted (h : StateHash) (g : ℕ) (dbNow : Timestamp) :
    Option (List FoldedAuthAttempt) :=
  setPollDispatched attempts h g false dbNow

def renewPollDispatch (h : StateHash) (g : ℕ) (dbNow : Timestamp) :
    Option (List FoldedAuthAttempt) :=
  let matches' := fun a : FoldedAuthAttempt => a.pendingAs h g && a.pollDispatchedAt.isSome
  if attempts.any matches' then
    some (Table.updateWhere matches' (fun a => { a with pollDispatchedAt := some dbNow }) attempts)
  else none

def terminalizePending (h : StateHash) (g : ℕ) (status : FoldedAuthStatus) (dbNow : Timestamp) :
    Option (List FoldedAuthAttempt) :=
  match checkedPurgeAfter dbNow with
  | none => none
  | some purgeAfter =>
    if attempts.any (·.pendingAs h g) then
      some (Table.updateWhere (·.pendingAs h g) (·.terminalized status dbNow purgeAfter) attempts)
    else none

/-- The terminal status of `transition_after_poll`: an attempt that the
    database clock has expired expires, and a requested expiry before that is
    not granted. -/
def terminalAfterPoll (a : FoldedAuthAttempt) (requested : Option FoldedAuthStatus)
    (dbNow : Timestamp) : Option FoldedAuthStatus :=
  if a.expiresAt ≤ dbNow then some .expired else requested.filter (· ≠ .expired)

def transitionAfterPoll (h : StateHash) (g : ℕ) (requested : Option FoldedAuthStatus)
    (dbNow : Timestamp) : Option (List FoldedAuthAttempt) :=
  match attempts.find? (·.pendingAs h g) with
  | none => none
  | some a =>
    match terminalAfterPoll a requested dbNow with
    | some status => terminalizePending attempts h g status dbNow
    | none =>
      some (Table.updateWhere (·.pendingAs h g) (fun a => { a with pollDispatchedAt := none })
        attempts)

def confirmPendingGeneration (h : StateHash) (g : ℕ) (dbNow : Timestamp) :
    Option (List FoldedAuthAttempt) :=
  transitionAfterPoll attempts h g none dbNow

def requireRestart (h : StateHash) (g : ℕ) (dbNow : Timestamp) :
    Option (List FoldedAuthAttempt) :=
  transitionAfterPoll attempts h g (some .restartRequired) dbNow

def expire (h : StateHash) (g : ℕ) (dbNow : Timestamp) : Option (List FoldedAuthAttempt) :=
  transitionAfterPoll attempts h g (some .expired) dbNow

def purgeTerminalBefore (dbNow : Timestamp) : Option (List FoldedAuthAttempt) :=
  (checkedPurgeAfter dbNow).map fun purgeAfter =>
    let expired := Table.updateWhere (fun a => a.status == .pending && a.expiresAt ≤ dbNow)
      (·.terminalized .expired dbNow purgeAfter) attempts
    let abandoned := Table.updateWhere
      (fun a => a.status == .pending &&
        a.pollDispatchedAt.any (· ≤ dbNow - FOLDED_AUTH_POLL_ABANDONED_AFTER))
      (·.terminalized .restartRequired dbNow purgeAfter) expired
    abandoned.filter fun a => !(a.status != .pending && a.purgeAfter.any (· ≤ dbNow))

/-! ## Starting an attempt -/

/-- The generation of a new attempt, and the status its predecessor gets, if
    it is still pending. -/
def startDecision (q : StartFoldedAuthAttempt) (dbNow : Timestamp) :
    Except ApplicationError (ℕ × Option (FoldedAuthAttempt × FoldedAuthStatus)) :=
  match latestByHandle attempts q.creator q.bundleId with
  | none => .ok (1, none)
  | some latest =>
    if !latest.exactRequestMatches q || latest.status = .accepted then
      .error .verificationTaskConflict
    else if REVISION_MAX ≤ latest.generation then
      .error (.storage "folded auth generation exceeds Postgres BIGINT")
    else if latest.status = .pending then
      .ok (latest.generation + 1,
        some (latest, if latest.expiresAt ≤ dbNow then .expired else .restartRequired))
    else .ok (latest.generation + 1, none)

def newAttempt (q : StartFoldedAuthAttempt) (generation : ℕ) (dbNow expiresAt : Timestamp) :
    FoldedAuthAttempt :=
  { creator := q.creator, bundleId := q.bundleId, generation, stateHash := q.stateHash,
    status := .pending, submittedProofBundle := q.submittedProofBundle,
    pubkyLockResource := q.pubkyLockResource, lockHash := q.lockHash,
    verificationWindowSeconds := q.verificationWindowSeconds, graph := q.graph,
    encryptedFlowSecret := some q.flowSecret, createdAt := dbNow, expiresAt,
    pollDispatchedAt := none, terminalAt := none, purgeAfter := none, taskId := none }

def startedAttempt : FoldedAuthAttempt := newAttempt followStart 1 0 FOLDED_AUTH_TTL

/-- `INSERT INTO folded_auth_attempts`, with the primary key, the unique
    generation of a handle and the index that allows one pending attempt per
    handle. -/
def insertAttempt (a : FoldedAuthAttempt) : Option (List FoldedAuthAttempt) :=
  if attempts.any (fun b => b.stateHash == a.stateHash ||
      (b.ofHandle a.creator a.bundleId && (b.generation == a.generation || b.status == .pending)))
  then none
  else some (a :: attempts)

def startOrRotate (q : StartFoldedAuthAttempt) (dbNow : Timestamp) :
    Option (List FoldedAuthAttempt) :=
  match startDecision attempts q dbNow, dbNow.checkedAdd FOLDED_AUTH_TTL with
  | .ok (generation, previous), some expiresAt =>
    let rotated := match previous with
      | none => some attempts
      | some (latest, status) =>
        terminalizePending attempts latest.stateHash latest.generation status dbNow
    rotated.bind fun attempts => insertAttempt attempts (newAttempt q generation dbNow expiresAt)
  | _, _ => none

/-! ## What the writes do -/

section
variable {attempts : List FoldedAuthAttempt}

/-- Closing an attempt: the pending attempt with a state hash and generation
    gets a terminal status, and its keys stay. -/
structure Closes (f : FoldedAuthAttempt → FoldedAuthAttempt) : Prop where
  status : ∀ a, (f a).status ≠ .pending
  stateHash : ∀ a, (f a).stateHash = a.stateHash

variable {f : FoldedAuthAttempt → FoldedAuthAttempt} {h : StateHash} {g : ℕ}

variable {status : FoldedAuthStatus} {a : FoldedAuthAttempt} {now : Timestamp}
  {attempts' : List FoldedAuthAttempt}

theorem terminalized_closes (hs : status ≠ .pending)
    (now purgeAfter : Timestamp) : Closes (·.terminalized status now purgeAfter) :=
  ⟨fun _ => hs, fun _ => rfl⟩

theorem Closes.pending (hf : Closes f)
    (ha : a ∈ Table.updateWhere (·.pendingAs h g) f attempts) (hp : a.status = .pending) :
    a ∈ attempts ∧ ¬ a.pendingAs h g := by
  obtain ⟨b, hb, ⟨hm, rfl⟩ | ⟨hm, rfl⟩⟩ := Table.mem_updateWhere.1 ha
  · exact absurd hp (hf.status b)
  · exact ⟨hb, by simp [hm]⟩

theorem mem_close_of_ne (ha : a ∈ attempts) (hne : a.stateHash ≠ h) :
    a ∈ Table.updateWhere (·.pendingAs h g) f attempts := by
  refine Table.mem_updateWhere.2 ⟨a, ha, .inr ⟨?_, rfl⟩⟩
  rw [← Bool.not_eq_true, FoldedAuthAttempt.pendingAs_iff]
  exact fun hp => hne hp.1

theorem Closes.map_stateHash (hf : Closes f) :
    (Table.updateWhere (·.pendingAs h g) f attempts).map (·.stateHash) =
      attempts.map (·.stateHash) :=
  Table.map_updateWhere fun a _ _ => hf.stateHash a

theorem terminalizePending_eq_some
    (hw : terminalizePending attempts h g status now = some attempts') :
    ∃ purgeAfter, attempts' =
      Table.updateWhere (·.pendingAs h g) (·.terminalized status now purgeAfter) attempts := by
  unfold terminalizePending at hw
  split at hw
  · cases hw
  · rename_i purgeAfter _
    split at hw
    · cases hw
      exact ⟨purgeAfter, rfl⟩
    · cases hw

theorem latestByHandle_mem {c : CreatorPubky} {b : BundleId}
    (ha : latestByHandle attempts c b = some a) : a ∈ attempts ∧ a.ofHandle c b := by
  -- the fold returns its start value or an element of the list
  have hfold : ∀ (l : List FoldedAuthAttempt) (m : Option FoldedAuthAttempt),
      l.foldl (fun latest a => match latest with
        | none => some a
        | some m => if m.generation < a.generation then some a else some m) m = some a →
      m = some a ∨ a ∈ l := by
    intro l
    induction l with
    | nil => exact fun m hm => .inl hm
    | cons x l ih =>
      intro m hm
      rcases ih _ hm with hx | hx
      · cases m with
        | none => exact .inr (by cases hx; exact List.mem_cons_self)
        | some m =>
          simp only at hx
          split at hx
          · exact .inr (by cases hx; exact List.mem_cons_self)
          · exact .inl hx
      · exact .inr (List.mem_cons_of_mem _ hx)
  rcases hfold _ none ha with hx | hx
  · cases hx
  · exact List.mem_filter.1 hx

/-- **Starting an attempt** closes at most the latest attempt of the handle and
    inserts a pending one, under a new state hash and beside no other pending
    attempt of the handle. -/
theorem startOrRotate_spec {q : StartFoldedAuthAttempt}
    (hw : startOrRotate attempts q now = some attempts') :
    ∃ a rotated, attempts' = a :: rotated ∧ a.creator = q.creator ∧ a.bundleId = q.bundleId ∧
      a.stateHash = q.stateHash ∧ (∀ b ∈ rotated, b.stateHash ≠ a.stateHash ∧
        (b.creator = q.creator → b.bundleId = q.bundleId → b.status ≠ .pending)) ∧
      (rotated = attempts ∨ ∃ latest ∈ attempts, latest.creator = q.creator ∧
        latest.bundleId = q.bundleId ∧ ∃ f, Closes f ∧
          rotated = Table.updateWhere (·.pendingAs latest.stateHash latest.generation) f
            attempts) := by
  unfold startOrRotate at hw
  split at hw
  · rename_i generation previous expiresAt hdecision _
    obtain ⟨rotated, hrot, hins⟩ := Option.bind_eq_some_iff.1 hw
    have hinsert : attempts' = newAttempt q generation now expiresAt :: rotated ∧
        ∀ b ∈ rotated, b.stateHash ≠ q.stateHash ∧
          (b.creator = q.creator → b.bundleId = q.bundleId → b.status ≠ .pending) := by
      unfold insertAttempt at hins
      split at hins
      · cases hins
      · rename_i hnone
        cases hins
        refine ⟨rfl, fun b hb => ?_⟩
        have hb := List.any_eq_false.1 (Bool.not_eq_true _ ▸ hnone) b hb
        simp only [newAttempt, FoldedAuthAttempt.ofHandle, Bool.or_eq_true, Bool.and_eq_true,
          beq_iff_eq, not_or, not_and] at hb
        exact ⟨hb.1, fun hc hbid => (hb.2 ⟨hc, hbid⟩).2⟩
    refine ⟨_, rotated, hinsert.1, rfl, rfl, rfl, hinsert.2, ?_⟩
    cases previous with
    | none =>
      cases hrot
      exact .inl rfl
    | some previous =>
      obtain ⟨latest, status⟩ := previous
      obtain ⟨purgeAfter, rfl⟩ := terminalizePending_eq_some hrot
      -- the rotated attempt is the latest of the handle, with a terminal status
      have hlatest : latestByHandle attempts q.creator q.bundleId = some latest ∧
          status ≠ .pending := by
        unfold startDecision at hdecision
        split at hdecision
        · cases hdecision
        · rename_i m hm
          split at hdecision
          · cases hdecision
          · split at hdecision
            · cases hdecision
            · split at hdecision
              · cases hdecision
                refine ⟨hm, ?_⟩
                split <;> decide
              · cases hdecision
      obtain ⟨hmem, hof⟩ := latestByHandle_mem hlatest.1
      simp only [FoldedAuthAttempt.ofHandle, Bool.and_eq_true, beq_iff_eq] at hof
      exact .inr ⟨latest, hmem, hof.1, hof.2, _, terminalized_closes hlatest.2 now purgeAfter, rfl⟩
  · cases hw

end

end FoldedAuth

/-! ## Statements -/

/-- The statements of a poll and of the purge, with the database time. -/
inductive AttemptStatement where
  | markPollDispatched (h : StateHash) (g : ℕ) (dbNow : Timestamp)
  | renewPollDispatch (h : StateHash) (g : ℕ) (dbNow : Timestamp)
  | confirmNotAttempted (h : StateHash) (g : ℕ) (dbNow : Timestamp)
  | confirmPendingGeneration (h : StateHash) (g : ℕ) (dbNow : Timestamp)
  | requireRestart (h : StateHash) (g : ℕ) (dbNow : Timestamp)
  | expire (h : StateHash) (g : ℕ) (dbNow : Timestamp)
  | purgeTerminalBefore (dbNow : Timestamp)

/-- The attempts after the statement; `none` if it matches none. -/
def AttemptStatement.run (attempts : List FoldedAuthAttempt) :
    AttemptStatement → Option (List FoldedAuthAttempt)
  | markPollDispatched h g dbNow => FoldedAuth.markPollDispatched attempts h g dbNow
  | renewPollDispatch h g dbNow => FoldedAuth.renewPollDispatch attempts h g dbNow
  | confirmNotAttempted h g dbNow => FoldedAuth.confirmNotAttempted attempts h g dbNow
  | confirmPendingGeneration h g dbNow => FoldedAuth.confirmPendingGeneration attempts h g dbNow
  | requireRestart h g dbNow => FoldedAuth.requireRestart attempts h g dbNow
  | expire h g dbNow => FoldedAuth.expire attempts h g dbNow
  | purgeTerminalBefore dbNow => FoldedAuth.purgeTerminalBefore attempts dbNow

end PubkyLocks
