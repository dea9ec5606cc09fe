/-
  Polling for the approval of a folded-auth attempt
  (`application/use_cases/poll_folded_auth.rs`), by any number of concurrent
  calls on one database.

  A call is a sequence of repository operations (`PollExecute.advance`), with the
  poll of the relay between two of them.  The clock of the application is read
  when the call begins; every write is given the time of the database clock,
  which may differ from it in either direction.

  The attempt carries a flag while a poll is in flight.  `mark_poll_dispatched`
  sets it, and the call that set it clears it.  `expire` clears it too, on an
  attempt that has expired by the application's clock only.
-/
import PubkyLocks.Store.Handles

namespace PubkyLocks

open FoldedAuthAttempt FoldedAuth

/-! ## Calls -/

inductive FoldedAuthApprovalPoll where
  | pending
  | approved (reader : CreatorPubky)
deriving DecidableEq

/-- What the poller reports; `attempted none` is a poll that failed after its
    dispatch. -/
inductive FoldedAuthPollCall where
  | transientBeforePoll (error : ApplicationError)
  | unrecoverableBeforePoll
  | attempted (result : Option FoldedAuthApprovalPoll)
deriving DecidableEq

inductive PollFoldedAuthOutcome where
  | pending (attempt : FoldedAuthAttempt)
  | accepted (task : GraphTaskRecord)
  | restartRequired (attempt : FoldedAuthAttempt)
  | expired (attempt : FoldedAuthAttempt)
  | stale

/-- The next operation of a call of `PollFoldedAuthAttempt::execute`. -/
inductive PollPhase where
  /-- `get_by_state_hash`. -/
  | reading
  /-- `accepted_graph_task`. -/
  | findingTask
  /-- `expire`. -/
  | expiring (generation : ℕ)
  /-- `restore_pending`. -/
  | restoring (generation : ℕ)
  /-- `mark_poll_dispatched`. -/
  | marking (generation : ℕ)
  /-- `poll_approval` is in flight. -/
  | polling (generation : ℕ)
  /-- The operation that follows the result of the poll. -/
  | polled (generation : ℕ) (call : FoldedAuthPollCall)
  /-- `get_by_state_hash` after an acceptance that found no attempt. -/
  | rereading
  | finished (result : Except ApplicationError PollFoldedAuthOutcome)

/-- A call, with the application time it read first. -/
structure PollExecute where
  stateHash : StateHash
  beforePoll : Timestamp
  phase : PollPhase

namespace PollPhase

/-- The generation whose flag the call has set and not yet cleared. -/
def held? : PollPhase → Option ℕ
  | polling g | polled g _ => some g
  | _ => none

end PollPhase

namespace FoldedAuth

variable (db : Database) (h : StateHash)

def afterRead (beforePoll : Timestamp) : PollPhase :=
  match getByStateHash db.attempts h with
  | none => .finished (.ok .stale)
  | some attempt => match attempt.status with
    | .expired => .finished (.ok (.expired attempt))
    | .restartRequired => .finished (.ok (.restartRequired attempt))
    | .accepted => .findingTask
    | .pending =>
      if attempt.pollDispatchedAt.isSome then .finished (.ok (.pending attempt))
      else if attempt.expiresAt ≤ beforePoll then .expiring attempt.generation
      else .restoring attempt.generation

def getGraphTaskByHandle (c : CreatorPubky) (b : BundleId) :
    Except ApplicationError (Option GraphTaskRecord) :=
  match (db.tasksOf c b).find? TaskRow.isGraph with
  | none => .ok none
  | some r => (toGraphTask r).map some

def acceptedTask : Except ApplicationError (Option GraphTaskRecord) :=
  match getByStateHash db.attempts h with
  | none => .ok none
  | some attempt =>
    if attempt.status ≠ .accepted then .ok none
    else getGraphTaskByHandle db attempt.creator attempt.bundleId

def afterFindTask : PollPhase :=
  .finished ((acceptedTask db h).map fun task => task.elim .stale .accepted)

def afterRestore (generation : ℕ) : PollPhase :=
  match getByStateHash db.attempts h with
  | none => .finished (.ok .stale)
  | some attempt =>
    if attempt.status ≠ .pending ∨ attempt.pollDispatchedAt.isSome then .finished (.ok .stale)
    else if attempt.generation ≠ generation then .finished (.ok .stale)
    else .marking generation

/-- The outcome for the attempt a transition returns, when the transition is
    expected to leave `expected`. -/
def transitionOutcome (expected : FoldedAuthStatus) (attempt : FoldedAuthAttempt) :
    PollFoldedAuthOutcome :=
  if attempt.status = .expired then .expired attempt
  else if attempt.status ≠ expected then .stale
  else match expected with
    | .pending => .pending attempt
    | .restartRequired => .restartRequired attempt
    | .accepted | .expired => .stale

/-- A call that ends with a transition of its attempt. -/
def finish (write : List FoldedAuthAttempt → StateHash → ℕ → Timestamp →
      Option (List FoldedAuthAttempt))
    (expected : FoldedAuthStatus) (g : ℕ) (dbNow : Timestamp) : Database × PollPhase :=
  match write db.attempts h g dbNow with
  | some attempts =>
    ({ db with attempts }, .finished (.ok
      ((getByStateHash attempts h).elim .stale (transitionOutcome expected))))
  | none =>
    (db, .finished (if db.attempts.any (·.pendingAs h g) then
      .error (.storage "folded auth tombstone expiry overflow") else .ok .stale))

/-- The error of an acceptance that does not commit. -/
def acceptError (attempt : FoldedAuthAttempt) (taskId : TaskId) (reader : CreatorPubky)
    (dbNow : Timestamp) : ApplicationError :=
  if attempt.expiresAt ≤ dbNow then .storage "folded auth tombstone expiry overflow"
  else match attempt.acceptedGraphTask taskId reader dbNow with
    | .error message => .invalidFoldedAuthState message
    | .ok task =>
      if db.deletionCutoff attempt.creator attempt.pubkyLockResource.lockId then
        .contentLockDeletionInProgress
      else if (db.insertTask (Graph.newRow taskId task.snapshot)).isNone then
        .verificationTaskConflict
      else .storage "folded auth tombstone expiry overflow"

/-- A call that ends with `accept_and_insert_graph_task`. -/
def accept (g : ℕ) (taskId : TaskId) (reader : CreatorPubky) (dbNow : Timestamp) :
    Database × PollPhase :=
  match db.attempts.find? (·.pendingAs h g) with
  | none => (db, .rereading)
  | some attempt =>
    match (Admission.acceptAndInsertGraphTask attempt taskId reader dbNow).program.run db with
    | none => (db, .finished (.error (acceptError db attempt taskId reader dbNow)))
    | some db' =>
      if attempt.expiresAt ≤ dbNow then (db', .rereading)
      else (db', .finished (((attempt.acceptedGraphTask taskId reader dbNow).map .accepted).mapError
        .invalidFoldedAuthState))

/-- The phase after the last `get_by_state_hash`. -/
def afterReread : PollPhase :=
  .finished (.ok ((getByStateHash db.attempts h).elim .stale (transitionOutcome .expired)))

def afterPoll (g : ℕ) (call : FoldedAuthPollCall) (taskId : TaskId) (dbNow : Timestamp) :
    Database × PollPhase :=
  match call with
  | .transientBeforePoll error =>
    match confirmNotAttempted db.attempts h g dbNow with
    | some attempts => ({ db with attempts }, .finished (.error error))
    | none => (db, .finished (.ok .stale))
  | .unrecoverableBeforePoll | .attempted none =>
    finish db h requireRestart .restartRequired g dbNow
  | .attempted (some .pending) => finish db h confirmPendingGeneration .pending g dbNow
  | .attempted (some (.approved reader)) => accept db h g taskId reader dbNow

end FoldedAuth

/-- The next repository operation of a call, with the database time and the task
    id a new task would get; none while the poll is in flight and at the end. -/
def PollExecute.advance (c : PollExecute) (db : Database) (taskId : TaskId) (dbNow : Timestamp) :
    Option (Database × PollPhase) :=
  match c.phase with
  | .reading => some (db, afterRead db c.stateHash c.beforePoll)
  | .findingTask => some (db, afterFindTask db c.stateHash)
  | .expiring g => some (finish db c.stateHash expire .expired g dbNow)
  | .restoring g => some (db, afterRestore db c.stateHash g)
  | .marking g => some (match markPollDispatched db.attempts c.stateHash g dbNow with
    | some attempts => ({ db with attempts }, .polling g)
    | none => (db, .finished (.ok .stale)))
  | .polled g call => some (afterPoll db c.stateHash g call taskId dbNow)
  | .rereading => some (db, afterReread db c.stateHash)
  | .polling _ | .finished _ => none

/-! ## Runs -/

/-- The database and the calls. -/
structure PollState where
  db : Database
  calls : List PollExecute

/-- One event.  Row locks make each operation atomic on the attempt it writes.
    A renewal is dropped and not awaited when the poll returns, so its statement
    may reach the database at any time. -/
inductive PollEvent where
  /-- A call begins, at an application time. -/
  | call (h : StateHash) (now : Timestamp)
  /-- A call makes its next repository operation. -/
  | advance (i : ℕ) (taskId : TaskId) (dbNow : Timestamp)
  /-- The poll of a call returns. -/
  | pollReturns (i : ℕ) (result : FoldedAuthPollCall)
  /-- A call fails in its next operation, or is cancelled. -/
  | stop (i : ℕ) (error : ApplicationError)
  /-- `renew_poll_dispatch`. -/
  | renew (h : StateHash) (g : ℕ) (dbNow : Timestamp)
  /-- `purge_terminal_before`. -/
  | purge (dbNow : Timestamp)
  /-- `start_or_rotate`. -/
  | start (request : StartFoldedAuthAttempt) (dbNow : Timestamp)

namespace PollState

variable (s : PollState)

/-- A call with its next phase. -/
def setPhase (i : ℕ) (c : PollExecute) (db : Database) (phase : PollPhase) : PollState :=
  ⟨db, s.calls.set i { c with phase }⟩

def exec : PollEvent → Option PollState
  | .call h now => some { s with calls := s.calls ++ [⟨h, now, .reading⟩] }
  | .advance i taskId dbNow => (s.calls[i]?).bind fun c =>
    (c.advance s.db taskId dbNow).map fun p => s.setPhase i c p.1 p.2
  | .pollReturns i result => (s.calls[i]?).bind fun c => match c.phase with
    | .polling g => some (s.setPhase i c s.db (.polled g result))
    | _ => none
  | .stop i error => (s.calls[i]?).map fun c => s.setPhase i c s.db (.finished (.error error))
  | .renew h g dbNow => (renewPollDispatch s.db.attempts h g dbNow).map
      fun attempts => { s with db := { s.db with attempts } }
  | .purge dbNow => (purgeTerminalBefore s.db.attempts dbNow).map
      fun attempts => { s with db := { s.db with attempts } }
  | .start request dbNow =>
    ((Admission.startOrRotate request dbNow).program.run s.db).map fun db => { s with db }

end PollState

/-! ## What one operation does -/

/-- The call has set the flag of the attempt and not yet cleared it. -/
def PollExecute.Holds (c : PollExecute) (a : FoldedAuthAttempt) : Prop :=
  c.stateHash = a.stateHash ∧ c.phase.held? = some a.generation

/-- A pending attempt of the new table is one of the old, or the old table had a
    pending one with its state hash and generation. -/
def Touches (h : StateHash) (g : ℕ) (old new : List FoldedAuthAttempt) : Prop :=
  ∀ a ∈ new, a.status = .pending →
    a ∈ old ∨ a.pendingAs h g ∧ ∃ b ∈ old, b.pendingAs h g

variable {h : StateHash} {g : ℕ} {old new : List FoldedAuthAttempt}

variable {f : FoldedAuthAttempt → FoldedAuthAttempt} {dbNow : Timestamp}

theorem touches_updateWhere {p : FoldedAuthAttempt → Bool} (hp : ∀ a, p a → a.pendingAs h g)
    (hf : ∀ a, (f a).stateHash = a.stateHash ∧ (f a).generation = a.generation) :
    Touches h g old (Table.updateWhere p f old) := by
  intro a ha hs
  obtain ⟨b, hb, ⟨hpb, rfl⟩ | ⟨-, rfl⟩⟩ := Table.mem_updateWhere.1 ha
  · have hkey := pendingAs_iff.1 (hp b hpb)
    refine .inr ⟨pendingAs_iff.2 ⟨?_, ?_, hs⟩, b, hb, hp b hpb⟩
    · exact (hf b).1.trans hkey.1
    · exact (hf b).2.trans hkey.2.1
  · exact .inl hb

theorem touches_of_closes (hf : Closes f) :
    Touches h g old (Table.updateWhere (·.pendingAs h g) f old) :=
  fun _ ha hs => .inl (hf.pending ha hs).1

theorem transitionAfterPoll_spec {requested : Option FoldedAuthStatus}
    (hreq : requested ≠ some .pending)
    (hw : transitionAfterPoll old h g requested dbNow = some new) :
    Touches h g old new ∧ ∃ b ∈ old, b.pendingAs h g ∧
      (b.expiresAt ≤ dbNow → ∀ a ∈ new, ¬ a.pendingAs h g) := by
  unfold transitionAfterPoll at hw
  split at hw
  · cases hw
  · rename_i b hb
    have hbmem := List.mem_of_find?_eq_some hb
    have hbkey : b.pendingAs h g := List.find?_some hb
    split at hw
    · rename_i status hstatus
      obtain ⟨purgeAfter, rfl⟩ := terminalizePending_eq_some hw
      have hclosed : status ≠ .pending := by
        unfold terminalAfterPoll at hstatus
        split at hstatus
        · cases hstatus
          decide
        · rintro rfl
          exact hreq (Option.filter_eq_some_iff.1 hstatus).1
      have hf := terminalized_closes hclosed dbNow purgeAfter
      refine ⟨touches_of_closes hf, b, hbmem, hbkey, fun _ a ha hkey => ?_⟩
      exact (hf.pending ha (pendingAs_iff.1 hkey).2.2).2 hkey
    · rename_i hstatus
      cases hw
      refine ⟨touches_updateWhere (fun _ ha => ha) (fun _ => ⟨rfl, rfl⟩), b, hbmem, hbkey, ?_⟩
      intro hexp
      rw [terminalAfterPoll, if_pos hexp] at hstatus
      cases hstatus

theorem setPollDispatched_spec {dispatched : Bool}
    (hw : setPollDispatched old h g dispatched dbNow = some new) :
    (∃ b ∈ old, b.pendingAs h g ∧ b.pollDispatchedAt.isNone = dispatched) ∧
      new = Table.updateWhere
        (fun a => a.pendingAs h g && a.pollDispatchedAt.isNone == dispatched)
        (fun a => { a with pollDispatchedAt := if dispatched then some dbNow else none }) old := by
  unfold setPollDispatched at hw
  dsimp only at hw
  split at hw
  · rename_i hany
    cases hw
    obtain ⟨b, hb, hmatch⟩ := List.any_eq_true.1 hany
    rw [Bool.and_eq_true, beq_iff_eq] at hmatch
    exact ⟨⟨b, hb, hmatch⟩, rfl⟩
  · cases hw

/-- What a repository operation of a call can do. -/
inductive Advances (c : PollExecute) (db : Database) (dbNow : Timestamp) :
    Database → PollPhase → Prop
  | reads {db' : Database} {p : PollPhase} :
      db'.attempts = db.attempts → p.held? = none → Advances c db dbNow db' p
  | marks {db' : Database} {g : ℕ} {b : FoldedAuthAttempt} :
      b ∈ db.attempts → b.pendingAs c.stateHash g → b.pollDispatchedAt = none →
      (∀ a ∈ db'.attempts, a.status = .pending → a.pendingAs c.stateHash g ∧
        a.pollDispatchedAt.isSome ∨ a ∈ db.attempts ∧ ¬ a.pendingAs c.stateHash g) →
      Advances c db dbNow db' (.polling g)
  | expires {db' : Database} {p : PollPhase} {g : ℕ} {b : FoldedAuthAttempt} :
      c.phase = .expiring g → p.held? = none → Touches c.stateHash g db.attempts db'.attempts →
      b ∈ db.attempts → b.pendingAs c.stateHash g →
      (b.expiresAt ≤ dbNow → ∀ a ∈ db'.attempts, ¬ a.pendingAs c.stateHash g) →
      Advances c db dbNow db' p
  | settles {db' : Database} {p : PollPhase} {g : ℕ} {call : FoldedAuthPollCall} :
      c.phase = .polled g call → p.held? = none →
      Touches c.stateHash g db.attempts db'.attempts → Advances c db dbNow db' p

variable {c : PollExecute} {db db' : Database} {taskId : TaskId} {p : PollPhase}

theorem afterRead_held (beforePoll : Timestamp) (h : StateHash) :
    (afterRead db h beforePoll).held? = none := by
  unfold afterRead
  split
  · rfl
  · split
    · rfl
    · rfl
    · rfl
    · split
      · rfl
      · split <;> rfl

theorem afterRestore_held (g : ℕ) (h : StateHash) : (afterRestore db h g).held? = none := by
  unfold afterRestore
  split
  · rfl
  · split
    · rfl
    · split <;> rfl

theorem finish_spec {h : StateHash} {g : ℕ} {requested : Option FoldedAuthStatus}
    {expected : FoldedAuthStatus}
    (hf : finish db h
      (fun as h g now => transitionAfterPoll as h g requested now) expected g dbNow =
        (db', p)) :
    p.held? = none ∧ (db' = db ∨
      transitionAfterPoll db.attempts h g requested dbNow = some db'.attempts) := by
  unfold finish at hf
  split at hf
  · rename_i attempts hw
    cases hf
    exact ⟨rfl, .inr hw⟩
  · cases hf
    exact ⟨rfl, .inl rfl⟩

theorem accept_spec {h : StateHash} {g : ℕ} {reader : CreatorPubky}
    (hf : accept db h g taskId reader dbNow = (db', p)) :
    p.held? = none ∧ Touches h g db.attempts db'.attempts := by
  have hrefl : Touches h g db.attempts db.attempts := fun a ha _ => .inl ha
  unfold accept at hf
  split at hf
  · cases hf
    exact ⟨rfl, hrefl⟩
  · rename_i a ha
    split at hf
    · cases hf
      exact ⟨rfl, hrefl⟩
    · rename_i db₁ hrun
      obtain ⟨-, hw⟩ := Transactions.Program.run_eq_some.1 hrun
      obtain ⟨⟨f, hclose, hattempts⟩, -⟩ := Admission.acceptWrite_spec hw
      have hkey := pendingAs_iff.1 (List.find?_some ha)
      rw [hkey.1, hkey.2.1] at hattempts
      have htouch : Touches h g db.attempts db₁.attempts := hattempts ▸ touches_of_closes hclose
      split at hf <;> cases hf <;> exact ⟨rfl, htouch⟩

theorem afterPoll_spec {h : StateHash} {g : ℕ} {call : FoldedAuthPollCall}
    (hf : afterPoll db h g call taskId dbNow = (db', p)) :
    p.held? = none ∧ Touches h g db.attempts db'.attempts := by
  have hrefl : Touches h g db.attempts db.attempts := fun a ha _ => .inl ha
  have hfinish : ∀ {requested expected}, requested ≠ some .pending →
      finish db h
        (fun as h g now => transitionAfterPoll as h g requested now) expected g dbNow =
          (db', p) →
      p.held? = none ∧ Touches h g db.attempts db'.attempts := by
    intro requested expected hreq hf
    obtain ⟨hp, rfl | hw⟩ := finish_spec hf
    · exact ⟨hp, hrefl⟩
    · exact ⟨hp, (transitionAfterPoll_spec hreq hw).1⟩
  unfold afterPoll at hf
  split at hf
  · split at hf
    · rename_i attempts hw
      cases hf
      obtain ⟨-, rfl⟩ := setPollDispatched_spec hw
      refine ⟨rfl, touches_updateWhere (fun a ha => ?_) (fun _ => ⟨rfl, rfl⟩)⟩
      exact (Bool.and_eq_true _ _ ▸ ha).1
    · cases hf
      exact ⟨rfl, hrefl⟩
  · exact hfinish (by decide) hf
  · exact hfinish (by decide) hf
  · exact hfinish (by decide) hf
  · exact accept_spec hf

theorem advances_of_mark {g : ℕ} {attempts : List FoldedAuthAttempt}
    (hw : markPollDispatched db.attempts c.stateHash g dbNow = some attempts) :
    Advances c db dbNow { db with attempts } (.polling g) := by
  obtain ⟨⟨b, hb, hkey, hflag⟩, rfl⟩ := setPollDispatched_spec hw
  refine .marks hb hkey (Option.isNone_iff_eq_none.1 hflag) fun a ha hs => ?_
  obtain ⟨x, hx, ⟨hmatch, rfl⟩ | ⟨hmatch, rfl⟩⟩ := Table.mem_updateWhere.1 ha
  · rw [Bool.and_eq_true] at hmatch
    exact .inl ⟨hmatch.1, rfl⟩
  · by_cases hax : a.pendingAs c.stateHash g
    · rw [hax, Bool.true_and, beq_eq_false_iff_ne, ne_eq, Option.isNone_iff_eq_none] at hmatch
      exact .inl ⟨hax, Option.isSome_iff_ne_none.2 hmatch⟩
    · exact .inr ⟨hx, hax⟩

/-- **Operations of a call.** -/
theorem advance_spec (hadv : c.advance db taskId dbNow = some (db', p)) :
    Advances c db dbNow db' p := by
  unfold PollExecute.advance at hadv
  split at hadv
  · cases hadv
    exact .reads rfl (afterRead_held _ _)
  · cases hadv
    exact .reads rfl rfl
  · rename_i g hphase
    obtain ⟨hp, rfl | hw⟩ := finish_spec (Option.some.inj hadv)
    · exact .reads rfl hp
    · obtain ⟨htouch, b, hb, hkey, hexp⟩ := transitionAfterPoll_spec (by decide) hw
      exact .expires hphase hp htouch hb hkey hexp
  · cases hadv
    exact .reads rfl (afterRestore_held _ _)
  · rename_i g hphase
    split at hadv
    · rename_i attempts hw
      cases hadv
      exact advances_of_mark hw
    · cases hadv
      exact .reads rfl rfl
  · rename_i g call hphase
    obtain ⟨hp, htouch⟩ := afterPoll_spec (Option.some.inj hadv)
    exact .settles hphase hp htouch
  · cases hadv
    exact .reads rfl rfl
  · cases hadv
  · cases hadv

/-! ## One poll per attempt -/

/-- The flag of an attempt is set while a call holds it, and one call at most
    holds it. -/
def Guarded (calls : List PollExecute) (a : FoldedAuthAttempt) : Prop :=
  ∀ (i : ℕ) (c : PollExecute), calls[i]? = some c → c.Holds a →
    a.pollDispatchedAt.isSome ∧
      ∀ (j : ℕ) (d : PollExecute), calls[j]? = some d → d.Holds a → j = i

variable {calls calls' : List PollExecute} {a b : FoldedAuthAttempt} {i : ℕ}

theorem guarded_of_free (h : ∀ (i : ℕ) (c : PollExecute), calls[i]? = some c → ¬ c.Holds a) :
    Guarded calls a :=
  fun i c hc hh => absurd hh (h i c hc)

theorem Guarded.mono (hg : Guarded calls a)
    (hsub : ∀ (i : ℕ) (c : PollExecute), calls'[i]? = some c → c.Holds a →
      ∃ d, calls[i]? = some d ∧ d.Holds a) :
    Guarded calls' a := by
  intro i c hc hh
  obtain ⟨d, hd, hdh⟩ := hsub i c hc hh
  obtain ⟨hflag, hone⟩ := hg i d hd hdh
  refine ⟨hflag, fun j e he heh => ?_⟩
  obtain ⟨f, hf, hfh⟩ := hsub j e he heh
  exact hone j f hf hfh

theorem PollExecute.Holds.of_key (h : c.Holds a)
    (hs : b.stateHash = a.stateHash) (hg : b.generation = a.generation) : c.Holds b :=
  ⟨h.1.trans hs.symm, h.2.trans (congrArg some hg.symm)⟩

theorem Guarded.free (hg : Guarded calls a) (hflag : a.pollDispatchedAt = none) :
    ∀ (i : ℕ) (c : PollExecute), calls[i]? = some c → ¬ c.Holds a := by
  intro i c hc hh
  have hset := (hg i c hc hh).1
  rw [hflag] at hset
  cases hset

theorem getElem?_setPhase {j : ℕ} {d : PollExecute}
    (h : (calls.set i { c with phase := p })[j]? = some d) :
    j = i ∧ d = { c with phase := p } ∨ j ≠ i ∧ calls[j]? = some d := by
  rw [List.getElem?_set] at h
  split at h
  · rename_i hij
    split at h
    · exact .inl ⟨hij.symm, (Option.some.inj h).symm⟩
    · cases h
  · rename_i hij
    exact .inr ⟨fun hji => hij hji.symm, h⟩

theorem Guarded.release (hg : Guarded calls a) (hp : p.held? = none) :
    Guarded (calls.set i { c with phase := p }) a := by
  refine hg.mono fun j d hd hh => ?_
  rcases getElem?_setPhase hd with ⟨-, rfl⟩ | ⟨-, hd⟩
  · exact absurd (hp.symm.trans hh.2) (by simp)
  · exact ⟨d, hd, hh⟩

/-- The pending attempts are guarded. -/
def PollInvariant (s : PollState) : Prop :=
  ∀ a ∈ s.db.attempts, a.status = .pending → Guarded s.calls a

/-- The condition on an event: an `expire` finds its pending attempt expired by
    the database clock or without its flag, and a new attempt does not take the
    state hash of a call that holds one. -/
def pollSafe (s : PollState) : PollEvent → Bool
  | .advance i _ dbNow => match s.calls[i]? with
    | some ⟨h, _, .expiring g⟩ => s.db.attempts.all fun a =>
        !a.pendingAs h g || decide (a.expiresAt ≤ dbNow) || a.pollDispatchedAt.isNone
    | _ => true
  | .start q _ => s.calls.all fun c => c.stateHash != q.stateHash || c.phase.held?.isNone
  | _ => true

variable {s t : PollState}

/-- **A repository operation keeps the pending attempts guarded**, also an
    `expire` that meets the condition. -/
theorem pollInvariant_advance (hinv : PollInvariant s) (hc : s.calls[i]? = some c)
    {db' : Database} {p : PollPhase} (hadv : Advances c s.db dbNow db' p)
    (hsafe : pollSafe s (.advance i taskId dbNow)) : PollInvariant (s.setPhase i c db' p) := by
  intro a ha hs
  cases hadv with
  | reads hattempts hp => exact (hinv a (hattempts ▸ ha) hs).release hp
  | @marks g b hb hkey hflag hnew =>
    have hbkey := pendingAs_iff.1 hkey
    rcases hnew a ha hs with ⟨hakey, haflag⟩ | ⟨hold, hne⟩
    · -- nobody held the attempt, so the marking call is the only one now
      have hakey := pendingAs_iff.1 hakey
      have hfree := (hinv b hb hbkey.2.2).free hflag
      have hone : ∀ (j : ℕ) (d : PollExecute),
          (s.setPhase i c db' (.polling g)).calls[j]? = some d → d.Holds a → j = i := by
        intro j d hd hh
        rcases getElem?_setPhase hd with ⟨rfl, -⟩ | ⟨-, hd⟩
        · rfl
        · exact absurd (hh.of_key (hbkey.1.trans hakey.1.symm) (hbkey.2.1.trans hakey.2.1.symm))
            (hfree j d hd)
      intro j d hd hh
      refine ⟨haflag, fun k e he heh => ?_⟩
      exact (hone k e he heh).trans (hone j d hd hh).symm
    · refine (hinv a hold hs).mono fun j d hd hh => ?_
      rcases getElem?_setPhase hd with ⟨-, rfl⟩ | ⟨-, hd⟩
      · refine absurd (pendingAs_iff.2 ⟨hh.1.symm, ?_, hs⟩) hne
        exact (Option.some.inj hh.2).symm
      · exact ⟨d, hd, hh⟩
  | @expires _ g b hphase hp htouch hb hkey hexp =>
    rcases htouch a ha hs with hold | ⟨hakey, -⟩
    · exact (hinv a hold hs).release hp
    · -- the attempt is still pending, so the condition says that it had no flag
      have hbkey := pendingAs_iff.1 hkey
      have hak := pendingAs_iff.1 hakey
      have hflag : b.pollDispatchedAt = none := by
        obtain ⟨h, before, phase⟩ := c
        cases hphase
        simp only [pollSafe, hc, List.all_eq_true, Bool.or_eq_true, Bool.not_eq_true',
          decide_eq_true_eq, Option.isNone_iff_eq_none] at hsafe
        rcases hsafe b hb with (hn | he) | hflag
        · exact absurd hkey (by rw [hn]; simp)
        · exact absurd hakey (hexp he a ha)
        · exact hflag
      refine Guarded.release (guarded_of_free fun j d hd hh => ?_) hp
      exact (hinv b hb hbkey.2.2).free hflag j d hd
        (hh.of_key (hbkey.1.trans hak.1.symm) (hbkey.2.1.trans hak.2.1.symm))
  | @settles _ g call hphase hp htouch =>
    rcases htouch a ha hs with hold | ⟨hakey, b, hb, hkey⟩
    · exact (hinv a hold hs).release hp
    · -- the call held the attempt, so it is the only one that did
      have hbkey := pendingAs_iff.1 hkey
      have hak := pendingAs_iff.1 hakey
      have hholds : c.Holds b := ⟨hbkey.1.symm, by rw [hphase, hbkey.2.1]; rfl⟩
      have hone := (hinv b hb hbkey.2.2 i c hc hholds).2
      refine guarded_of_free fun j d hd hh => ?_
      rcases getElem?_setPhase hd with ⟨-, rfl⟩ | ⟨hji, hd⟩
      · exact absurd (hp.symm.trans hh.2) (by simp)
      · exact hji (hone j d hd
          (hh.of_key (hbkey.1.trans hak.1.symm) (hbkey.2.1.trans hak.2.1.symm)))

variable {attempts : List FoldedAuthAttempt}

section
variable (hinv : PollInvariant s)
include hinv

theorem pollInvariant_of_subset (hsub : ∀ a ∈ attempts, a.status = .pending → a ∈ s.db.attempts) :
    PollInvariant { s with db := { s.db with attempts } } :=
  fun a ha hs => hinv a (hsub a ha hs) hs

theorem pollInvariant_renew {h : StateHash} {g : ℕ}
    (hw : renewPollDispatch s.db.attempts h g dbNow = some attempts) :
    PollInvariant { s with db := { s.db with attempts } } := by
  unfold renewPollDispatch at hw
  dsimp only at hw
  split at hw
  · cases hw
    intro a ha hs
    obtain ⟨b, hb, ⟨-, rfl⟩ | ⟨-, rfl⟩⟩ := Table.mem_updateWhere.1 ha
    · -- only the time of the flag changes
      intro i c hc hh
      exact ⟨rfl, (hinv b hb hs i c hc ⟨hh.1, hh.2⟩).2⟩
    · exact hinv a hb hs
  · cases hw

theorem pollInvariant_purge (hw : purgeTerminalBefore s.db.attempts dbNow = some attempts) :
    PollInvariant { s with db := { s.db with attempts } } := by
  obtain ⟨purgeAfter, -, rfl⟩ := Option.map_eq_some_iff.1 hw
  refine pollInvariant_of_subset hinv fun a ha hs => ?_
  have hkeep : ∀ {status : FoldedAuthStatus} {p : FoldedAuthAttempt → Bool}
      {l : List FoldedAuthAttempt}, status ≠ .pending →
      a ∈ Table.updateWhere p (·.terminalized status dbNow purgeAfter) l → a ∈ l := by
    intro status p l hne ha
    obtain ⟨b, hb, ⟨-, rfl⟩ | ⟨-, rfl⟩⟩ := Table.mem_updateWhere.1 ha
    · exact absurd hs hne
    · exact hb
  exact hkeep (by decide) (hkeep (by decide) (List.mem_filter.1 ha).1)

theorem pollInvariant_start {q : StartFoldedAuthAttempt} {db : Database}
    (hrun : (Admission.startOrRotate q dbNow).program.run s.db = some db)
    (hsafe : pollSafe s (.start q dbNow)) : PollInvariant { s with db } := by
  obtain ⟨-, hwrite⟩ := Transactions.Program.run_eq_some.1 hrun
  obtain ⟨attempts, hw, rfl⟩ := Option.map_eq_some_iff.1 hwrite
  obtain ⟨a, rotated, rfl, -, -, hhash, -, hrot⟩ := startOrRotate_spec hw
  intro b hb hs
  rcases List.mem_cons.1 hb with rfl | hb
  · refine guarded_of_free fun i c hc hh => ?_
    simp only [pollSafe, List.all_eq_true, Bool.or_eq_true, bne_iff_ne,
      Option.isNone_iff_eq_none] at hsafe
    rcases hsafe c (List.mem_of_getElem? hc) with hne | hnone
    · exact hne (hh.1.trans hhash)
    · exact absurd (hnone.symm.trans hh.2) (by simp)
  · rcases hrot with rfl | ⟨latest, -, -, -, f, hf, rfl⟩
    · exact hinv b hb hs
    · exact hinv b (hf.pending hb hs).1 hs

/-- **Every event that meets the condition keeps the pending attempts
    guarded.** -/
theorem pollInvariant_exec {e : PollEvent} (hsafe : pollSafe s e)
    (hs : s.exec e = some t) : PollInvariant t := by
  cases e with
  | call h now =>
    cases hs
    intro a ha hp
    refine (hinv a ha hp).mono fun i c hc hh => ?_
    rw [List.getElem?_append] at hc
    split at hc
    · exact ⟨c, hc, hh⟩
    · rw [List.getElem?_singleton] at hc
      split at hc
      · cases hc
        cases hh.2
      · cases hc
  | advance i taskId dbNow =>
    obtain ⟨c, hc, hs⟩ := Option.bind_eq_some_iff.1 hs
    obtain ⟨⟨db', p⟩, hadv, rfl⟩ := Option.map_eq_some_iff.1 hs
    exact pollInvariant_advance hinv hc (advance_spec hadv) hsafe
  | pollReturns i result =>
    obtain ⟨c, hc, hs⟩ := Option.bind_eq_some_iff.1 hs
    split at hs
    · rename_i g hphase
      cases hs
      intro a ha hp
      refine (hinv a ha hp).mono fun j d hd hh => ?_
      rcases getElem?_setPhase hd with ⟨rfl, rfl⟩ | ⟨-, hd⟩
      · exact ⟨c, hc, hh.1, by rw [hphase]; exact hh.2⟩
      · exact ⟨d, hd, hh⟩
    · cases hs
  | stop i error =>
    obtain ⟨c, hc, rfl⟩ := Option.map_eq_some_iff.1 hs
    exact fun a ha hp => (hinv a ha hp).release rfl
  | renew h g dbNow =>
    obtain ⟨attempts, hw, rfl⟩ := Option.map_eq_some_iff.1 hs
    exact pollInvariant_renew hinv hw
  | purge dbNow =>
    obtain ⟨attempts, hw, rfl⟩ := Option.map_eq_some_iff.1 hs
    exact pollInvariant_purge hinv hw
  | start q dbNow =>
    obtain ⟨db, hrun, rfl⟩ := Option.map_eq_some_iff.1 hs
    exact pollInvariant_start hinv hrun hsafe

end

def PollExecute.InFlight (c : PollExecute) (h : StateHash) (g : ℕ) : Prop :=
  c.stateHash = h ∧ c.phase = .polling g

/-- **At most one poll is in flight for a pending attempt**, in every state of
    every run whose events meet `pollSafe`. -/
theorem polls_exclusive (events : List PollEvent) (s : PollState)
    (hrun : Runs.Run (Runs.restrict (Runs.ofExec PollState.exec) fun s e => pollSafe s e)
      ⟨.empty, []⟩ events s)
    (h : StateHash) (g i j : ℕ) (c d : PollExecute) (hc : s.calls[i]? = some c)
    (hd : s.calls[j]? = some d) (hci : c.InFlight h g) (hdj : d.InFlight h g)
    (hpending : s.db.attempts.any (·.pendingAs h g)) : i = j := by
  have hinv : PollInvariant s :=
    hrun.invariant (List.forall_mem_nil _)
      fun _ _ _ hi hs => pollInvariant_exec hi hs.2 hs.1
  obtain ⟨a, ha, hkey⟩ := List.any_eq_true.1 hpending
  obtain ⟨rfl, rfl, hs⟩ := pendingAs_iff.1 hkey
  have hholds : ∀ {c : PollExecute}, c.InFlight a.stateHash a.generation → c.Holds a := by
    rintro c ⟨hh, hp⟩
    exact ⟨hh, by rw [hp]; rfl⟩
  exact (hinv a ha hs j d hd (hholds hdj)).2 i c hc (hholds hci)

/-- Three calls for one attempt.  The second reads the attempt and finds it expired
    by its own clock, ten minutes ahead; the first marks it and polls; the second
    expires it, which clears the flag; a third call marks it and polls. -/
def skewedCalls : List PollEvent :=
  let id : TaskId := ⟨⟨1⟩⟩
  [.start followStart 0, .call ⟨1⟩ 0, .call ⟨1⟩ (Duration.seconds 600),
    .advance 1 id 0, .advance 0 id 0, .advance 0 id 0, .advance 0 id 0,
    .advance 1 id 0,
    .call ⟨1⟩ 0, .advance 2 id 0, .advance 2 id 0, .advance 2 id 0]

/-- After those calls, two polls are in flight for a pending attempt. -/
theorem polls_overlap : ∃ s c d, Runs.execList PollState.exec ⟨.empty, []⟩ skewedCalls = some s ∧
      s.calls[0]? = some c ∧ s.calls[2]? = some d ∧ c.InFlight ⟨1⟩ 1 ∧ d.InFlight ⟨1⟩ 1 ∧
      s.db.attempts.any (·.pendingAs ⟨1⟩ 1) := by
  have h : (Runs.execList PollState.exec ⟨.empty, []⟩ skewedCalls).isSome := rfl
  exact ⟨_, _, _, (Option.some_get h).symm, rfl, rfl, ⟨rfl, rfl⟩, ⟨rfl, rfl⟩, rfl⟩

/-- Before the second call expires the attempt, the poll of the first is the only
    one. -/
theorem first_poll_alone : ∃ s c, Runs.execList (Runs.guarded PollState.exec pollSafe) ⟨.empty, []⟩
        (skewedCalls.take 7) = some s ∧
      s.calls[0]? = some c ∧ c.InFlight ⟨1⟩ 1 ∧ s.db.attempts.any (·.pendingAs ⟨1⟩ 1) ∧
      ∀ i d, s.calls[i]? = some d → d.InFlight ⟨1⟩ 1 → i = 0 := by
  have h : (Runs.execList (Runs.guarded PollState.exec pollSafe) ⟨.empty, []⟩
    (skewedCalls.take 7)).isSome := rfl
  have hrun := Runs.run_of_guarded _ pollSafe (Option.some_get h).symm
  refine ⟨_, _, (Option.some_get h).symm, rfl, ⟨rfl, rfl⟩, rfl, fun i d hd hdi => ?_⟩
  exact polls_exclusive _ _ hrun ⟨1⟩ 1 i 0 d _ hd rfl hdi ⟨rfl, rfl⟩ rfl

end PubkyLocks
