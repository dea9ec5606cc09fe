/-
  The check of the frozen content before a lock is destroyed
  (`verify_frozen_content_with_evidence` of
  `application/use_cases/execute_content_lock_deletion_phase.rs`).

  The stores answer each call as they like: an answer is any function of the calls
  made so far, the last of which is the one that is answered.
-/
import PubkyLocks.Deletions.FrozenResources

namespace PubkyLocks

open OrderedMap

inductive TombstoneReadback where
  | exact
  | missing
  | replaced
deriving DecidableEq, Repr

inductive GuardedResourceReadback where
  | exact
  | missing
  | replaced
deriving DecidableEq, Repr

/-- `AdvanceContentLockDeletionPhaseResult`, without the advanced job. -/
inductive AdvancePhaseResult where
  | advanced
  | claimLost
  | obligationsPending
  | terminalFailure (failureCode : ContentLockDeletionFailureCode)
deriving DecidableEq, Repr

inductive DeletionPhaseExecutionOutcome where
  | progressed
  | deferred
  | claimLost
  | terminalFailed
  | transientDependencyFailure
  | fatalFailure
deriving DecidableEq, Repr

/-- The dependencies that the check observes. -/
inductive DeletionDependencySource where
  | pubkyReadback
  | pubkyResource
  | repositoryPhaseMutation
deriving DecidableEq, Repr

inductive DeletionDependencyStatus where
  | healthy
  | unavailable
deriving DecidableEq, Repr

abbrev DeletionDependencyEvidence := DeletionDependencySource → Option DeletionDependencyStatus

namespace DeletionDependencyEvidence

def none : DeletionDependencyEvidence := fun _ => .none

def observed (source : DeletionDependencySource) (status : DeletionDependencyStatus) :
    DeletionDependencyEvidence :=
  fun s => if s = source then some status else .none

def merge (a b : DeletionDependencyEvidence) : DeletionDependencyEvidence := fun source =>
  match a source, b source with
  | some .unavailable, _ | _, some .unavailable => some .unavailable
  | some status, .none | .none, some status => some status
  | some .healthy, some .healthy => some .healthy
  | .none, .none => .none

end DeletionDependencyEvidence

structure DeletionPhaseExecution where
  outcome : DeletionPhaseExecutionOutcome
  evidence : DeletionDependencyEvidence

def DeletionPhaseExecution.withEvidence (e : DeletionPhaseExecution)
    (evidence : DeletionDependencyEvidence) : DeletionPhaseExecution :=
  { e with evidence := e.evidence.merge evidence }

/-- `error_outcome`, with the classes of `classify_deletion_execution_error`. -/
def errorOutcome : ApplicationError → DeletionPhaseExecutionOutcome
  | .storage _ | .verifier _ | .creatorAuthorityUnavailable => .transientDependencyFailure
  | _ => .fatalFailure

def errorExecution (e : ApplicationError) (source : DeletionDependencySource) :
    DeletionPhaseExecution :=
  ⟨errorOutcome e, .observed source .unavailable⟩

def repositoryExecution (outcome : DeletionPhaseExecutionOutcome) : DeletionPhaseExecution :=
  match outcome with
  | .transientDependencyFailure => ⟨outcome, .observed .repositoryPhaseMutation .unavailable⟩
  | .progressed | .deferred | .terminalFailed =>
    ⟨outcome, .observed .repositoryPhaseMutation .healthy⟩
  | .claimLost | .fatalFailure => ⟨outcome, .none⟩

/-! ## Calls -/

structure ContentLockDeletionTombstone where
  lockId : LockId
  deletionStartedAt : Timestamp
deriving DecidableEq

inductive DeletionCall where
  | readTombstone (creator : CreatorPubky) (path : ContentLockPath)
      (expected : ContentLockDeletionTombstone)
  | readGuardedResourceGeneration (creator : CreatorPubky) (path : String)
      (expected : GuardedResourceHash)
  | advancePhase (l : JobLease) (next : ContentLockDeletionPhase)
  | finish (l : JobLease) (failureCode : Option ContentLockDeletionFailureCode)
deriving DecidableEq

structure DeletionStores where
  readTombstone : List DeletionCall → Except ApplicationError TombstoneReadback
  readGuardedResourceGeneration :
    List DeletionCall → Except ApplicationError GuardedResourceReadback
  advancePhase : List DeletionCall → Except ApplicationError AdvancePhaseResult
  /-- Whether there was a job to finish. -/
  finish : List DeletionCall → Except ApplicationError Bool

/-- What an execution gives: its result and the calls that were made. -/
abbrev Executed (α : Type) := α × List DeletionCall

section
variable (D : DeletionStores) (l : JobLease) (job : DeletionJob)

def finishTerminal (failureCode : ContentLockDeletionFailureCode) (calls : List DeletionCall) :
    Executed DeletionPhaseExecutionOutcome :=
  let calls := calls ++ [.finish l (some failureCode)]
  match D.finish calls with
  | .ok true => (.terminalFailed, calls)
  | .ok false => (.claimLost, calls)
  | .error e => (errorOutcome e, calls)

def advanceDeletion (next : ContentLockDeletionPhase) (calls : List DeletionCall) :
    Executed DeletionPhaseExecutionOutcome :=
  let calls := calls ++ [.advancePhase l next]
  match D.advancePhase calls with
  | .ok .advanced => (.progressed, calls)
  | .ok .claimLost => (.claimLost, calls)
  | .ok .obligationsPending => (.deferred, calls)
  | .ok (.terminalFailure failureCode) => finishTerminal D l failureCode calls
  | .error e => (errorOutcome e, calls)

def readTombstoneCall : DeletionCall :=
  .readTombstone job.creator ⟨job.lockId⟩ ⟨job.lockId, job.deletionStartedAt⟩

def readResourceCall (r : String × GuardedResourceHash) : DeletionCall :=
  .readGuardedResourceGeneration job.creator r.1 r.2

/-- A repository operation, with the evidence of the reads before it. -/
def mutated (evidence : DeletionDependencyEvidence)
    (r : Executed DeletionPhaseExecutionOutcome) : Executed DeletionPhaseExecution :=
  (((repositoryExecution r.1).withEvidence (.observed .pubkyReadback .healthy)).withEvidence
    evidence, r.2)

/-- The `match` on a readback of the tombstone, in the loop and after it. -/
def checkTombstone (evidence : DeletionDependencyEvidence)
    (exact : List DeletionCall → Executed DeletionPhaseExecution) (calls : List DeletionCall) :
    Executed DeletionPhaseExecution :=
  let calls := calls ++ [readTombstoneCall job]
  match D.readTombstone calls with
  | .ok .exact => exact calls
  | .ok .missing => mutated evidence (finishTerminal D l .tombstoneMissing calls)
  | .ok .replaced => mutated evidence (finishTerminal D l .tombstoneReplaced calls)
  | .error e => ((errorExecution e .pubkyReadback).withEvidence evidence, calls)

/-- The loop over the frozen resources and what follows it. -/
def verifyResources (resourceWasRead : Bool) : List (String × GuardedResourceHash) →
    List DeletionCall → Executed DeletionPhaseExecution
  | [] =>
    let evidence := if resourceWasRead then .observed .pubkyResource .healthy else .none
    checkTombstone D l job evidence fun calls =>
      mutated evidence (advanceDeletion D l .deleteTombstone calls)
  | r :: rs => checkTombstone D l job .none fun calls =>
    let calls := calls ++ [readResourceCall job r]
    let evidence := DeletionDependencyEvidence.observed .pubkyResource .healthy
    match D.readGuardedResourceGeneration calls with
    | .ok .exact => verifyResources true rs calls
    | .ok .missing => mutated evidence (finishTerminal D l .stateCorrupt calls)
    | .ok .replaced => mutated evidence (finishTerminal D l .resourceReplaced calls)
    | .error e => ((errorExecution e .pubkyResource).withEvidence
        (.observed .pubkyReadback .healthy), calls)

def verifyFrozenContentWithEvidence : Executed DeletionPhaseExecution :=
  verifyResources D l job false (frozenResources job.frozenContentLock) []

/-! ## The plan -/

/-- The reads of the check: the tombstone before each resource and after the last. -/
def plannedReads (resources : List (String × GuardedResourceHash)) : List DeletionCall :=
  resources.flatMap (fun r => [readTombstoneCall job, readResourceCall job r]) ++
    [readTombstoneCall job]

/-- The answer to the last of the reads: none if it was exact, or the code of its
    failure. -/
def readAnswer (calls : List DeletionCall) :
    Except ApplicationError (Option ContentLockDeletionFailureCode) :=
  match calls.getLast? with
  | some (.readGuardedResourceGeneration _ _ _) =>
    (D.readGuardedResourceGeneration calls).map fun
      | .exact => none
      | .missing => some .stateCorrupt
      | .replaced => some .resourceReplaced
  | _ => (D.readTombstone calls).map fun
    | .exact => none
    | .missing => some .tombstoneMissing
    | .replaced => some .tombstoneReplaced

/-- The calls of a check that makes its reads in order, up to the first that is not
    exact. -/
def runReads : List DeletionCall → List DeletionCall → List DeletionCall
  | done, [] => (advanceDeletion D l .deleteTombstone done).2
  | done, c :: reads => match readAnswer D (done ++ [c]) with
    | .ok none => runReads (done ++ [c]) reads
    | .ok (some failureCode) => (finishTerminal D l failureCode (done ++ [c])).2
    | .error _ => done ++ [c]

end

variable {D : DeletionStores} {l : JobLease} {job : DeletionJob} {done reads : List DeletionCall}
  {lock : ContentLock}

theorem calls_finishTerminal (code : ContentLockDeletionFailureCode) (calls : List DeletionCall) :
    (finishTerminal D l code calls).2 = calls ++ [.finish l (some code)] := by
  unfold finishTerminal
  dsimp only
  split <;> rfl

theorem calls_checkTombstone (evidence : DeletionDependencyEvidence)
    (exact : List DeletionCall → Executed DeletionPhaseExecution)
    (h : (exact (done ++ [readTombstoneCall job])).2 =
      runReads D l (done ++ [readTombstoneCall job]) reads) :
    (checkTombstone D l job evidence exact done).2 =
      runReads D l done (readTombstoneCall job :: reads) := by
  rw [runReads, readAnswer, List.getLast?_concat]
  simp only [checkTombstone, readTombstoneCall] at h ⊢
  cases D.readTombstone _ with
  | error e => rfl
  | ok a =>
    cases a with
    | exact => exact h
    | missing => rfl
    | replaced => rfl

/-- **The executor follows the plan.** -/
theorem calls_verifyResources (wasRead : Bool) (resources : List (String × GuardedResourceHash))
    (done : List DeletionCall) : (verifyResources D l job wasRead resources done).2 =
      runReads D l done (plannedReads job resources) := by
  induction resources generalizing wasRead done with
  | nil => exact calls_checkTombstone _ _ rfl
  | cons r rs ih =>
    refine calls_checkTombstone _ _ ?_
    show _ = runReads D l _ (readResourceCall job r :: plannedReads job rs)
    rw [runReads, readAnswer, List.getLast?_concat]
    simp only [readResourceCall]
    cases D.readGuardedResourceGeneration _ with
    | error e => rfl
    | ok a =>
      cases a with
      | exact => exact ih true _
      | missing => rfl
      | replaced => rfl

theorem runReads_of_exact {n : ℕ} (hn : n ≤ reads.length)
    (h : ∀ k < n, readAnswer D (done ++ reads.take (k + 1)) = .ok none) :
    runReads D l done reads = runReads D l (done ++ reads.take n) (reads.drop n) := by
  induction reads generalizing done n with
  | nil =>
    obtain rfl : n = 0 := by simpa using hn
    simp
  | cons c reads ih =>
    cases n with
    | zero => simp
    | succ n =>
      have hfirst := h 0 (Nat.succ_pos n)
      rw [List.take_succ_cons, List.take_zero] at hfirst
      have hrest : ∀ k < n, readAnswer D (done ++ [c] ++ reads.take (k + 1)) = .ok none := by
        intro k hk
        simpa using h (k + 1) (Nat.succ_lt_succ hk)
      rw [runReads, hfirst]
      dsimp only
      rw [ih (Nat.le_of_succ_le_succ hn) hrest]
      simp

theorem runReads_of_first {n : ℕ} (hn : n < reads.length)
    (h : ∀ k < n, readAnswer D (reads.take (k + 1)) = .ok none) :
    (∀ code, readAnswer D (reads.take (n + 1)) = .ok (some code) →
      runReads D l [] reads = reads.take (n + 1) ++ [.finish l (some code)]) ∧
    ∀ e, readAnswer D (reads.take (n + 1)) = .error e →
      runReads D l [] reads = reads.take (n + 1) := by
  have hstart : runReads D l [] reads = runReads D l (reads.take n) (reads.drop n) := by
    rw [runReads_of_exact hn.le (by simpa using h), List.nil_append]
  rw [hstart, List.drop_eq_getElem_cons hn, runReads, List.take_append_getElem hn]
  constructor
  · intro code hcode
    rw [hcode]
    exact calls_finishTerminal code _
  · intro e he
    rw [he]

theorem calls_advanceDeletion (next : ContentLockDeletionPhase) (calls : List DeletionCall) :
    ∃ after, (advanceDeletion D l next calls).2 = calls ++ .advancePhase l next :: after ∧
      ∀ c ∈ after, ∃ code, c = .finish l code := by
  simp only [advanceDeletion]
  split
  case h_4 code _ =>
    refine ⟨[.finish l (some code)], ?_, ?_⟩
    · rw [calls_finishTerminal, List.append_assoc]
      rfl
    · simp
  all_goals exact ⟨[], rfl, by simp⟩

theorem isRead_of_planned {resources : List (String × GuardedResourceHash)} {c : DeletionCall}
    (h : c ∈ plannedReads job resources) :
    c = readTombstoneCall job ∨ ∃ r ∈ resources, c = readResourceCall job r := by
  simp only [plannedReads, List.mem_append, List.mem_flatMap, List.mem_cons,
    List.not_mem_nil, or_false] at h
  rcases h with ⟨r, hr, rfl | rfl⟩ | rfl
  · exact .inl rfl
  · exact .inr ⟨r, hr, rfl⟩
  · exact .inl rfl

/-- The map holds the hash that is frozen for a path, also if the primary resource has
    overwritten a secondary one. -/
theorem mem_frozenResources_of_lookup {path : String} {r : GuardedResource}
    (h : lookupResource lock.primaryResource lock.secondaryResources path = some r) :
    (path, r.hash) ∈ frozenResources lock := by
  obtain ⟨hsorted, hmem⟩ := mem_insertAll (m := []) List.Pairwise.nil
    lock.secondaryResources.orderedSorted.nodup (fun _ _ _ hx => absurd hx List.not_mem_nil)
  have hsecondary : ∀ {r : GuardedResource},
      (lock.secondaryResources.get? path).map
        (fun s => (⟨path, s.hash, s.contentType, s.size⟩ : GuardedResource)) = some r →
      (path, r.hash) ∈ lock.secondaryResources.entries.foldl
        (fun m e => insert e.1 e.2.hash m) [] := by
    intro r hr
    obtain ⟨s, hs, rfl⟩ := Option.map_eq_some_iff.1 hr
    exact (hmem _).2 (.inr ⟨_, SecondaryResources.get?_eq_some.1 hs, rfl⟩)
  unfold frozenResources
  unfold lookupResource at h
  cases hp : lock.primaryResource with
  | none =>
    rw [hp] at h
    exact hsecondary h
  | some p =>
    simp only [hp] at h
    refine (mem_insert hsorted).2 ?_
    split at h
    · rename_i hpath
      cases h
      exact .inl (by rw [hpath])
    · rename_i hpath
      exact .inr ⟨hsecondary h, fun heq => hpath heq.symm⟩

/-- **The destructive phases need the exact content.**  The check reads the tombstone,
    each frozen resource after it, and the tombstone again, and asks for the advance only
    after every one of these reads was exact.  The first that is not ends it: with the
    code of a missing or replaced readback in `finish`, and without any further call on an
    error.  Every path of the frozen lock is read with the hash frozen for it. -/
theorem frozen_content_verified (D : DeletionStores) (l : JobLease) (job : DeletionJob) :
    let calls := (verifyFrozenContentWithEvidence D l job).2
    let reads := plannedReads job (frozenResources job.frozenContentLock)
    (∀ l' next, .advancePhase l' next ∈ calls → l' = l ∧ next = .deleteTombstone ∧
      (∃ after, calls = reads ++ .advancePhase l next :: after) ∧
      ∀ k < reads.length, readAnswer D (reads.take (k + 1)) = .ok none) ∧
    (∀ n < reads.length, (∀ k < n, readAnswer D (reads.take (k + 1)) = .ok none) →
      (∀ code, readAnswer D (reads.take (n + 1)) = .ok (some code) →
        calls = reads.take (n + 1) ++ [.finish l (some code)]) ∧
      ∀ e, readAnswer D (reads.take (n + 1)) = .error e → calls = reads.take (n + 1)) ∧
    ∀ path r, lookupResource job.frozenContentLock.primaryResource
        job.frozenContentLock.secondaryResources path = some r →
      .readGuardedResourceGeneration job.creator path r.hash ∈ reads := by
  intro calls reads
  have hcalls : calls = runReads D l [] reads := calls_verifyResources _ _ _
  have hnone : ∀ {l' next}, .advancePhase l' next ∉ reads := by
    intro l' next hmem
    rcases isRead_of_planned hmem with h | ⟨r, -, h⟩ <;> cases h
  refine ⟨fun l' next hadvance => ?_, fun n hn h => hcalls ▸ runReads_of_first hn h,
    fun path r h => ?_⟩
  · by_cases hall : ∀ k < reads.length, readAnswer D (reads.take (k + 1)) = .ok none
    · obtain ⟨after, hafter, hfinish⟩ := calls_advanceDeletion (D := D) (l := l) .deleteTombstone reads
      have hrun : calls = reads ++ .advancePhase l .deleteTombstone :: after := by
        rw [hcalls, runReads_of_exact le_rfl (by simpa using hall), List.take_length,
          List.drop_length, List.nil_append, runReads, hafter]
      rw [hrun, List.mem_append, List.mem_cons] at hadvance
      rcases hadvance with hmem | heq | hmem
      · exact absurd hmem hnone
      · cases heq
        exact ⟨rfl, rfl, ⟨after, hrun⟩, hall⟩
      · obtain ⟨code, hcode⟩ := hfinish _ hmem
        cases hcode
    · -- the first read that is not exact ends the check
      push Not at hall
      classical
      obtain ⟨hn, hfail⟩ := Nat.find_spec hall
      have hfirst : ∀ k < Nat.find hall, readAnswer D (reads.take (k + 1)) = .ok none := by
        intro k hk
        by_contra hne
        exact Nat.find_min hall hk ⟨hk.trans hn, hne⟩
      obtain ⟨hcode, herror⟩ := runReads_of_first (l := l) hn hfirst
      exfalso
      rcases hanswer : readAnswer D (reads.take (Nat.find hall + 1)) with e | _ | code
      · rw [hcalls, herror e hanswer] at hadvance
        exact hnone (List.mem_of_mem_take hadvance)
      · exact hfail hanswer
      · rw [hcalls, hcode code hanswer, List.mem_append] at hadvance
        rcases hadvance with hmem | hmem
        · exact hnone (List.mem_of_mem_take hmem)
        · cases List.mem_singleton.1 hmem
  · exact List.mem_append_left _ (List.mem_flatMap.2
      ⟨_, mem_frozenResources_of_lookup h, List.mem_cons_of_mem _ List.mem_cons_self⟩)

end PubkyLocks
