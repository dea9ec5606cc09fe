/-
  The durable evaluator state of graph tasks (`application/models/graph0conf.rs`):
  predicate observations, the root state, validation of a snapshot and of the
  progress from one snapshot to the next, and the terminal root that the
  observations allow.

  `GraphTaskSnapshotV1.Valid` lists what a validated snapshot satisfies, and
  `new_spec` says what an admission starts with.
-/
import PubkyLocks.Tasks.Record

namespace PubkyLocks

open Checks

def GRAPH_TASK_SNAPSHOT_VERSION : ℕ := 1

inductive GraphObservationOutcome where
  | true_
  | false_
  | dependencyUnavailable
deriving DecidableEq, Repr

inductive GraphDeadlineResult where
  | false_
  | dependencyUnavailable
deriving DecidableEq, Repr

inductive GraphOperationalErrorCategory where
  | redirect
  | rateLimited
  | nonSuccess
  | timeout
  | transport
deriving DecidableEq, Repr

/-- The evaluation result of a graph task. -/
inductive GraphRootState where
  | pending
  | satisfied
  | expired (result : GraphDeadlineResult)
  | failedInvalidResponse
deriving DecidableEq, Repr

namespace GraphRootState

def terminalStatus : GraphRootState → Option VerificationTaskStatus
  | pending => none
  | satisfied => some .publishingEntitlement
  | expired .false_ => some .expired
  | expired .dependencyUnavailable | failedInvalidResponse => some .failed

def terminalReason : GraphRootState → Option VerificationTerminalReason
  | pending | satisfied => none
  | expired .false_ => some .graphConditionNotObservedByDeadline
  | expired .dependencyUnavailable => some .verificationUnavailableByDeadline
  | failedInvalidResponse => some .invalidVerifierResponse

end GraphRootState

structure GraphPredicateObservation where
  outcome : GraphObservationOutcome
  observedAt : Timestamp
  origin : Option String
  httpStatus : Option ℕ
deriving DecidableEq, Repr

structure GraphPredicateState where
  predicate : GraphPredicateV2
  latestObservation : Option GraphPredicateObservation
  firstTrueObservation : Option GraphPredicateObservation
  nextDueAt : Option Timestamp
  operationalFailureCount : ℕ
  operationalFailureTotal : ℕ
  operationalFirstFailureAt : Option Timestamp
  operationalLastFailureAt : Option Timestamp
  operationalLastCategory : Option GraphOperationalErrorCategory
  operationalLastHttpStatus : Option ℕ
  terminalInvalid : Bool
deriving DecidableEq, Repr

structure GraphTaskSnapshotV1 where
  schemaVersion : ℕ
  creator : CreatorPubky
  bundleId : BundleId
  pubkyLockResource : PubkyLockResource
  lockHash : LockHash
  reader : CreatorPubky
  acceptedAt : Timestamp
  deadlineAt : Timestamp
  operator : Option GraphOperatorV2
  predicates : List GraphPredicateState
  root : GraphRootState
deriving DecidableEq

/-! ## Predicates -/

namespace GraphPredicateState

def new (p : GraphPredicateV2) : GraphPredicateState where
  predicate := p
  latestObservation := none
  firstTrueObservation := none
  nextDueAt := none
  operationalFailureCount := 0
  operationalFailureTotal := 0
  operationalFirstFailureAt := none
  operationalLastFailureAt := none
  operationalLastCategory := none
  operationalLastHttpStatus := none
  terminalInvalid := false

/-- The stored observations of a predicate, latest first. -/
def observations (s : GraphPredicateState) : List GraphPredicateObservation :=
  s.latestObservation.toList ++ s.firstTrueObservation.toList

def originBlank (o : GraphPredicateObservation) : Bool :=
  o.origin.any fun t => Text.trim t == ""

/-- The checks on each stored observation in `GraphPredicateState::validate`. -/
def validateObservation (acceptedAt deadlineAt : Timestamp) (o : GraphPredicateObservation) :
    Except String Unit :=
  if o.observedAt < acceptedAt ∨ o.observedAt > deadlineAt then
    .error "stored graph observation falls outside task window"
  else if originBlank o then .error "stored Nexus observation origin is empty"
  else if o.httpStatus.isSome && o.origin.isNone then
    .error "stored Nexus HTTP status lacks origin"
  else .ok ()

/-- The operational aggregate of `GraphPredicateState::validate`. -/
def validateAggregate (s : GraphPredicateState) (acceptedAt deadlineAt : Timestamp) :
    Except String Unit :=
  if s.operationalFailureTotal = 0 then
    if s.operationalFailureCount ≠ 0 || s.operationalFirstFailureAt.isSome ||
        s.operationalLastFailureAt.isSome || s.operationalLastCategory.isSome ||
        s.operationalLastHttpStatus.isSome then
      .error "graph operational error aggregate is inconsistent"
    else .ok ()
  else match s.operationalFirstFailureAt, s.operationalLastFailureAt, s.operationalLastCategory with
    | some first, some last, some _ =>
      if s.operationalFailureCount > s.operationalFailureTotal ∨ first < acceptedAt ∨
          last > deadlineAt ∨ first > last then
        .error "graph operational error aggregate is invalid"
      else .ok ()
    | _, _, _ => .error "graph operational error aggregate is incomplete"

def terminalEvidence (s : GraphPredicateState) : Bool :=
  s.latestObservation.any fun o =>
    o.outcome == .dependencyUnavailable && o.origin.any (fun t => Text.trim t != "") &&
      o.httpStatus.isSome

/-- The sticky-evidence checks of `GraphPredicateState::validate`. -/
def validateSticky (s : GraphPredicateState) : Except String Unit := do
  refuse (s.firstTrueObservation.any fun o => o.outcome != .true_)
    "sticky graph observation is not true"
  refuse (s.latestObservation.any fun o => o.outcome == .true_ && s.firstTrueObservation.isNone)
    "latest true graph observation lacks sticky evidence"
  match s.firstTrueObservation, s.latestObservation with
  | some _, none => .error "sticky true graph observation lacks latest evidence"
  | some first, some latest =>
    refuse (first.observedAt > latest.observedAt ∨
        (first.observedAt = latest.observedAt ∧ first.outcome ≠ latest.outcome))
      "sticky true graph observation diverges from latest evidence"
  | none, _ => .ok ()

def validate (s : GraphPredicateState) (acceptedAt deadlineAt : Timestamp) :
    Except String Unit := do
  checkAll (validateObservation acceptedAt deadlineAt) s.observations
  s.validateAggregate acceptedAt deadlineAt
  refuse (s.terminalInvalid && (!s.terminalEvidence || s.firstTrueObservation.isSome ||
      s.nextDueAt.isSome || s.operationalFailureCount ≠ 0))
    "terminal-invalid graph predicate lacks matching unavailable Nexus evidence"
  s.validateSticky
  refuse (s.nextDueAt.any fun due => due > deadlineAt)
    "graph predicate next due time exceeds task deadline"

end GraphPredicateState

/-! ## Truth tables -/

inductive TerminalPredicateTruth where
  | true_
  | false_
  | unavailable
  | invalid
deriving DecidableEq, Repr

/-- The truth of one predicate once the deadline has passed. -/
def GraphPredicateState.terminalTruth (s : GraphPredicateState) : TerminalPredicateTruth :=
  if s.firstTrueObservation.isSome then .true_
  else if s.terminalInvalid then .invalid
  else match s.latestObservation.map GraphPredicateObservation.outcome with
    | some .true_ => .true_
    | some .dependencyUnavailable => .unavailable
    | some .false_ | none => .false_

/-- The operator applied to the predicates of a task.  Without an operator
    the source indexes the first value. -/
def combineTerminal (operator : Option GraphOperatorV2) (values : List TerminalPredicateTruth) :
    TerminalPredicateTruth :=
  match operator with
  | none => values.headD .false_
  | some .and =>
    if values.contains .false_ then .false_
    else if values.contains .invalid then .invalid
    else if values.contains .unavailable then .unavailable
    else .true_
  | some .or =>
    if values.contains .true_ then .true_
    else if values.contains .invalid then .invalid
    else if values.contains .unavailable then .unavailable
    else .false_

namespace GraphTaskSnapshotV1

def terminalRootFromObservations (s : GraphTaskSnapshotV1) : GraphRootState :=
  match combineTerminal s.operator (s.predicates.map GraphPredicateState.terminalTruth) with
  | .true_ => .satisfied
  | .false_ => .expired .false_
  | .unavailable => .expired .dependencyUnavailable
  | .invalid => .failedInvalidResponse

/-! ## Validation -/

def validate (s : GraphTaskSnapshotV1) : Except String Unit := do
  refuse (s.schemaVersion ≠ GRAPH_TASK_SNAPSHOT_VERSION)
    "unsupported graph task snapshot schema_version"
  refuse (s.deadlineAt < s.acceptedAt) "graph task deadline precedes acceptance"
  refuse (!s.acceptedAt.isMicrosecond || !s.deadlineAt.isMicrosecond)
    "graph task acceptance and deadline must use microsecond precision"
  let window : Duration := s.deadlineAt - s.acceptedAt
  refuse (!(60 ≤ window.wholeSeconds && window.wholeSeconds ≤ 604800) ||
      window ≠ Duration.seconds window.wholeSeconds)
    "graph task verification window must be whole seconds in 60..=604800"
  refuse (s.pubkyLockResource.creator ≠ s.creator) "graph task creator diverges from lock resource"
  refuse (s.pubkyLockResource.lockId ≠ LockId.fromHash s.lockHash)
    "graph task lock hash diverges from lock resource"
  refuse (!(1 ≤ s.predicates.length && s.predicates.length ≤ 8))
    "graph task must contain 1..=8 predicates"
  refuse ((s.predicates.length == 1) != s.operator.isNone)
    "graph task operator does not match predicate cardinality"
  refuse (!decide (s.predicates.map (·.predicate)).Nodup)
    "graph task contains duplicate predicates"
  checkAll (fun p => p.validate s.acceptedAt s.deadlineAt) s.predicates
  refuse (s.root ≠ .pending ∧ s.root ≠ s.terminalRootFromObservations)
    "graph task terminal root diverges from observations"

def validatePristineAdmission (s : GraphTaskSnapshotV1) : Except String Unit := do
  s.validate
  refuse (s.root ≠ .pending || s.predicates.any fun p =>
      p.latestObservation.isSome || p.firstTrueObservation.isSome || p.nextDueAt.isSome ||
        p.operationalFailureCount ≠ 0 || p.terminalInvalid)
    "new graph task snapshot must be pristine and pending"

def validateObservationsNotAfter (s : GraphTaskSnapshotV1) (now : Timestamp) : Except String Unit :=
  if s.predicates.any fun p => p.observations.any fun o => o.observedAt > now then
    .error "graph observation is later than evaluation time"
  else .ok ()

def validateLatestProgress : Option GraphPredicateObservation → Option GraphPredicateObservation →
    Except String Unit
  | some _, none => .error "graph snapshot replacement erased latest observation"
  | some current, some next => do
    refuse (next.observedAt < current.observedAt)
      "graph snapshot replacement regressed observation time"
    refuse (next.observedAt = current.observedAt ∧ next ≠ current)
      "graph snapshot replacement changed equal-time observation"
  | none, _ => .ok ()

def validatePredicateProgress (current next : GraphPredicateState) : Except String Unit := do
  refuse (current.terminalInvalid && !next.terminalInvalid)
    "graph snapshot replacement cleared terminal-invalid state"
  refuse (current.firstTrueObservation.isSome ∧
      current.firstTrueObservation ≠ next.firstTrueObservation)
    "graph snapshot replacement changed sticky true evidence"
  validateLatestProgress current.latestObservation next.latestObservation
  refuse (current.firstTrueObservation.isNone ∧ next.firstTrueObservation.isSome ∧
      next.firstTrueObservation ≠ next.latestObservation)
    "sticky true evidence must originate from the latest observation transition"

def validateProgressFrom (s current : GraphTaskSnapshotV1) : Except String Unit := do
  current.validate
  s.validate
  refuse (current.root ≠ .pending) "terminal graph task snapshot cannot be replaced"
  refuse (current.predicates.map (·.predicate) ≠ s.predicates.map (·.predicate))
    "graph snapshot replacement changed predicate shape"
  checkAll (fun p => validatePredicateProgress p.1 p.2) (current.predicates.zip s.predicates)

/-- The fields of a snapshot that `ensure_same_binding` compares. -/
def binding (s : GraphTaskSnapshotV1) :=
  (s.creator, s.bundleId, s.pubkyLockResource, s.lockHash, s.reader, s.acceptedAt, s.deadlineAt,
    s.operator, s.predicates.map (·.predicate))

def new (creator : CreatorPubky) (bundleId : BundleId) (resource : PubkyLockResource)
    (lockHash : LockHash) (reader : CreatorPubky) (acceptedAt : Timestamp) (windowSeconds : ℕ)
    (graph : GraphPolicyV2) : Except String GraphTaskSnapshotV1 := do
  refuse (!(60 ≤ windowSeconds && windowSeconds ≤ 604800))
    "verification window must be in 60..=604800 seconds"
  match acceptedAt.checkedAdd (Duration.seconds windowSeconds) with
  | none => .error "verification deadline overflow"
  | some deadlineAt =>
    let s : GraphTaskSnapshotV1 :=
      { schemaVersion := GRAPH_TASK_SNAPSHOT_VERSION, creator, bundleId,
        pubkyLockResource := resource, lockHash, reader, acceptedAt, deadlineAt,
        operator := graph.operator, predicates := graph.predicates.map GraphPredicateState.new,
        root := .pending }
    s.validate
    pure s

/-! ## What validation establishes -/

/-- What a snapshot that passes `validate` satisfies. -/
structure Valid (s : GraphTaskSnapshotV1) : Prop where
  deadline : s.acceptedAt ≤ s.deadlineAt
  nonempty : 1 ≤ s.predicates.length
  creator : s.pubkyLockResource.creator = s.creator
  lockId : s.pubkyLockResource.lockId = LockId.fromHash s.lockHash
  predicates : ∀ p ∈ s.predicates, p.validate s.acceptedAt s.deadlineAt = .ok ()
  root : s.root = .pending ∨ s.root = s.terminalRootFromObservations

theorem valid_of_validate {s : GraphTaskSnapshotV1} (h : s.validate = .ok ()) : s.Valid := by
  simp only [validate, seq_eq_ok, refuse_eq_ok, checkAll_eq_ok] at h
  obtain ⟨-, hdeadline, -, -, hcreator, hlock, hlen, -, -, hpred, hroot⟩ := h
  simp only [Bool.not_eq_true', Bool.not_eq_false, Bool.and_eq_true, decide_eq_true_eq] at hlen
  exact ⟨not_lt.1 hdeadline, hlen.1, not_not.1 hcreator, not_not.1 hlock, hpred, by tauto⟩

/-- **Admissions.**  A new snapshot is valid, pending and bound to its inputs. -/
theorem new_spec {c : CreatorPubky} {b : BundleId} {resource : PubkyLockResource}
    {hash : LockHash} {reader : CreatorPubky} {acceptedAt : Timestamp} {window : ℕ}
    {graph : GraphPolicyV2} {s : GraphTaskSnapshotV1}
    (h : new c b resource hash reader acceptedAt window graph = .ok s) :
    s.validate = .ok () ∧ s.creator = c ∧ s.bundleId = b ∧ s.pubkyLockResource = resource ∧
      s.acceptedAt = acceptedAt ∧ s.root = .pending ∧
      s.predicates = graph.predicates.map GraphPredicateState.new := by
  unfold new at h
  obtain ⟨-, h⟩ := seq_eq_ok.1 h
  split at h
  · cases h
  · obtain ⟨hv, h⟩ := seq_eq_ok.1 h
    rw [pure_eq_ok] at h
    subst h
    exact ⟨hv, rfl, rfl, rfl, rfl, rfl, rfl⟩

end GraphTaskSnapshotV1

/-- The snapshot of a graph task at its admission, for a lock with one
    `follows` predicate and a window of ten minutes. -/
def admittedGraphSnapshot : GraphTaskSnapshotV1 where
  schemaVersion := GRAPH_TASK_SNAPSHOT_VERSION
  creator := ⟨"creator"⟩
  bundleId := ⟨"bundle"⟩
  pubkyLockResource := .of ⟨"creator"⟩ (LockId.fromHash (.replicate 7))
  lockHash := .replicate 7
  reader := ⟨"reader"⟩
  acceptedAt := 0
  deadlineAt := Duration.seconds 600
  operator := none
  predicates := [.new (.follows .reader .creator)]
  root := .pending

end PubkyLocks
