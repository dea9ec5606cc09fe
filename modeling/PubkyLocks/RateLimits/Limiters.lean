/-
  The two in-memory rate limiters.

  A call holds the limiter's mutex from its first read to its last write, so the
  calls of a service are answered one at a time, in the order in which they get
  the mutex.  Both `now`s of a lookup are sampled before it.
-/
import Mathlib.Data.List.AList
import PubkyLocks.Core.Ids
import PubkyLocks.Lib.Runs
import PubkyLocks.RateLimits.ClientAddress

namespace PubkyLocks

/-! ## Configuration and state -/

/-- A reading of the monotonic clock, in nanoseconds. -/
abbrev Instant := ℤ

structure PaykitConnectionStateLookupRateLimitConfig where
  maxRequests : ℕ
  windowSeconds : ℕ
  maxEntries : ℕ
  globalRequestsPerSecond : ℕ
  globalBurst : ℕ

structure VerificationSubmissionRateLimitConfig where
  enabled : Bool
  maxRequests : ℕ
  windowSeconds : ℕ

structure PaykitConnectionStateLookupRateLimitKey where
  clientAddress : IpAddr
  creator : CreatorPubky
  bundleId : BundleId
deriving DecidableEq

structure VerificationSubmissionRateLimitKey where
  clientAddress : IpAddr
  creator : CreatorPubky
deriving DecidableEq

structure TokenBucketState where
  tokens : ℕ
  remainder : ℕ
  last : Instant

structure WindowCounter where
  startedAt : Timestamp
  count : ℕ
deriving DecidableEq

/-- The `HashMap` from keys to windows. -/
abbrev Windows (κ : Type) := AList fun _ : κ => WindowCounter

structure PaykitConnectionStateLookupRateLimitState where
  windows : Windows PaykitConnectionStateLookupRateLimitKey
  global : TokenBucketState

structure RateLimitDecision where
  allowed : Bool
  retryAfterSeconds : Option ℕ
deriving DecidableEq

def RateLimitDecision.allow : RateLimitDecision := ⟨true, none⟩

def RateLimitDecision.rejected (retryAfterSeconds : ℕ) : RateLimitDecision :=
  ⟨false, some retryAfterSeconds⟩

/-- Why a limiter decides: the map of windows is full, the window of the key is,
    the bucket is empty, or the call is counted in a window.  A disabled limiter
    counts nothing. -/
inductive Verdict
  | capacity (retryAfterSeconds : ℕ)
  | window (retryAfterSeconds : ℕ)
  | bucket
  | counted (window : WindowCounter)
  | disabled
deriving DecidableEq

def Verdict.decision : Verdict → RateLimitDecision
  | .capacity n | .window n => .rejected n
  | .bucket => .rejected 1
  | .counted _ | .disabled => .allow

/-! ## Windows -/

def retryAfterSeconds (startedAt now : Timestamp) (windowSeconds : ℕ) : ℕ :=
  let elapsed := Duration.wholeSeconds (now - startedAt)
  if elapsed < 0 then windowSeconds else windowSeconds - elapsed.toNat

def windowHasExpired (startedAt now : Timestamp) (windowSeconds : ℕ) : Bool :=
  retryAfterSeconds startedAt now windowSeconds = 0

/-- The window of a key that a call is counted in: the entry or a new one, started
    again if it has expired. -/
def openWindow (window : Option WindowCounter) (now : Timestamp) (windowSeconds : ℕ) :
    WindowCounter :=
  let window := window.getD ⟨now, 0⟩
  if windowHasExpired window.startedAt now windowSeconds then ⟨now, 0⟩ else window

theorem openWindow_count {window : Option WindowCounter} {now : Timestamp}
    {windowSeconds maxRequests : ℕ}
    (h : (window.filter fun w => !windowHasExpired w.startedAt now windowSeconds &&
      maxRequests ≤ w.count) = none) :
    (openWindow window now windowSeconds).count = 0 ∨
      (openWindow window now windowSeconds).count < maxRequests := by
  simp only [openWindow]
  split_ifs
  · exact .inl rfl
  · rename_i hopen
    cases window with
    | none => exact .inl rfl
    | some w =>
      refine .inr (Nat.lt_of_not_le fun hle => Option.filter_eq_none_iff.1 h w rfl ?_)
      rw [Bool.and_eq_true, Bool.not_eq_true', decide_eq_true_eq]
      exact ⟨by simpa using hopen, hle⟩

def retainOpen {κ : Type} (windows : Windows κ) (now : Timestamp) (windowSeconds : ℕ) :
    Windows κ :=
  ⟨windows.entries.filter fun entry => !windowHasExpired entry.2.startedAt now windowSeconds,
    windows.nodupKeys.sublist List.filter_sublist⟩

/-! ## The token bucket -/

def u64Max : ℕ := 2 ^ 64 - 1

def u128Max : ℕ := 2 ^ 128 - 1

def refillTokenBucket (state : TokenBucketState) (now : Instant) (ratePerSecond burst : ℕ) :
    TokenBucketState :=
  let elapsedNanos := (now - state.last).toNat
  if state.tokens = burst then { state with last := now, remainder := 0 }
  else
    let accrued := min (min (elapsedNanos * ratePerSecond) u128Max + state.remainder) u128Max
    let added := accrued / 1000000000
    let tokens := min (min (state.tokens + min added u64Max) u64Max) burst
    { tokens, remainder := if tokens = burst then 0 else accrued % 1000000000, last := now }

/-! ## The lookup limiter -/

/-- The arguments of a lookup's `check`. -/
structure LookupCall where
  key : PaykitConnectionStateLookupRateLimitKey
  wallNow : Timestamp
  monotonicNow : Instant

/-- The windows a lookup decides on: an unknown key makes a full map drop its
    expired windows. -/
def windowsFor (config : PaykitConnectionStateLookupRateLimitConfig)
    (windows : Windows PaykitConnectionStateLookupRateLimitKey) (call : LookupCall) :
    Windows PaykitConnectionStateLookupRateLimitKey :=
  if call.key ∉ windows ∧ config.maxEntries ≤ windows.entries.length then
    retainOpen windows call.wallNow config.windowSeconds
  else windows

def checkLookup (config : PaykitConnectionStateLookupRateLimitConfig)
    (state : PaykitConnectionStateLookupRateLimitState) (call : LookupCall) :
    PaykitConnectionStateLookupRateLimitState × Verdict :=
  let windows := windowsFor config state.windows call
  let retryAfter := fun window : WindowCounter =>
    retryAfterSeconds window.startedAt call.wallNow config.windowSeconds
  if call.key ∉ state.windows ∧ config.maxEntries ≤ windows.entries.length then
    ({ state with windows }, .capacity
      ((windows.entries.map fun entry => retryAfter entry.2).min?.getD config.windowSeconds))
  else
    match (windows.lookup call.key).filter fun window =>
      !windowHasExpired window.startedAt call.wallNow config.windowSeconds &&
        config.maxRequests ≤ window.count with
    | some window => ({ state with windows }, .window (retryAfter window))
    | none =>
      let global := refillTokenBucket state.global call.monotonicNow
        config.globalRequestsPerSecond config.globalBurst
      if global.tokens = 0 then ({ windows, global }, .bucket)
      else
        let window := openWindow (windows.lookup call.key) call.wallNow config.windowSeconds
        let window := { window with count := window.count + 1 }
        ({ windows := windows.insert call.key window,
           global := { global with tokens := global.tokens - 1 } }, .counted window)

section
variable {config : PaykitConnectionStateLookupRateLimitConfig}
  {state : PaykitConnectionStateLookupRateLimitState} {call : LookupCall}
  {windows : Windows PaykitConnectionStateLookupRateLimitKey} {global : TokenBucketState}

theorem checkLookup_cases {M : PaykitConnectionStateLookupRateLimitState × Verdict → Prop}
    (hwindows : windowsFor config state.windows call = windows)
    (hglobal : refillTokenBucket state.global call.monotonicNow config.globalRequestsPerSecond
      config.globalBurst = global)
    (capacity : call.key ∉ state.windows → config.maxEntries ≤ windows.entries.length →
      M (⟨windows, state.global⟩, .capacity ((windows.entries.map fun entry =>
        retryAfterSeconds entry.2.startedAt call.wallNow config.windowSeconds).min?.getD
          config.windowSeconds)))
    (window : ∀ w, windows.lookup call.key = some w →
      windowHasExpired w.startedAt call.wallNow config.windowSeconds = false →
      config.maxRequests ≤ w.count →
      M (⟨windows, state.global⟩,
        .window (retryAfterSeconds w.startedAt call.wallNow config.windowSeconds)))
    (bucket : global.tokens = 0 → M (⟨windows, global⟩, .bucket))
    (counted : ∀ w, openWindow (windows.lookup call.key) call.wallNow config.windowSeconds = w →
      (w.count = 0 ∨ w.count < config.maxRequests) → global.tokens ≠ 0 →
      (call.key ∉ state.windows → windows.entries.length < config.maxEntries) →
      M (⟨windows.insert call.key ⟨w.startedAt, w.count + 1⟩,
        { global with tokens := global.tokens - 1 }⟩, .counted ⟨w.startedAt, w.count + 1⟩)) :
    M (checkLookup config state call) := by
  simp only [checkLookup, hwindows, hglobal]
  by_cases hfull : call.key ∉ state.windows ∧ config.maxEntries ≤ windows.entries.length
  · rw [if_pos hfull]
    exact capacity hfull.1 hfull.2
  rw [if_neg hfull]
  split
  · rename_i w hw
    obtain ⟨hlookup, hw⟩ := Option.filter_eq_some_iff.1 hw
    rw [Bool.and_eq_true, Bool.not_eq_true', decide_eq_true_eq] at hw
    exact window w hlookup hw.1 hw.2
  · rename_i hopen
    by_cases hempty : global.tokens = 0
    · rw [if_pos hempty]
      exact bucket hempty
    · rw [if_neg hempty]
      refine counted _ rfl (openWindow_count hopen) hempty fun hkey => ?_
      exact Nat.lt_of_not_le fun hle => hfull ⟨hkey, hle⟩

end

def PaykitConnectionStateLookupRateLimitState.newAt
    (config : PaykitConnectionStateLookupRateLimitConfig) (now : Instant) :
    PaykitConnectionStateLookupRateLimitState :=
  { windows := ∅, global := { tokens := config.globalBurst, remainder := 0, last := now } }

/-- The limiter, the latest wall time it was called with, and the calls it has
    answered, newest first. -/
structure LookupService where
  state : PaykitConnectionStateLookupRateLimitState
  clock : Timestamp
  log : List (LookupCall × Verdict)

namespace LookupService

def init (config : PaykitConnectionStateLookupRateLimitConfig) (now : Instant)
    (clock : Timestamp) : LookupService :=
  { state := .newAt config now, clock, log := [] }

/-- A call that gets the mutex. -/
def call (config : PaykitConnectionStateLookupRateLimitConfig) (s : LookupService)
    (call : LookupCall) : Option LookupService :=
  let (state, verdict) := checkLookup config s.state call
  some { state, clock := call.wallNow, log := (call, verdict) :: s.log }

end LookupService

/-! ## The submission limiter -/

/-- The arguments of a submission's `check`. -/
structure SubmissionCall where
  key : VerificationSubmissionRateLimitKey
  now : Timestamp

def checkSubmission (config : VerificationSubmissionRateLimitConfig)
    (windows : Windows VerificationSubmissionRateLimitKey) (call : SubmissionCall) :
    Windows VerificationSubmissionRateLimitKey × Verdict :=
  if !config.enabled then (windows, .disabled)
  else
    let window := openWindow (windows.lookup call.key) call.now config.windowSeconds
    if window.count < config.maxRequests then
      let window := { window with count := window.count + 1 }
      (windows.insert call.key window, .counted window)
    else
      (windows.insert call.key window,
        .window (retryAfterSeconds window.startedAt call.now config.windowSeconds))

/-- The verdicts on the submissions that get the mutex one after the other. -/
def submissionVerdicts (config : VerificationSubmissionRateLimitConfig) :
    Windows VerificationSubmissionRateLimitKey → List SubmissionCall →
      List (SubmissionCall × Verdict)
  | _, [] => []
  | windows, call :: calls =>
    (call, (checkSubmission config windows call).2) ::
      submissionVerdicts config (checkSubmission config windows call).1 calls

section
variable (config : VerificationSubmissionRateLimitConfig) {call : SubmissionCall}
  {windows windows' : Windows VerificationSubmissionRateLimitKey}
  {key : VerificationSubmissionRateLimitKey}

theorem lookup_checkSubmission_of_ne (h : key ≠ call.key) :
    (checkSubmission config windows call).1.lookup key = windows.lookup key := by
  simp only [checkSubmission]
  split_ifs
  · rfl
  · exact AList.lookup_insert_ne h
  · exact AList.lookup_insert_ne h

theorem checkSubmission_congr (h : windows.lookup call.key = windows'.lookup call.key) :
    (checkSubmission config windows call).2 = (checkSubmission config windows' call).2 ∧
      (checkSubmission config windows call).1.lookup call.key =
        (checkSubmission config windows' call).1.lookup call.key := by
  simp only [checkSubmission, h]
  split_ifs
  · exact ⟨rfl, h⟩
  · simp
  · simp

end

/-- **Submitters do not use up each other's windows.**  Whatever the other keys
    submit in between and whatever the clock does, the limiter gives the calls
    of a key the verdicts it gives them alone. -/
theorem submissions_isolated (config : VerificationSubmissionRateLimitConfig)
    (key : VerificationSubmissionRateLimitKey) (calls : List SubmissionCall) :
    (submissionVerdicts config ∅ calls).filter (·.1.key = key) =
      submissionVerdicts config ∅ (calls.filter (·.key = key)) := by
  -- the two runs agree on the window of the key
  suffices h : ∀ windows windows', windows.lookup key = windows'.lookup key →
      (submissionVerdicts config windows calls).filter (·.1.key = key) =
        submissionVerdicts config windows' (calls.filter (·.key = key)) from h ∅ ∅ rfl
  induction calls with
  | nil => intro windows windows' _; rfl
  | cons call calls ih =>
    intro windows windows' hsame
    by_cases hkey : call.key = key
    · subst hkey
      obtain ⟨hverdict, hlookup⟩ := checkSubmission_congr config hsame
      simp [submissionVerdicts, hverdict, ih _ _ hlookup]
    · have hlookup := (lookup_checkSubmission_of_ne config (Ne.symm hkey)).trans hsame
      simp [submissionVerdicts, hkey, ih _ _ hlookup]

end PubkyLocks
