/-
  The rate of the token bucket all lookups share.

  A call with an older reading sets the time of the last refill back, and the time
  in between accrues twice (`bucket_refills_twice`).
-/
import PubkyLocks.RateLimits.Limiters

namespace PubkyLocks

open PaykitConnectionStateLookupRateLimitState TokenBucketState

/-- The reading of the call is not before the last refill. -/
def LookupService.inOrder (s : LookupService) (call : LookupCall) : Bool :=
  s.state.global.last ≤ call.monotonicNow

/-- The calls allowed with a monotonic time in the interval. -/
def allowedIn (log : List (LookupCall × Verdict)) (first last : Instant) : ℕ :=
  log.countP fun entry => entry.2.decision.allowed && first ≤ entry.1.monotonicNow &&
    entry.1.monotonicNow ≤ last

/-- The tokens of an interval: the burst and the tokens of its length, rounded up. -/
def PaykitConnectionStateLookupRateLimitConfig.allowance
    (config : PaykitConnectionStateLookupRateLimitConfig) (first last : Instant) : ℕ :=
  config.globalBurst +
    (config.globalRequestsPerSecond * (last - first).toNat + 999999999) / 1000000000

/-! ## Refills -/

/-- The tokens and the remainder, in billionths of a token. -/
def TokenBucketState.fill (state : TokenBucketState) : ℕ :=
  state.tokens * 1000000000 + state.remainder

/-- **Refill.**  At most what accrued is added, up to the burst. -/
theorem refillTokenBucket_spec (state : TokenBucketState) (now : Instant) (rate burst : ℕ) :
    (refillTokenBucket state now rate burst).last = now ∧
    (refillTokenBucket state now rate burst).fill ≤ burst * 1000000000 ∧
    (refillTokenBucket state now rate burst).fill ≤
      state.fill + rate * (now - state.last).toNat := by
  rw [Nat.mul_comm rate]
  simp only [refillTokenBucket, fill]
  split_ifs with hfull htokens
  · refine ⟨rfl, by simp [hfull], ?_⟩
    simp only
    omega
  all_goals
    generalize (now - state.last).toNat * rate = elapsed at *
    generalize haccrued : min (min elapsed u128Max + state.remainder) u128Max = accrued at *
    generalize hadded : min (accrued / 1000000000) u64Max = added at *
    refine ⟨rfl, ?_, ?_⟩ <;> simp only <;> omega

/-! ## Calls -/

theorem allowedIn_cons {entry : LookupCall × Verdict} {log : List (LookupCall × Verdict)}
    {first last : Instant} :
    allowedIn (entry :: log) first last = allowedIn log first last +
      if entry.2.decision.allowed ∧ first ≤ entry.1.monotonicNow ∧ entry.1.monotonicNow ≤ last
        then 1 else 0 := by
  simp [allowedIn, List.countP_cons, and_assoc]

/-- The bucket holds at most what its rate leaves after the calls it admitted. -/
structure Paced (config : PaykitConnectionStateLookupRateLimitConfig) (global : TokenBucketState)
    (log : List (LookupCall × Verdict)) : Prop where
  full : global.fill ≤ config.globalBurst * 1000000000
  past : ∀ entry ∈ log, entry.2.decision.allowed → entry.1.monotonicNow ≤ global.last
  since : ∀ first ≤ global.last, allowedIn log first global.last * 1000000000 + global.fill ≤
    config.globalBurst * 1000000000 +
      config.globalRequestsPerSecond * (global.last - first).toNat
  within : ∀ first last, first ≤ last → allowedIn log first last * 1000000000 ≤
    config.globalBurst * 1000000000 + config.globalRequestsPerSecond * (last - first).toNat

namespace Paced

variable {config : PaykitConnectionStateLookupRateLimitConfig} {global : TokenBucketState}
  {log : List (LookupCall × Verdict)} {first last now : Instant} {call : LookupCall} {v : Verdict}

theorem init (now : Instant) : Paced config (newAt config now).global [] where
  full := by simp [newAt, fill]
  past := nofun
  since := fun first _ => by
    simp [newAt, fill, allowedIn]
  within := fun first last _ => by simp [allowedIn]

section
variable (h : Paced config global log)
include h

theorem allowedIn_later (hlast : global.last ≤ last) :
    allowedIn log first last = allowedIn log first global.last := by
  refine List.countP_congr fun entry hentry => ?_
  simp only [Bool.and_eq_true, decide_eq_true_eq]
  refine and_congr_right fun ⟨ha, _⟩ => ?_
  have hle := h.past entry hentry ha
  exact ⟨fun _ => hle, fun _ => le_trans hle hlast⟩

theorem allowedIn_after (hfirst : global.last < first) : allowedIn log first last = 0 := by
  refine List.countP_eq_zero.2 fun entry hentry => ?_
  simp only [Bool.and_eq_true, decide_eq_true_eq]
  rintro ⟨⟨ha, hle⟩, -⟩
  exact absurd (le_trans hle (h.past entry hentry ha)) (not_le_of_gt hfirst)

theorem rejected (hv : v.decision.allowed = false) : Paced config global ((call, v) :: log) where
  full := h.full
  past := by
    rintro entry (_ | ⟨_, hentry⟩) ha
    · rw [hv] at ha
      cases ha
    · exact h.past entry hentry ha
  since := fun first hfirst => by simpa [allowedIn_cons, hv] using h.since first hfirst
  within := fun first last hle => by simpa [allowedIn_cons, hv] using h.within first last hle

theorem refilled (hnow : global.last ≤ now) :
    Paced config (refillTokenBucket global now config.globalRequestsPerSecond
      config.globalBurst) log := by
  obtain ⟨hlast, hfull, hfill⟩ := refillTokenBucket_spec global now
    config.globalRequestsPerSecond config.globalBurst
  generalize refillTokenBucket global now config.globalRequestsPerSecond
    config.globalBurst = refilled at *
  subst hlast
  refine ⟨hfull, fun entry hentry ha => le_trans (h.past entry hentry ha) hnow, ?_, h.within⟩
  intro first hfirst
  rcases le_or_gt first global.last with hle | hgt
  · have hsince := h.since first hle
    have hlength : (refilled.last - first).toNat =
        (refilled.last - global.last).toNat + (global.last - first).toNat := by
      have : ∀ a b c : ℤ, a ≤ b → b ≤ c → (c - a).toNat = (c - b).toNat + (b - a).toNat := by
        omega
      exact this _ _ _ hle hnow
    rw [h.allowedIn_later hnow, hlength, Nat.mul_add]
    omega
  · rw [h.allowedIn_after hgt]
    omega

end

theorem admitted {taken : TokenBucketState} (h : Paced config global log)
    (hlast : global.last = call.monotonicNow) (htaken : taken.last = call.monotonicNow)
    (hfill : taken.fill + 1000000000 = global.fill) (hv : v.decision.allowed) :
    Paced config taken ((call, v) :: log) := by
  refine ⟨by have := h.full; omega, ?_, fun first hfirst => ?_, fun first last hle => ?_⟩
  · rintro entry (_ | ⟨_, hentry⟩) ha
    · exact le_of_eq htaken.symm
    · exact htaken ▸ hlast ▸ h.past entry hentry ha
  · have hsince := h.since first (hlast ▸ htaken ▸ hfirst)
    rw [allowedIn_cons, if_pos ⟨hv, htaken ▸ hfirst, le_of_eq htaken.symm⟩]
    rw [htaken, ← hlast]
    rw [Nat.add_mul, Nat.add_right_comm, Nat.add_assoc, Nat.one_mul, hfill]
    exact hsince
  · rw [allowedIn_cons]
    split_ifs with hin
    · -- the interval holds the call, and so everything admitted since it began
      have hsince := h.since first (hlast ▸ hin.2.1)
      rw [h.allowedIn_later (hlast ▸ hin.2.2)]
      have hmono : config.globalRequestsPerSecond * (global.last - first).toNat ≤
          config.globalRequestsPerSecond * (last - first).toNat := by
        refine Nat.mul_le_mul_left _ (Int.toNat_le_toNat ?_)
        exact Int.sub_le_sub_right (hlast ▸ hin.2.2) _
      omega
    · exact h.within first last hle

/-- **Step.**  A call whose reading is not before the last refill keeps the pace. -/
theorem step {state : PaykitConnectionStateLookupRateLimitState}
    (h : Paced config state.global log) (hnow : state.global.last ≤ call.monotonicNow) :
    Paced config (checkLookup config state call).1.global
      ((call, (checkLookup config state call).2) :: log) := by
  have hrefilled := h.refilled hnow
  have hlast := (refillTokenBucket_spec state.global call.monotonicNow
    config.globalRequestsPerSecond config.globalBurst).1
  refine checkLookup_cases (M := fun r => Paced config r.1.global ((call, r.2) :: log))
    rfl rfl ?_ ?_ ?_ ?_
  · exact fun _ _ => h.rejected rfl
  · exact fun _ _ _ _ => h.rejected rfl
  · exact fun _ => hrefilled.rejected rfl
  · refine fun _ _ _ htokens _ => hrefilled.admitted hlast hlast ?_ rfl
    simp only [fill]
    omega

end Paced

/-- **Token rate.**  Along every run of calls whose monotonic time is not before the
    last refill, an interval admits at most the burst and the tokens of its length. -/
theorem token_rate (config : PaykitConnectionStateLookupRateLimitConfig) (now : Instant)
    (clock : Timestamp) (calls : List LookupCall) (s : LookupService)
    (hrun : Runs.Run (Runs.restrict (Runs.ofExec (LookupService.call config)) fun s call =>
      s.inOrder call) (.init config now clock) calls s)
    (first last : Instant) (hle : first ≤ last) :
    allowedIn s.log first last ≤ config.allowance first last := by
  have hpaced : Paced config s.state.global s.log := by
    refine hrun.invariant (I := fun s => Paced config s.state.global s.log) (.init now) ?_
    rintro s call t hs ⟨ht, hnow⟩
    cases ht
    exact hs.step (of_decide_eq_true hnow)
  have hwithin := hpaced.within first last hle
  unfold PaykitConnectionStateLookupRateLimitConfig.allowance
  omega

/-- One token, and one more every second. -/
def onePerSecond : PaykitConnectionStateLookupRateLimitConfig :=
  { maxRequests := 60, windowSeconds := 60, maxEntries := 10, globalRequestsPerSecond := 1,
    globalBurst := 1 }

def lookupAt (monotonicNow : Instant) : LookupCall :=
  { key := ⟨.v4 0, ⟨"creator"⟩, ⟨"bundle"⟩⟩, wallNow := 0, monotonicNow }

theorem paced_lookups : ∃ s,
    Runs.Run (Runs.restrict (Runs.ofExec (LookupService.call onePerSecond)) fun s call =>
      s.inOrder call) (.init onePerSecond 0 0)
      [lookupAt 0, lookupAt 0, lookupAt 1000000000] s ∧
    allowedIn s.log 0 1000000000 = 2 ∧
    allowedIn s.log 0 1000000000 ≤ onePerSecond.allowance 0 1000000000 := by
  have h : (Runs.execList (Runs.guarded (LookupService.call onePerSecond)
      LookupService.inOrder) (.init onePerSecond 0 0)
      [lookupAt 0, lookupAt 0, lookupAt 1000000000]).any fun s =>
        decide (allowedIn s.log 0 1000000000 = 2) := by decide +kernel
  obtain ⟨s, hs, hcount⟩ := (Option.any_eq_true _ _).1 h
  have hrun := Runs.run_of_guarded _ _ hs
  exact ⟨s, hrun, of_decide_eq_true hcount,
    token_rate onePerSecond 0 0 _ s hrun 0 1000000000 (by decide)⟩

/-- **Readings out of order.**  A lookup with an older reading sets the last refill back,
    and the second after it is refilled again: three lookups in a second whose
    allowance is two. -/
theorem bucket_refills_twice : ∃ s,
    Runs.Run (Runs.ofExec (LookupService.call onePerSecond)) (.init onePerSecond 0 0)
      [lookupAt 1000000000, lookupAt 0, lookupAt 1000000000, lookupAt 0, lookupAt 1000000000] s ∧
    allowedIn s.log 0 1000000000 = 3 ∧ onePerSecond.allowance 0 1000000000 = 2 := by
  have h : (Runs.execList (LookupService.call onePerSecond) (.init onePerSecond 0 0)
      [lookupAt 1000000000, lookupAt 0, lookupAt 1000000000, lookupAt 0, lookupAt 1000000000]).any
        fun s => decide (allowedIn s.log 0 1000000000 = 3) := by decide +kernel
  obtain ⟨s, hs, hcount⟩ := (Option.any_eq_true _ _).1 h
  exact ⟨s, Runs.run_of_execList _ hs, of_decide_eq_true hcount, by decide⟩

end PubkyLocks
