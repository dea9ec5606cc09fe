/-
  What the snapshots of graph tasks promise about their evidence
  (`application/models/graph0conf.rs`).
-/
import PubkyLocks.Tasks.GraphReducer

namespace PubkyLocks

open GraphTaskSnapshotV1 Checks

/-! ## The two tables -/

namespace GraphTaskSnapshotV1

variable {s t : GraphTaskSnapshotV1}

theorem predicates_ne_nil (hv : s.validate = .ok ()) : s.predicates ≠ [] := by
  intro hnil
  have hlen := (valid_of_validate hv).nonempty
  rw [hnil] at hlen
  exact absurd hlen (by decide)

theorem terminalRootFromObservations_ne_pending (s : GraphTaskSnapshotV1) :
    s.terminalRootFromObservations ≠ .pending := by
  unfold terminalRootFromObservations
  split <;> simp

theorem nextRoot_early (hv : s.validate = .ok ()) (hp : s.root = .pending) :
    s.nextRoot false = .pending ∨ s.nextRoot false = s.terminalRootFromObservations := by
  by_cases hroot : s.nextRoot false = .pending
  · exact .inl hroot
  · right
    rw [terminalRootFromObservations_eq (predicates_ne_nil hv)]
    exact ((Extends.refl hv hp).nextRoot_eq hv hroot true).symm

theorem nextRoot_not_expired (s : GraphTaskSnapshotV1) (result : GraphDeadlineResult) :
    s.nextRoot false ≠ .expired result := by
  unfold nextRoot
  cases combineTruth s.operator false (s.predicates.map (·.truth false)) <;>
    simp [PredicateTruth.root]

theorem nextRoot_deadline (hv : s.validate = .ok ()) :
    s.nextRoot true = s.terminalRootFromObservations :=
  (terminalRootFromObservations_eq (predicates_ne_nil hv)).symm

theorem nextRoot_cases (hv : s.validate = .ok ()) (hp : s.root = .pending) (d : Bool) :
    s.nextRoot d = .pending ∨ s.nextRoot d = s.terminalRootFromObservations := by
  cases d with
  | false => exact nextRoot_early hv hp
  | true => exact .inr (nextRoot_deadline hv)

theorem reduceGraphSnapshot_eq_ok {now : Timestamp} (hv : s.validate = .ok ())
    (hp : s.root = .pending)
    (hobs : ∀ p ∈ s.predicates, ∀ o ∈ p.observations, o.observedAt ≤ now) :
    s.reduceGraphSnapshot now = .ok { s with root := s.nextRoot (decide (now ≥ s.deadlineAt)) } :=
  (reduceGraphSnapshot_pending hp).2 ⟨hv, validateObservationsNotAfter_eq_ok.2 hobs,
    validate_root hv (nextRoot_cases hv hp _), rfl⟩

theorem lt_deadline_of_nextRoot {now : Timestamp} (hv : s.validate = .ok ())
    (h : s.nextRoot (decide (now ≥ s.deadlineAt)) = .pending) : now < s.deadlineAt := by
  by_contra hdue
  rw [decide_eq_true (not_lt.1 hdue), nextRoot_deadline hv] at h
  exact s.terminalRootFromObservations_ne_pending h

/-- **The tables agree.**  On a valid pending snapshot the reducer succeeds at
    every time not before a stored observation and changes the root only: to a
    root that is pending or the one validation expects, that is not pending from
    the deadline on, and that is not expired before it. -/
theorem reduction_agrees (s : GraphTaskSnapshotV1) (now : Timestamp) (hv : s.validate = .ok ())
    (hp : s.root = .pending)
    (hobs : ∀ p ∈ s.predicates, ∀ o ∈ p.observations, o.observedAt ≤ now) :
    ∃ root, s.reduceGraphSnapshot now = .ok { s with root } ∧
      (root = .pending ∨ root = s.terminalRootFromObservations) ∧
      (now ≥ s.deadlineAt → root ≠ .pending) ∧
      (now < s.deadlineAt → ∀ result, root ≠ .expired result) := by
  refine ⟨_, reduceGraphSnapshot_eq_ok hv hp hobs, nextRoot_cases hv hp _, fun hdue hroot => ?_,
    fun hlt => ?_⟩
  · exact absurd (lt_deadline_of_nextRoot hv hroot) (not_lt.2 hdue)
  · rw [decide_eq_false (not_le.2 hlt)]
    exact s.nextRoot_not_expired

end GraphTaskSnapshotV1

/-- A lock that asks for both follows; the creator was observed not to follow. -/
def unreturnedFollow : GraphTaskSnapshotV1 :=
  { admittedGraphSnapshot with
    operator := some .and
    predicates := followedSnapshot.predicates ++
      [(GraphPredicateState.new (.follows .creator .reader)).observe
        ⟨.false_, Duration.seconds 20, none, none⟩] }

theorem unreturned_follow_reduced : let s := unreturnedFollow
    (∃ root, s.reduceGraphSnapshot (Duration.seconds 20) = .ok { s with root } ∧
      (root = .pending ∨ root = s.terminalRootFromObservations) ∧
      ∀ result, root ≠ .expired result) ∧
    ∃ root, s.reduceGraphSnapshot (Duration.seconds 600) = .ok { s with root } ∧
      (root = .pending ∨ root = s.terminalRootFromObservations) ∧ root ≠ .pending := by
  intro s
  have hv : s.validate = .ok () := by decide
  obtain ⟨early, hearly, hagrees, -, hexpired⟩ :=
    reduction_agrees s (Duration.seconds 20) hv rfl (by decide)
  obtain ⟨root, hroot, hagrees', hdue, -⟩ :=
    reduction_agrees s (Duration.seconds 600) hv rfl (by decide)
  exact ⟨⟨early, hearly, hagrees, hexpired (by decide)⟩, root, hroot, hagrees', hdue (by decide)⟩

/-! ## Sticky evidence -/

def GraphTaskSnapshotV1.stickyAt (s : GraphTaskSnapshotV1) (i : ℕ) :
    Option GraphPredicateObservation :=
  s.predicates[i]?.bind (·.firstTrueObservation)

namespace Recording

/-- The sticky true observation after the call, from the one before. -/
def stickyFrom (first : Option GraphPredicateObservation) :
    Recording → Option GraphPredicateObservation
  | observation _ outcome t =>
    if outcome = .true_ ∧ first.isNone then some ⟨outcome, t, none, none⟩ else first
  | nexusObservation _ outcome t origin status _ _ _ =>
    if outcome = .true_ then some ⟨outcome, t, some origin, status⟩ else first
  | invalidResponse _ _ _ _ => first

/-- The observation that the call stores as the sticky one, whatever was there. -/
def overwrites? : Recording → Option GraphPredicateObservation
  | nexusObservation _ .true_ t origin status _ _ _ => some ⟨.true_, t, some origin, status⟩
  | _ => none

/-- The call stores no sticky observation on a predicate that has one in the
    snapshot, or stores the same again. -/
def KeepsSticky (s : GraphTaskSnapshotV1) (c : Recording) : Prop :=
  ∀ e o, s.stickyAt c.index = some e → c.overwrites? = some o → o = e

theorem stickyFrom_some {c : Recording} {e : GraphPredicateObservation} :
    c.stickyFrom (some e) = some (c.overwrites?.getD e) := by
  cases c with
  | observation => simp [stickyFrom, overwrites?]
  | nexusObservation _ outcome => cases outcome <;> simp [stickyFrom, overwrites?]
  | invalidResponse => rfl

end Recording

variable {s t u : GraphTaskSnapshotV1} {c : Recording}

/-- **One recording** changes the sticky observation of its own predicate only. -/
theorem apply_sticky (h : c.apply s = .ok t) :
    ∃ p p', s.predicates[c.index]? = some p ∧ t = s.setPredicate c.index p' ∧
      p'.firstTrueObservation = c.stickyFrom p.firstTrueObservation := by
  cases c with
  | observation i outcome observedAt =>
    obtain ⟨-, -, -, p, hp, -, -, rfl⟩ := recordObservation_eq_ok.1 h
    exact ⟨p, _, hp, rfl, rfl⟩
  | nexusObservation i outcome observedAt origin status category due count =>
    obtain ⟨_, p, p', -, hp, hp', -, rfl⟩ := recordNexusObservation_eq_ok.1 h
    exact ⟨p, p', hp, rfl, (recordOperational_eq_ok hp').2.2⟩
  | invalidResponse i observedAt origin status =>
    obtain ⟨u, hu, h⟩ := bind_eq_ok.1 h
    obtain ⟨q, hq, h⟩ := bind_eq_ok.1 h
    obtain ⟨_, p, p', -, hp, hp', -, rfl⟩ := recordNexusObservation_eq_ok.1 hu
    obtain ⟨-, rfl⟩ := replace_eq_ok.1 h
    rw [predicateAt_eq_ok, getElem?_setPredicate hp,
      Option.some.injEq] at hq
    subst hq
    rw [setPredicate_setPredicate]
    exact ⟨p, _, hp, rfl, (recordOperational_eq_ok hp').2.2⟩

theorem stickyAt_index (h : c.apply s = .ok t) :
    t.stickyAt c.index = c.stickyFrom (s.stickyAt c.index) := by
  obtain ⟨p, p', hp, rfl, hfirst⟩ := apply_sticky h
  simp only [stickyAt, getElem?_setPredicate hp, hp,
    Option.bind_some, hfirst]

theorem stickyAt_of_ne (h : c.apply s = .ok t) {i : ℕ} (hne : c.index ≠ i) :
    t.stickyAt i = s.stickyAt i := by
  obtain ⟨p, p', -, rfl, -⟩ := apply_sticky h
  simp only [stickyAt, setPredicate,
    List.getElem?_set_ne hne]

/-- The second snapshot has the sticky observations of the first. -/
def GraphTaskSnapshotV1.KeptSticky (s t : GraphTaskSnapshotV1) : Prop :=
  ∀ i e, s.stickyAt i = some e → t.stickyAt i = some e

/-- One recording keeps the sticky observations of the first snapshot exactly if
    it overwrites none of them by another. -/
theorem keptSticky_apply (hk : s.KeptSticky t) (h : c.apply t = .ok u) :
    s.KeptSticky u ↔ c.KeepsSticky s := by
  constructor
  · intro hu e o he ho
    have hsticky := hu _ e he
    rw [stickyAt_index h, hk _ e he, Recording.stickyFrom_some, ho] at hsticky
    exact Option.some.inj hsticky
  · intro hc i e he
    by_cases hi : c.index = i
    · subst hi
      rw [stickyAt_index h, hk _ e he, Recording.stickyFrom_some]
      cases ho : c.overwrites? with
      | none => rfl
      | some o => rw [hc e o he ho]; rfl
    · rw [stickyAt_of_ne h hi]
      exact hk i e he

theorem applyAll_append {calls : List Recording} : Recording.applyAll s (calls ++ [c]) = .ok u ↔
      ∃ t, Recording.applyAll s calls = .ok t ∧ c.apply t = .ok u := by
  rw [Recording.applyAll, List.foldlM_append, bind_eq_ok]
  simp only [List.foldlM_cons, List.foldlM_nil, bind_eq_ok, pure_eq_ok]
  refine exists_congr fun t => and_congr_right fun _ => ?_
  constructor
  · rintro ⟨_, h, rfl⟩
    exact h
  · exact fun h => ⟨u, h, rfl⟩

/-- **Sticky evidence.**  Along a sequence of accepted recordings every sticky
    true observation of the first snapshot is kept exactly if no recording of a
    true Nexus answer is about a predicate that has one, unless it records the
    same observation again. -/
theorem sticky_iff (s t : GraphTaskSnapshotV1) (calls : List Recording)
    (hc : Recording.applyAll s calls = .ok t) :
    (∀ before u, before <+: calls → Recording.applyAll s before = .ok u →
        ∀ i e, s.stickyAt i = some e → u.stickyAt i = some e) ↔
      ∀ c ∈ calls, c.KeepsSticky s := by
  constructor
  · intro hall c hmem
    obtain ⟨before, after, rfl⟩ := List.append_of_mem hmem
    have hsplit : before ++ c :: after = before ++ [c] ++ after := by simp
    rw [hsplit, Recording.applyAll, List.foldlM_append] at hc
    obtain ⟨u, hu, -⟩ := bind_eq_ok.1 hc
    obtain ⟨v, hv, hcv⟩ := applyAll_append.1 hu
    refine (keptSticky_apply (hall before v ?_ hv) hcv).1 (hall (before ++ [c]) u ?_ hu)
    · exact List.prefix_append _ _
    · rw [hsplit]
      exact List.prefix_append _ _
  · -- by induction on the calls made so far, from the last one
    intro hkeep before
    induction before using List.reverseRecOn with
    | nil =>
      intro u _ hu i e he
      rw [Recording.applyAll, List.foldlM_nil, pure_eq_ok] at hu
      exact hu ▸ he
    | append_singleton before c ih =>
      intro u hpre hu
      obtain ⟨v, hv, hcv⟩ := applyAll_append.1 hu
      have hbefore : before <+: calls := (List.prefix_append before [c]).trans hpre
      refine (keptSticky_apply (ih v hbefore hv) hcv).2 (hkeep c (hpre.subset ?_))
      simp

/-- A true answer of Nexus ten seconds after the first one. -/
def followedAgain : Recording :=
  .nexusObservation 0 .true_ (Duration.seconds 20) "https://nexus.example" (some 200) none none 0

/-- It replaces the sticky observation, and the snapshot it leads to is no
    progress. -/
theorem sticky_overwritten :
    ∃ t, followedSnapshot.validate = .ok () ∧ followedSnapshot.root = .pending ∧
      Recording.applyAll followedSnapshot [followedAgain] = .ok t ∧
      followedSnapshot.stickyAt 0 = some ⟨.true_, Duration.seconds 10, none, none⟩ ∧
      t.stickyAt 0 =
        some ⟨.true_, Duration.seconds 20, some "https://nexus.example", some 200⟩ ∧
      t.validateProgressFrom followedSnapshot =
        .error "graph snapshot replacement changed sticky true evidence" :=
  ⟨{ followedSnapshot with
      predicates := followedSnapshot.predicates.map fun p => p.observeNexus
        ⟨.true_, Duration.seconds 20, some "https://nexus.example", some 200⟩ none 0 },
    by decide⟩

theorem sticky_kept_by_false_answer :
    unfollowedSnapshot.stickyAt 0 = some ⟨.true_, Duration.seconds 10, none, none⟩ := by
  have hc : Recording.applyAll followedSnapshot [.observation 0 .false_ (Duration.seconds 20)] =
      .ok unfollowedSnapshot := by decide
  refine (sticky_iff _ _ _ hc).2 (fun c hmem => ?_) _ _ List.prefix_rfl hc 0 _ rfl
  obtain rfl := List.mem_singleton.1 hmem
  rintro e o - ⟨⟩

/-! ## Admissions -/

namespace GraphTaskSnapshotV1

def windowSeconds (s : GraphTaskSnapshotV1) : ℕ :=
  (Duration.wholeSeconds (s.deadlineAt - s.acceptedAt)).toNat

def policy (s : GraphTaskSnapshotV1) : GraphPolicyV2 := ⟨s.predicates.map (·.predicate), s.operator⟩

theorem schemaVersion_of_validate (hv : s.validate = .ok ()) :
    s.schemaVersion = GRAPH_TASK_SNAPSHOT_VERSION := by
  obtain ⟨hversion, -⟩ := seq_eq_ok.1 hv
  exact not_not.1 (refuse_eq_ok.1 hversion)

theorem deadlineAt_eq (hv : s.validate = .ok ()) : 60 ≤ s.windowSeconds ∧ s.windowSeconds ≤ 604800 ∧
      s.acceptedAt + Duration.seconds s.windowSeconds = s.deadlineAt := by
  simp only [validate, seq_eq_ok, refuse_eq_ok] at hv
  obtain ⟨-, -, -, hwindow, -⟩ := hv
  simp only [Bool.or_eq_true, Bool.not_eq_true', Bool.and_eq_false_iff, decide_eq_false_iff_not,
    decide_eq_true_eq, not_or, not_not] at hwindow
  obtain ⟨⟨hlow, hhigh⟩, hwhole⟩ := hwindow
  have hnat : ((s.windowSeconds : ℕ) : ℤ) = Duration.wholeSeconds (s.deadlineAt - s.acceptedAt) :=
    Int.toNat_of_nonneg (by omega)
  refine ⟨by omega, by omega, ?_⟩
  rw [hnat, ← hwhole]
  have hsum : ∀ a d : ℤ, a + (d - a) = d := by omega
  exact hsum _ _

theorem validatePristineAdmission_eq_ok :
    s.validatePristineAdmission = .ok () ↔ s.validate = .ok () ∧ s.root = .pending ∧
      ∀ p ∈ s.predicates, p.latestObservation = none ∧ p.firstTrueObservation = none ∧
        p.nextDueAt = none ∧ p.operationalFailureCount = 0 ∧ p.terminalInvalid = false := by
  simp only [validatePristineAdmission, seq_eq_ok, refuse_eq_ok, Bool.or_eq_true,
    decide_eq_true_eq, List.any_eq_true, not_or, not_exists, not_and, not_not, Bool.not_eq_true,
    Option.isSome_eq_false_iff, Option.isNone_iff_eq_none, and_assoc]

end GraphTaskSnapshotV1

theorem GraphPredicateState.eq_new {p : GraphPredicateState} {acceptedAt deadlineAt : Timestamp}
    (hv : p.validate acceptedAt deadlineAt = .ok ()) (hlatest : p.latestObservation = none)
    (hfirst : p.firstTrueObservation = none) (hdue : p.nextDueAt = none)
    (hcount : p.operationalFailureCount = 0) (hinvalid : p.terminalInvalid = false)
    (htotal : p.operationalFailureTotal = 0) : p = .new p.predicate := by
  simp only [validate, seq_eq_ok] at hv
  obtain ⟨-, haggregate, -⟩ := hv
  rw [validateAggregate, if_pos htotal] at haggregate
  split at haggregate
  · cases haggregate
  · rename_i hnone
    simp only [Bool.or_eq_true, decide_eq_true_eq, not_or, Option.not_isSome_iff_eq_none] at hnone
    obtain ⟨⟨⟨⟨-, hf⟩, hl⟩, hc⟩, hs⟩ := hnone
    cases p
    simp_all [GraphPredicateState.new]

/-- **Pristine admissions.**  A snapshot that passes `validate_pristine_admission`
    is what `new` builds from its own binding exactly if no predicate has a
    failure in its total.  (No time is later than `Timestamp.max`.) -/
theorem pristine_iff (s : GraphTaskSnapshotV1) (hmax : s.deadlineAt ≤ Timestamp.max)
    (h : s.validatePristineAdmission = .ok ()) :
    GraphTaskSnapshotV1.new s.creator s.bundleId s.pubkyLockResource s.lockHash s.reader
        s.acceptedAt s.windowSeconds s.policy = .ok s ↔
      ∀ p ∈ s.predicates, p.operationalFailureTotal = 0 := by
  obtain ⟨hv, hroot, hpristine⟩ := validatePristineAdmission_eq_ok.1 h
  constructor
  · intro hnew p hp
    obtain ⟨-, -, -, -, -, -, hpred⟩ := new_spec hnew
    rw [hpred] at hp
    obtain ⟨q, -, rfl⟩ := List.mem_map.1 hp
    rfl
  · intro htotal
    obtain ⟨hlow, hhigh, hdeadline⟩ := deadlineAt_eq hv
    have hpred : s.policy.predicates.map GraphPredicateState.new = s.predicates := by
      rw [policy, List.map_map]
      conv_rhs => rw [← List.map_id s.predicates]
      refine List.map_congr_left fun p hp => ?_
      obtain ⟨hlatest, hfirst, hdue, hcount, hinvalid⟩ := hpristine p hp
      have hvalid := (valid_of_validate hv).predicates p hp
      exact (p.eq_new hvalid hlatest hfirst hdue hcount hinvalid (htotal p hp)).symm
    have hbuilt : ({ schemaVersion := GRAPH_TASK_SNAPSHOT_VERSION
                     creator := s.creator
                     bundleId := s.bundleId
                     pubkyLockResource := s.pubkyLockResource
                     lockHash := s.lockHash
                     reader := s.reader
                     acceptedAt := s.acceptedAt
                     deadlineAt := s.deadlineAt
                     operator := s.policy.operator
                     predicates := s.policy.predicates.map GraphPredicateState.new
                     root := .pending } : GraphTaskSnapshotV1) = s := by
      rw [hpred, ← hroot, ← schemaVersion_of_validate hv]
      rfl
    have hadd : s.acceptedAt.checkedAdd (Duration.seconds s.windowSeconds) = some s.deadlineAt := by
      rw [Timestamp.checkedAdd, hdeadline, if_pos hmax]
    rw [new, seq_eq_ok, refuse_eq_ok, hadd]
    refine ⟨by simp [hlow, hhigh], ?_⟩
    dsimp only
    rw [hbuilt, seq_eq_ok, pure_eq_ok]
    exact ⟨hv, rfl⟩

/-- The snapshot of an admission whose predicate has failed three times. -/
def failedBeforeAdmission : GraphTaskSnapshotV1 :=
  { admittedGraphSnapshot with
    predicates := [{ GraphPredicateState.new (.follows .reader .creator) with
      operationalFailureTotal := 3
      operationalFirstFailureAt := some 0
      operationalLastFailureAt := some 0
      operationalLastCategory := some .timeout }] }

theorem failures_admitted : failedBeforeAdmission.validatePristineAdmission = .ok () ∧
      GraphTaskSnapshotV1.new failedBeforeAdmission.creator failedBeforeAdmission.bundleId
        failedBeforeAdmission.pubkyLockResource failedBeforeAdmission.lockHash
        failedBeforeAdmission.reader failedBeforeAdmission.acceptedAt
        failedBeforeAdmission.windowSeconds failedBeforeAdmission.policy ≠
          .ok failedBeforeAdmission := by
  decide

theorem admitted_is_new :
    GraphTaskSnapshotV1.new admittedGraphSnapshot.creator admittedGraphSnapshot.bundleId
      admittedGraphSnapshot.pubkyLockResource admittedGraphSnapshot.lockHash
      admittedGraphSnapshot.reader admittedGraphSnapshot.acceptedAt
      admittedGraphSnapshot.windowSeconds admittedGraphSnapshot.policy =
        .ok admittedGraphSnapshot :=
  (pristine_iff admittedGraphSnapshot (by decide) (by decide)).2 (by decide)

end PubkyLocks
