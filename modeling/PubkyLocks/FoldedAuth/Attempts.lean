/-
  The lifecycle of folded-auth attempts under every transaction of the service.

  An attempt of a handle is started beside no other pending one, with a
  generation above those stored.  Until it is closed it is only flagged as
  polled; it is closed once, by a poll, by the next start, by the purge or by
  the graph task it is accepted for.
-/
import PubkyLocks.Store.System

namespace PubkyLocks

open FoldedAuthAttempt FoldedAuth Operation Database

/-! ## What a transaction does to attempts -/

/-- What a transaction may do to an attempt. -/
inductive AttemptChange (op : Operation) (a : FoldedAuthAttempt) : FoldedAuthAttempt → Prop
  | kept : AttemptChange op a a
  | polled (dispatchedAt : Option Timestamp) :
      a.status = .pending → AttemptChange op a { a with pollDispatchedAt := dispatchedAt }
  | closed (status : FoldedAuthStatus) (now purgeAfter : Timestamp) :
      a.status = .pending → status = .expired ∨ status = .restartRequired →
      AttemptChange op a (a.terminalized status now purgeAfter)
  | accepted (attempt : FoldedAuthAttempt) (taskId : TaskId) (reader : CreatorPubky)
      (now purgeAfter : Timestamp) :
      op = .admission (.acceptAndInsertGraphTask attempt taskId reader now) →
      a.pendingAs attempt.stateHash attempt.generation → now < attempt.expiresAt →
      AttemptChange op a (Admission.accepted now purgeAfter taskId a)

/-- The attempts change one by one, and some closed ones are deleted. -/
def Evolves (op : Operation) (old new : List FoldedAuthAttempt) : Prop :=
  ∃ (f : FoldedAuthAttempt → FoldedAuthAttempt) (keep : FoldedAuthAttempt → Bool),
    new = (old.map f).filter keep ∧ (∀ a ∈ old, AttemptChange op a (f a)) ∧
      ∀ a ∈ old, keep (f a) = false → (f a).status ≠ .pending

/-- What a transaction may do to the table of attempts. -/
inductive AttemptsEffect (op : Operation) (old : List FoldedAuthAttempt) :
    List FoldedAuthAttempt → Prop
  | evolved {new : List FoldedAuthAttempt} : Evolves op old new → AttemptsEffect op old new
  | started (q : StartFoldedAuthAttempt) (now expiresAt : Timestamp) (generation : ℕ)
      {rotated : List FoldedAuthAttempt} :
      op = .admission (.startOrRotate q now) → Evolves op old rotated →
      rotated.map (·.stateHash) = old.map (·.stateHash) →
      (∀ b ∈ old, b.ofHandle q.creator q.bundleId → b.generation < generation) →
      (∀ b ∈ rotated, b.stateHash ≠ q.stateHash ∧
        (b.ofHandle q.creator q.bundleId → b.status ≠ .pending)) →
      AttemptsEffect op old (newAttempt q generation now expiresAt :: rotated)

variable {op : Operation} {old new : List FoldedAuthAttempt}

theorem evolves_updateWhere {p : FoldedAuthAttempt → Bool}
    {f : FoldedAuthAttempt → FoldedAuthAttempt}
    (h : ∀ a ∈ old, p a → AttemptChange op a (f a)) :
    Evolves op old (Table.updateWhere p f old) := by
  refine ⟨fun a => if p a then f a else a, fun _ => true, (List.filter_true _).symm, ?_, ?_⟩
  · intro a ha
    by_cases hp : p a
    · simpa only [hp, if_true] using h a ha hp
    · simpa only [hp, if_false] using .kept
  · intro a _ hk
    cases hk

theorem Evolves.refl (op : Operation) (old : List FoldedAuthAttempt) : Evolves op old old :=
  ⟨id, fun _ => true, by simp, fun _ _ => .kept, by simp⟩

/-! ## The statements of a poll -/

namespace FoldedAuth

variable {h : StateHash} {g : ℕ} {dbNow : Timestamp}

theorem evolves_setPollDispatched {dispatched : Bool}
    (hw : setPollDispatched old h g dispatched dbNow = some new) : Evolves op old new := by
  unfold setPollDispatched at hw
  dsimp only at hw
  split at hw
  · cases hw
    refine evolves_updateWhere fun a _ hp => ?_
    rw [Bool.and_eq_true, pendingAs_iff] at hp
    exact .polled _ hp.1.2.2
  · cases hw

theorem evolves_renewPollDispatch (hw : renewPollDispatch old h g dbNow = some new) :
    Evolves op old new := by
  unfold renewPollDispatch at hw
  dsimp only at hw
  split at hw
  · cases hw
    refine evolves_updateWhere fun a _ hp => ?_
    rw [Bool.and_eq_true, pendingAs_iff] at hp
    exact .polled _ hp.1.2.2
  · cases hw

theorem evolves_terminalizePending {status : FoldedAuthStatus}
    (hs : status = .expired ∨ status = .restartRequired)
    (hw : terminalizePending old h g status dbNow = some new) : Evolves op old new := by
  obtain ⟨purgeAfter, rfl⟩ := terminalizePending_eq_some hw
  refine evolves_updateWhere fun a _ hp => ?_
  exact .closed status dbNow purgeAfter (pendingAs_iff.1 hp).2.2 hs

theorem evolves_transitionAfterPoll {requested : Option FoldedAuthStatus}
    (hreq : ∀ s ∈ requested, s = .expired ∨ s = .restartRequired)
    (hw : transitionAfterPoll old h g requested dbNow = some new) : Evolves op old new := by
  unfold transitionAfterPoll at hw
  split at hw
  · cases hw
  · split at hw
    · rename_i status hstatus
      refine evolves_terminalizePending ?_ hw
      unfold terminalAfterPoll at hstatus
      split at hstatus
      · cases hstatus
        exact .inl rfl
      · exact hreq status (Option.filter_eq_some_iff.1 hstatus).1
    · cases hw
      refine evolves_updateWhere fun a _ hp => ?_
      exact .polled none (pendingAs_iff.1 hp).2.2

theorem evolves_purgeTerminalBefore (hw : purgeTerminalBefore old dbNow = some new) :
    Evolves op old new := by
  obtain ⟨purgeAfter, -, rfl⟩ := Option.map_eq_some_iff.1 hw
  dsimp only [Table.updateWhere]
  rw [List.map_map]
  refine ⟨_, _, rfl, fun a _ => ?_, fun a _ hk => ?_⟩
  · simp only [Function.comp]
    by_cases hp : a.status = .pending
    · by_cases hexp : a.expiresAt ≤ dbNow
      · simpa [hp, hexp, terminalized] using
          @AttemptChange.closed op a .expired dbNow purgeAfter hp (.inl rfl)
      · by_cases hab : a.pollDispatchedAt.any (· ≤ dbNow - FOLDED_AUTH_POLL_ABANDONED_AFTER) = true
        · simpa [hp, hexp, hab] using
            @AttemptChange.closed op a .restartRequired dbNow purgeAfter hp (.inr rfl)
        · simpa [hp, hexp, hab] using .kept
    · simpa [hp] using .kept
  · intro hp
    rw [hp] at hk
    simp at hk

theorem evolves_statement {st : AttemptStatement} (hw : st.run old = some new) :
    Evolves op old new := by
  cases st with
  | markPollDispatched h g t => exact evolves_setPollDispatched hw
  | renewPollDispatch h g t => exact evolves_renewPollDispatch hw
  | confirmNotAttempted h g t => exact evolves_setPollDispatched hw
  | confirmPendingGeneration h g t => exact evolves_transitionAfterPoll (by simp) hw
  | requireRestart h g t => exact evolves_transitionAfterPoll (by simp) hw
  | expire h g t => exact evolves_transitionAfterPoll (by simp) hw
  | purgeTerminalBefore t => exact evolves_purgeTerminalBefore hw

/-! ## Starts -/

theorem le_latestByHandle {c : CreatorPubky} {b : BundleId} {a : FoldedAuthAttempt}
    (ha : a ∈ old) (hof : a.ofHandle c b) :
    ∃ latest, latestByHandle old c b = some latest ∧ a.generation ≤ latest.generation := by
  -- the start value and the elements of the list are below the result
  have hfold : ∀ f : Option FoldedAuthAttempt → FoldedAuthAttempt → Option FoldedAuthAttempt,
      (∀ a, f none a = some a) →
      (∀ m a, f (some m) a = if m.generation < a.generation then some a else some m) →
      ∀ (l : List FoldedAuthAttempt) (m : Option FoldedAuthAttempt) (x : FoldedAuthAttempt),
      m = some x ∨ x ∈ l → ∃ r, l.foldl f m = some r ∧ x.generation ≤ r.generation := by
    intro f hnone hsome l
    induction l with
    | nil =>
      rintro m x (rfl | hx)
      · exact ⟨x, rfl, le_refl _⟩
      · exact absurd hx List.not_mem_nil
    | cons y l ih =>
      intro m x hx
      rw [List.foldl_cons]
      rcases hx with rfl | hx
      · by_cases hlt : x.generation < y.generation
        · obtain ⟨r, hr, hle⟩ := ih (some y) y (.inl rfl)
          exact ⟨r, by simpa [hsome, hlt] using hr, hlt.le.trans hle⟩
        · obtain ⟨r, hr, hle⟩ := ih (some x) x (.inl rfl)
          exact ⟨r, by simpa [hsome, hlt] using hr, hle⟩
      · rcases List.mem_cons.1 hx with rfl | hx
        · cases m with
          | none => rw [hnone]; exact ih (some x) x (.inl rfl)
          | some m =>
            by_cases hlt : m.generation < x.generation
            · obtain ⟨r, hr, hle⟩ := ih (some x) x (.inl rfl)
              exact ⟨r, by simpa [hsome, hlt] using hr, hle⟩
            · obtain ⟨r, hr, hle⟩ := ih (some m) m (.inl rfl)
              exact ⟨r, by simpa [hsome, hlt] using hr, (not_lt.1 hlt).trans hle⟩
        · exact ih _ x (.inr hx)
  exact hfold _ (fun _ => rfl) (fun _ _ => rfl) _ none a (.inr (List.mem_filter.2 ⟨ha, hof⟩))

theorem generation_of_startDecision {q : StartFoldedAuthAttempt} {generation : ℕ}
    {previous : Option (FoldedAuthAttempt × FoldedAuthStatus)}
    (hd : startDecision old q dbNow = .ok (generation, previous)) :
    (∀ b ∈ old, b.ofHandle q.creator q.bundleId → b.generation < generation) ∧
      ∀ p ∈ previous, p.2 = .expired ∨ p.2 = .restartRequired := by
  unfold startDecision at hd
  split at hd
  · rename_i hnone
    cases hd
    refine ⟨fun b hb hof => ?_, by simp⟩
    obtain ⟨latest, hlatest, -⟩ := le_latestByHandle hb hof
    rw [hnone] at hlatest
    cases hlatest
  · rename_i latest hlatest
    have hle : ∀ b ∈ old, b.ofHandle q.creator q.bundleId → b.generation ≤ latest.generation := by
      intro b hb hof
      obtain ⟨m, hm, hle⟩ := le_latestByHandle hb hof
      rw [hlatest] at hm
      cases hm
      exact hle
    have hlt : ∀ b ∈ old, b.ofHandle q.creator q.bundleId → b.generation < latest.generation + 1 :=
      fun b hb hof => Nat.lt_succ_of_le (hle b hb hof)
    split at hd
    · cases hd
    · split at hd
      · cases hd
      · split at hd
        · cases hd
          refine ⟨hlt, ?_⟩
          rintro p ⟨⟩
          dsimp only
          split
          · exact .inl rfl
          · exact .inr rfl
        · cases hd
          exact ⟨hlt, by simp⟩

theorem effect_startOrRotate {q : StartFoldedAuthAttempt}
    (hw : startOrRotate old q dbNow = some new) :
    AttemptsEffect (.admission (.startOrRotate q dbNow)) old new := by
  unfold startOrRotate at hw
  split at hw
  · rename_i generation previous expiresAt hdecision _
    obtain ⟨rotated, hrot, hins⟩ := Option.bind_eq_some_iff.1 hw
    obtain ⟨hlt, hprev⟩ := generation_of_startDecision hdecision
    have hev : Evolves (.admission (.startOrRotate q dbNow)) old rotated ∧
        rotated.map (·.stateHash) = old.map (·.stateHash) := by
      cases previous with
      | none =>
        cases hrot
        exact ⟨.refl _ _, rfl⟩
      | some previous =>
        refine ⟨evolves_terminalizePending (hprev previous rfl) hrot, ?_⟩
        obtain ⟨purgeAfter, rfl⟩ := terminalizePending_eq_some hrot
        exact Table.map_updateWhere fun _ _ _ => rfl
    unfold insertAttempt at hins
    split at hins
    · cases hins
    · rename_i hnone
      cases hins
      refine .started q dbNow expiresAt generation rfl hev.1 hev.2 hlt fun b hb => ?_
      have hb := List.any_eq_false.1 (Bool.not_eq_true _ ▸ hnone) b hb
      simp only [newAttempt, Bool.or_eq_true, Bool.and_eq_true, beq_iff_eq, not_or, not_and] at hb
      exact ⟨hb.1, fun hof => (hb.2 hof).2⟩
  · cases hw

end FoldedAuth

/-! ## Transactions -/

variable {taskId : TaskId} {reader : CreatorPubky} {now : Timestamp} {a a' b : FoldedAuthAttempt}

theorem evolves_acceptWrite {db db' : Database} {attempt : FoldedAuthAttempt}
    (hw : Admission.acceptWrite attempt taskId reader now db = some db') :
    Evolves (.admission (.acceptAndInsertGraphTask attempt taskId reader now)) db.attempts
      db'.attempts := by
  unfold Admission.acceptWrite at hw
  split at hw
  · obtain ⟨attempts, hterm, rfl⟩ := Option.map_eq_some_iff.1 hw
    exact evolves_terminalizePending (.inl rfl) hterm
  · rename_i hexp
    split at hw
    · rename_i task purgeAfter _ _
      split at hw
      · cases hw
      · obtain ⟨db₁, hins, rfl⟩ := Option.map_eq_some_iff.1 hw
        obtain ⟨-, -, rfl⟩ := insertTask_eq_some.1 hins
        refine evolves_updateWhere fun a _ hp => ?_
        exact .accepted attempt taskId reader now purgeAfter rfl hp (not_le.1 hexp)
    · cases hw

theorem attemptsEffect_of_admission {a : Admission} {db db' : Database}
    (h : a.program.run db = some db') :
    AttemptsEffect (.admission a) db.attempts db'.attempts := by
  obtain ⟨-, hw⟩ := Transactions.Program.run_eq_some.1 h
  cases a with
  | insertVerificationTask t =>
    obtain ⟨-, -, rfl⟩ := insertTask_eq_some.1 hw
    exact .evolved (.refl _ _)
  | insertInvoicePendingTask t intent now =>
    obtain ⟨-, -, rfl⟩ := insertTask_eq_some.1 hw
    exact .evolved (.refl _ _)
  | insertGraphTask t =>
    obtain ⟨-, -, rfl⟩ := insertTask_eq_some.1 hw
    exact .evolved (.refl _ _)
  | admitPaymentTask q now =>
    simp only [Admission.program, Admission.write] at hw
    split at hw
    · obtain ⟨-, -, rfl⟩ := insertTask_eq_some.1 hw
      exact .evolved (.refl _ _)
    · cases hw
  | startOrRotate q now =>
    obtain ⟨attempts, hstart, rfl⟩ := Option.map_eq_some_iff.1 hw
    exact effect_startOrRotate hstart
  | acceptAndInsertGraphTask attempt taskId reader now => exact .evolved (evolves_acceptWrite hw)

theorem attemptsEffect_of_run {E : Externals} {db db' : Database} (h : op.run E db = some db') :
    AttemptsEffect op db.attempts db'.attempts := by
  cases op with
  | admission a => exact attemptsEffect_of_admission h
  | attempt st =>
    obtain ⟨attempts, hrun, rfl⟩ := Option.map_eq_some_iff.1 h
    exact .evolved (evolves_statement hrun)
  | _ =>
    rw [(tables_of_run h).2.2 rfl]
    exact .evolved (.refl _ _)

/-! ## The invariant -/

/-- Two attempts that may be stored beside each other: their state hashes
    differ, and as attempts of one handle their generations do and not both are
    pending. -/
def FoldedAuthAttempt.Apart (a b : FoldedAuthAttempt) : Prop :=
  a.stateHash ≠ b.stateHash ∧
    (a.creator = b.creator → a.bundleId = b.bundleId →
      a.generation ≠ b.generation ∧ ¬ (a.status = .pending ∧ b.status = .pending))

/-- The invariant of the table: its attempts are apart, and a flow secret is
    stored as long as the attempt is pending. -/
structure AttemptsSound (attempts : List FoldedAuthAttempt) : Prop where
  apart : attempts.Pairwise FoldedAuthAttempt.Apart
  secret : ∀ a ∈ attempts, a.encryptedFlowSecret.isSome ↔ a.status = .pending

theorem AttemptChange.keys (h : AttemptChange op a a') :
    a'.stateHash = a.stateHash ∧ a'.creator = a.creator ∧ a'.bundleId = a.bundleId ∧
      a'.generation = a.generation ∧ (a'.status = .pending → a.status = .pending) := by
  cases h with
  | kept => exact ⟨rfl, rfl, rfl, rfl, id⟩
  | polled d hp => exact ⟨rfl, rfl, rfl, rfl, id⟩
  | closed status now purgeAfter hp hs => exact ⟨rfl, rfl, rfl, rfl, fun _ => hp⟩
  | accepted attempt taskId reader now purgeAfter hop hp hexp => exact ⟨rfl, rfl, rfl, rfl, nofun⟩

theorem AttemptChange.secret (h : AttemptChange op a a')
    (ha : a.encryptedFlowSecret.isSome ↔ a.status = .pending) :
    a'.encryptedFlowSecret.isSome ↔ a'.status = .pending := by
  cases h with
  | kept => exact ha
  | polled d hp => exact ha
  | closed status now purgeAfter hp hs =>
    rcases hs with rfl | rfl <;> simp [terminalized]
  | accepted attempt taskId reader now purgeAfter hop hp hexp =>
    simp [Admission.accepted, terminalized]

theorem AttemptChange.closed_eq (h : AttemptChange op a a')
    (ha : a.status ≠ .pending) : a' = a := by
  cases h with
  | kept => rfl
  | polled d hp => exact absurd hp ha
  | closed status now purgeAfter hp hs => exact absurd hp ha
  | accepted attempt taskId reader now purgeAfter hop hp hexp =>
    exact absurd (pendingAs_iff.1 hp).2.2 ha

theorem FoldedAuthAttempt.Apart.of_change {b' : FoldedAuthAttempt} (h : a.Apart b)
    (ha : AttemptChange op a a') (hb : AttemptChange op b b') : a'.Apart b' := by
  obtain ⟨hah, hac, hab, hag, has⟩ := ha.keys
  obtain ⟨hbh, hbc, hbb, hbg, hbs⟩ := hb.keys
  rw [Apart, hah, hac, hab, hag, hbh, hbc, hbb, hbg]
  refine ⟨h.1, fun hc hbid => ⟨(h.2 hc hbid).1, fun hp => (h.2 hc hbid).2 ?_⟩⟩
  exact ⟨has hp.1, hbs hp.2⟩

theorem Evolves.exists_old (h : Evolves op old new) (ha : a' ∈ new) :
    ∃ a ∈ old, AttemptChange op a a' := by
  obtain ⟨f, keep, rfl, hf, -⟩ := h
  obtain ⟨a, hmem, rfl⟩ := List.mem_map.1 (List.mem_of_mem_filter ha)
  exact ⟨a, hmem, hf a hmem⟩

theorem AttemptsSound.evolved (hs : AttemptsSound old) (h : Evolves op old new) :
    AttemptsSound new := by
  refine ⟨?_, fun a' ha' => ?_⟩
  · obtain ⟨f, keep, rfl, hf, -⟩ := h
    refine List.Pairwise.filter _ (List.pairwise_map.2 ?_)
    exact hs.apart.imp_of_mem fun ha hb hab => hab.of_change (hf _ ha) (hf _ hb)
  · obtain ⟨a, ha, hchange⟩ := h.exists_old ha'
    exact hchange.secret (hs.secret a ha)

/-- **One transaction** keeps the invariant. -/
theorem attemptsSound_of_effect (hs : AttemptsSound old) (h : AttemptsEffect op old new) :
    AttemptsSound new := by
  cases h with
  | evolved hev => exact hs.evolved hev
  | started q now expiresAt generation hop hev hkeys hlt hfree =>
    have hrot := hs.evolved hev
    refine ⟨List.pairwise_cons.2 ⟨fun b hb => ?_, hrot.apart⟩,
      List.forall_mem_cons.2 ⟨by simp [newAttempt], hrot.secret⟩⟩
    refine ⟨fun he => (hfree b hb).1 he.symm, fun hc hbid => ?_⟩
    have hof : b.ofHandle q.creator q.bundleId := by
      rw [ofHandle, Bool.and_eq_true, beq_iff_eq, beq_iff_eq]
      exact ⟨hc.symm, hbid.symm⟩
    obtain ⟨a, ha, hchange⟩ := hev.exists_old hb
    obtain ⟨-, hac, hab, hag, -⟩ := hchange.keys
    have hlt := hlt a ha (by rwa [ofHandle, ← hac, ← hab])
    rw [← hag] at hlt
    exact ⟨hlt.ne', fun hp => (hfree b hb).2 hof hp.2⟩

/-! ## The lifecycle -/

/-- The attempt a transaction names by its state hash and generation. -/
def Operation.names? : Operation → Option (StateHash × ℕ)
  | attempt (.markPollDispatched h g _) | attempt (.renewPollDispatch h g _)
  | attempt (.confirmNotAttempted h g _) | attempt (.confirmPendingGeneration h g _)
  | attempt (.requireRestart h g _) | attempt (.expire h g _) => some (h, g)
  | admission (.acceptAndInsertGraphTask a _ _ _) => some (a.stateHash, a.generation)
  | _ => none

/-- The graph task of an approved attempt: the snapshot has the lock, the bundle
    and the policy of the attempt, the approved reader and the time of the
    acceptance. -/
structure FoldedAuthAttempt.Binds (a : FoldedAuthAttempt) (reader : CreatorPubky)
    (acceptedAt : Timestamp) (s : GraphTaskSnapshotV1) : Prop where
  creator : s.creator = a.creator
  bundleId : s.bundleId = a.bundleId
  resource : s.pubkyLockResource = a.pubkyLockResource
  lockHash : s.lockHash = a.lockHash
  operator : s.operator = a.graph.operator
  predicates : s.predicates = a.graph.predicates.map GraphPredicateState.new
  window : acceptedAt.checkedAdd (Duration.seconds a.verificationWindowSeconds) = some s.deadlineAt
  reader : s.reader = reader
  acceptedAt : s.acceptedAt = acceptedAt

theorem FoldedAuthAttempt.binds_of_acceptedGraphTask {task : GraphTaskRecord}
    (h : a.acceptedGraphTask taskId reader now = .ok task) : a.Binds reader now task.snapshot := by
  obtain ⟨s, hs, rfl⟩ := Checks.map_eq_ok.1 h
  unfold GraphTaskSnapshotV1.new at hs
  obtain ⟨-, hs⟩ := Checks.seq_eq_ok.1 hs
  split at hs
  · cases hs
  · rename_i deadlineAt hdeadline
    obtain ⟨-, hs⟩ := Checks.seq_eq_ok.1 hs
    rw [Checks.pure_eq_ok] at hs
    subst hs
    exact ⟨rfl, rfl, rfl, rfl, rfl, rfl, hdeadline, rfl, rfl⟩

variable {E : Externals} {db db' : Database}

theorem run_of_stale {h : StateHash} {g : ℕ} (hop : op.names? = some (h, g))
    (hstale : ∀ a ∈ db.attempts, ¬ a.pendingAs h g) : op.run E db = none := by
  have hany : ∀ p : FoldedAuthAttempt → Bool,
      (db.attempts.any fun a => a.pendingAs h g && p a) = false := by
    intro p
    rw [List.any_eq_false]
    intro a ha hp
    exact hstale a ha (Bool.and_eq_true_iff.1 hp).1
  have hfind : db.attempts.find? (·.pendingAs h g) = none := List.find?_eq_none.2 hstale
  unfold names? at hop
  split at hop <;> cases hop
  · simp [run, AttemptStatement.run, markPollDispatched,
      setPollDispatched, hany]
  · simp [run, AttemptStatement.run, renewPollDispatch, hany]
  · simp [run, AttemptStatement.run, confirmNotAttempted,
      setPollDispatched, hany]
  · simp [run, AttemptStatement.run, confirmPendingGeneration,
      transitionAfterPoll, hfind]
  · simp [run, AttemptStatement.run, requireRestart,
      transitionAfterPoll, hfind]
  · simp [run, AttemptStatement.run, expire,
      transitionAfterPoll, hfind]
  · rename_i a taskId reader now
    rw [Option.eq_none_iff_forall_ne_some]
    intro db' hrun
    obtain ⟨hc, -⟩ := Transactions.Program.run_eq_some.1 hrun
    have hc := hc _ List.mem_cons_self
    simp only [Bool.and_eq_true, List.contains_iff_mem, beq_iff_eq] at hc
    exact hstale a hc.1 (pendingAs_iff.2 ⟨rfl, rfl, hc.2⟩)

theorem AttemptsSound.eq_of_hash (hs : AttemptsSound old) (ha : a ∈ old)
    (hb : b ∈ old) (he : a.stateHash = b.stateHash) : a = b := by
  have hnodup : (old.map (·.stateHash)).Nodup := List.pairwise_map.2 (hs.apart.imp And.left)
  exact List.inj_on_of_nodup_map hnodup ha hb he

theorem AttemptsEffect.change (hs : AttemptsSound old) (h : AttemptsEffect op old new)
    (ha : a ∈ old) (ha' : a' ∈ new) (he : a'.stateHash = a.stateHash) :
    AttemptChange op a a' := by
  have hrow : ∀ {rows : List FoldedAuthAttempt}, Evolves op old rows → a' ∈ rows →
      AttemptChange op a a' := by
    intro rows hev hmem
    obtain ⟨b, hb, hchange⟩ := hev.exists_old hmem
    have hab := hs.eq_of_hash hb ha (hchange.keys.1.symm.trans he)
    exact hab ▸ hchange
  cases h with
  | evolved hev => exact hrow hev ha'
  | started q now expiresAt generation hop hev hkeys hlt hfree =>
    rcases List.mem_cons.1 ha' with rfl | ha'
    · -- the rotation keeps the state hash of `a`, so the new attempt has another one
      have hmem : a.stateHash ∈ _ := List.mem_map_of_mem ha
      rw [← hkeys] at hmem
      obtain ⟨b, hb, hbe⟩ := List.mem_map.1 hmem
      exact absurd (hbe.trans he.symm) (hfree b hb).1
    · exact hrow hev ha'

theorem AttemptsEffect.generation (h : AttemptsEffect op old new)
    (ha' : a' ∈ new) (hnew : ∀ a ∈ old, a.stateHash ≠ a'.stateHash) :
    a'.status = .pending ∧
      ∀ a ∈ old, a.ofHandle a'.creator a'.bundleId → a.generation < a'.generation := by
  have hold : ∀ {rows : List FoldedAuthAttempt}, Evolves op old rows → a' ∉ rows := by
    intro rows hev hmem
    obtain ⟨a, ha, hchange⟩ := hev.exists_old hmem
    exact hnew a ha hchange.keys.1.symm
  cases h with
  | evolved hev => exact absurd ha' (hold hev)
  | started q now expiresAt generation hop hev hkeys hlt hfree =>
    rcases List.mem_cons.1 ha' with rfl | ha'
    · exact ⟨rfl, hlt⟩
    · exact absurd ha' (hold hev)

/-- **Acceptance.**  A pending attempt is accepted exactly by the transaction
    that inserts its graph task, before it expires. -/
theorem accepted_iff (hs : AttemptsSound db.attempts) (hrun : op.run E db = some db')
    (ha : a ∈ db.attempts) (hp : a.status = .pending) :
    (∃ a' ∈ db'.attempts, a'.stateHash = a.stateHash ∧ a'.status = .accepted) ↔
      ∃ taskId reader now s, op = .admission (.acceptAndInsertGraphTask a taskId reader now) ∧
        now < a.expiresAt ∧ a.Binds reader now s ∧
        db'.tasks = Graph.newRow taskId s :: db.tasks := by
  constructor
  · rintro ⟨a', ha', he, hacc⟩
    cases (attemptsEffect_of_run hrun).change hs ha ha' he with
    | kept =>
      rw [hp] at hacc
      cases hacc
    | polled d _ => exact absurd (hp.symm.trans hacc) (by decide)
    | closed status now purgeAfter _ hst =>
      rcases hst with rfl | rfl <;> cases hacc
    | accepted attempt taskId reader now purgeAfter hop hkey hexp =>
      subst hop
      obtain ⟨hc, hw⟩ := Transactions.Program.run_eq_some.1 hrun
      have hc := hc _ List.mem_cons_self
      simp only [Bool.and_eq_true, List.contains_iff_mem, beq_iff_eq] at hc
      have hattempt := hs.eq_of_hash hc.1 ha (pendingAs_iff.1 hkey).1.symm
      subst hattempt
      simp only [Admission.program, Admission.write, Admission.acceptWrite] at hw
      rw [if_neg (not_le.2 hexp)] at hw
      split at hw
      · rename_i task purgeAfter' htask _
        split at hw
        · cases hw
        · obtain ⟨db₁, hins, rfl⟩ := Option.map_eq_some_iff.1 hw
          obtain ⟨-, -, rfl⟩ := insertTask_eq_some.1 hins
          exact ⟨taskId, reader, now, task.snapshot, rfl, hexp,
            binds_of_acceptedGraphTask htask, rfl⟩
      · cases hw
  · rintro ⟨taskId, reader, now, s, rfl, hexp, -, htasks⟩
    obtain ⟨-, hw⟩ := Transactions.Program.run_eq_some.1 hrun
    simp only [Admission.program, Admission.write, Admission.acceptWrite] at hw
    rw [if_neg (not_le.2 hexp)] at hw
    split at hw
    · split at hw
      · cases hw
      · obtain ⟨db₁, hins, rfl⟩ := Option.map_eq_some_iff.1 hw
        obtain ⟨-, -, rfl⟩ := insertTask_eq_some.1 hins
        refine ⟨_, Table.mem_updateWhere.2 ⟨a, ha, .inl ⟨?_, rfl⟩⟩, rfl, rfl⟩
        exact pendingAs_iff.2 ⟨rfl, rfl, hp⟩
    · cases hw

theorem attemptsSound_of_run {ops : List Operation}
    (h : Runs.Run (Runs.ofExec (Operation.run E)) .empty ops db) : AttemptsSound db.attempts :=
  h.invariant (I := fun db => AttemptsSound db.attempts) ⟨.nil, by simp [empty]⟩
    fun _ _ _ hs hstep => attemptsSound_of_effect hs (attemptsEffect_of_run hstep)

/-- **The lifecycle of attempts.**  In every state the service reaches, at most
    one attempt of a handle is pending, their generations differ, and a flow
    secret is stored exactly while its attempt is pending.  And every
    transaction from it: starts an attempt with a generation above those stored,
    keeps or deletes a closed attempt, writes nothing if the attempt it names is
    not pending, and accepts an attempt exactly if it inserts its graph task
    before the attempt expires. -/
theorem attempts_lifecycle (E : Externals) (ops : List Operation) (db : Database)
    (hrun : Runs.Run (Runs.ofExec (Operation.run E)) .empty ops db) :
    (∀ c b, (db.attempts.filter fun a => a.ofHandle c b && a.status == .pending).length ≤ 1 ∧
      ((db.attempts.filter (·.ofHandle c b)).map (·.generation)).Nodup) ∧
    (∀ a ∈ db.attempts, a.encryptedFlowSecret.isSome ↔ a.status = .pending) ∧
    (∀ (op : Operation) h g, op.names? = some (h, g) → (∀ a ∈ db.attempts, ¬ a.pendingAs h g) →
      op.run E db = none) ∧
    ∀ (op : Operation) db', op.run E db = some db' →
      (∀ a' ∈ db'.attempts, (∀ a ∈ db.attempts, a.stateHash ≠ a'.stateHash) →
        a'.status = .pending ∧
          ∀ a ∈ db.attempts, a.ofHandle a'.creator a'.bundleId → a.generation < a'.generation) ∧
      (∀ a ∈ db.attempts, a.status ≠ .pending → ∀ a' ∈ db'.attempts,
        a'.stateHash = a.stateHash → a' = a) ∧
      (∀ a ∈ db.attempts, a.status = .pending →
        ((∃ a' ∈ db'.attempts, a'.stateHash = a.stateHash ∧ a'.status = .accepted) ↔
          ∃ taskId reader now s, op = .admission (.acceptAndInsertGraphTask a taskId reader now) ∧
            now < a.expiresAt ∧ a.Binds reader now s ∧
            db'.tasks = Graph.newRow taskId s :: db.tasks)) := by
  have hs := attemptsSound_of_run hrun
  refine ⟨fun c b => ⟨?_, ?_⟩, hs.secret, fun op h g hop hstale => run_of_stale hop hstale, ?_⟩
  · refine Table.length_le_one_of_pairwise (hs.apart.filter _) fun x hx y hy hapart => ?_
    simp only [List.mem_filter, Bool.and_eq_true, beq_iff_eq, ofHandle] at hx hy
    obtain ⟨-, ⟨hxc, hxb⟩, hxp⟩ := hx
    obtain ⟨-, ⟨hyc, hyb⟩, hyp⟩ := hy
    exact (hapart.2 (hxc.trans hyc.symm) (hxb.trans hyb.symm)).2 ⟨hxp, hyp⟩
  · refine List.pairwise_map.2 ((hs.apart.filter _).imp_of_mem fun hx hy hapart => ?_)
    simp only [List.mem_filter, Bool.and_eq_true, beq_iff_eq, ofHandle] at hx hy
    exact (hapart.2 (hx.2.1.trans hy.2.1.symm) (hx.2.2.trans hy.2.2.symm)).1
  · intro op db' hop
    have heff := attemptsEffect_of_run hop
    refine ⟨fun a' ha' hnew => heff.generation ha' hnew, fun a ha hclosed a' ha' he => ?_,
      fun a ha hp => accepted_iff hs hop ha hp⟩
    exact (heff.change hs ha ha' he).closed_eq hclosed

/-- An attempt is started, and its approval is accepted a minute later. -/
theorem attempt_accepted : let E := Externals.constant (.replicate 7)
    let db : Database := { Database.empty with attempts := [startedAttempt] }
    let accept : Operation := .admission
      (.acceptAndInsertGraphTask startedAttempt ⟨⟨1⟩⟩ ⟨"reader"⟩ (Duration.seconds 60))
    Runs.Run (Runs.ofExec (Operation.run E)) .empty [.admission (.startOrRotate followStart 0)] db ∧
      ∃ db' s, accept.run E db = some db' ∧
        startedAttempt.Binds ⟨"reader"⟩ (Duration.seconds 60) s ∧
        db'.tasks = Graph.newRow ⟨⟨1⟩⟩ s :: db.tasks := by
  intro E db accept
  have hrun : Runs.Run (Runs.ofExec (run E)) .empty
      [.admission (.startOrRotate followStart 0)] db :=
    Runs.run_of_execList (run E) (by decide +kernel)
  have h : (accept.run E db).any fun db' => db'.attempts.any fun a' =>
      a'.stateHash == startedAttempt.stateHash && a'.status == .accepted := by
    decide +kernel
  obtain ⟨db', hdb', hany⟩ := (Option.any_eq_true _ _).1 h
  obtain ⟨a', ha', hacc⟩ := List.any_eq_true.1 hany
  rw [Bool.and_eq_true, beq_iff_eq, beq_iff_eq] at hacc
  obtain ⟨-, -, -, hstep⟩ := attempts_lifecycle E _ db hrun
  obtain ⟨-, -, hiff⟩ := hstep accept db' hdb'
  obtain ⟨taskId, reader, now, s, hop, -, hbinds, htasks⟩ :=
    (hiff startedAttempt List.mem_cons_self rfl).1 ⟨a', ha', hacc⟩
  injection hop with hop
  injection hop with _ htask hreader hnow
  subst htask hreader hnow
  exact ⟨hrun, db', s, hdb', hbinds, htasks⟩

end PubkyLocks
