/-
  Publications and deletions of a content lock exclude each other.

  Every transaction on an intent, and every one that writes a deletion job or a
  receipt, holds the advisory lock of the content lock.  So what such a
  transaction has read about the lock still holds when it commits.
-/
import PubkyLocks.Publishing.Transactions

namespace PubkyLocks

open PublicationTransaction PublicationDb PublicationStatement PublicationIntent

open RowLocks (row?)

/-! ## The locks of a transaction -/

variable {E : Externals} {t : PublicationTransaction} {s s' : PublicationDb} {c : CreatorPubky}
  {l : LockId}

namespace PublicationTransaction

theorem lock_mem_locks (h : t.lock? = some (c, l)) :
    AdmissionLock.lock c l ∈ (t.program E).locks := by
  cases t with
  | store t => exact Transaction.lock_mem_locks (E := E) h
  | reservePaths | markPathsPublished | compensateReservedPaths => cases h
  | _ =>
    cases h
    exact List.mem_singleton_self _

end PublicationTransaction

theorem PublicationDb.hasIntent_iff :
    s.database.hasIntent c l ↔ ∃ i ∈ s.intents, i.creator = c ∧ i.lockId = l := by
  rw [Database.hasIntent_iff]
  constructor
  · rintro ⟨k, hk, hc, hl⟩
    obtain ⟨i, hi, rfl⟩ := List.mem_map.1 hk
    exact ⟨i, hi, hc, hl⟩
  · rintro ⟨i, hi, hc, hl⟩
    exact ⟨_, List.mem_map.2 ⟨i, hi, rfl⟩, hc, hl⟩

variable {i : PublicationIntent} {db : Database} {t' : Transaction}

theorem PublicationDb.intent?_eq_some (hkeys : (s.intents.map key).Nodup) : s.intent? c l = some i ↔
    i ∈ s.intents ∧ i.key = (c, l) := by
  constructor
  · intro h
    have hkey := List.find?_some h
    rw [Bool.and_eq_true, beq_iff_eq, beq_iff_eq] at hkey
    exact ⟨List.mem_of_find?_eq_some h, Prod.ext hkey.1 hkey.2⟩
  · rintro ⟨hi, hkey⟩
    obtain ⟨rfl, rfl⟩ := Prod.mk.inj hkey
    cases hfind : s.intent? i.creator i.lockId with
    | none => exact absurd (by simp) (List.find?_eq_none.1 hfind i hi)
    | some j =>
      have hj := List.find?_some hfind
      rw [Bool.and_eq_true, beq_iff_eq, beq_iff_eq] at hj
      exact congrArg some (List.inj_on_of_nodup_map hkeys (List.mem_of_find?_eq_some hfind) hi
        (Prod.ext hj.1 hj.2))

/-! ## What a write does -/

/-- **Only a new job or a new receipt** cuts a lock off. -/
theorem not_cutoff_of_effect {db' : Database} {op : Operation} (h : Effect db op db')
    (hcut : db.deletionCutoff c l = false)
    (hjob : ∀ job seen t, op = .insertJob job seen t → ¬ (job.creator = c ∧ job.lockId = l))
    (hforce : ∀ manifest now, op ≠ .prepareForceDeletion c l manifest now) :
    db'.deletionCutoff c l = false := by
  rw [Database.deletionCutoff_eq_false] at hcut ⊢
  obtain ⟨hjobs, hreceipt⟩ := hcut
  cases h with
  | admitted a r attempts _ _ => exact ⟨hjobs, hreceipt⟩
  | attempts op attempts => exact ⟨hjobs, hreceipt⟩
  | intents op intents _ => exact ⟨hjobs, hreceipt⟩
  | statement st snapshots _ _ _ => exact ⟨hjobs, hreceipt⟩
  | jobInserted job seen t _ _ _ =>
    exact ⟨List.forall_mem_cons.2 ⟨hjob job seen t rfl, hjobs⟩, hreceipt⟩
  | jobsUpdated op p f snapshots hu _ =>
    refine ⟨fun j hj => ?_, hreceipt⟩
    obtain ⟨k, hk, ⟨-, rfl⟩ | ⟨-, rfl⟩⟩ := Table.mem_updateWhere.1 hj
    · rw [hu.creator, hu.lockId]
      exact hjobs k hk
    · exact hjobs j hk
  | expired lease now snapshots _ _ _ => exact ⟨hjobs, hreceipt⟩
  | receiptsUpdated op p f hkey =>
    exact ⟨hjobs, (Database.hasReceipt_updateWhere hkey).trans hreceipt⟩
  | receiptWritten c' l' manifest frozen now _ =>
    refine ⟨hjobs, ?_⟩
    rw [← Bool.not_eq_true] at hreceipt ⊢
    rw [Database.hasReceipt_cons, not_or]
    refine ⟨?_, hreceipt⟩
    rintro ⟨rfl, rfl⟩
    exact hforce manifest now rfl
  | forceCompleted lease now job receipt hmem _ _ hkey =>
    refine ⟨fun j hj => hjobs j (List.mem_of_mem_filter hj), ?_⟩
    rw [← Bool.not_eq_true] at hreceipt ⊢
    refine fun h => ?_
    rcases Database.hasReceipt_cons.1 h with ⟨hc, hl⟩ | h
    · exact hjobs job hmem ⟨hkey.1.symm.trans hc, hkey.2.symm.trans hl⟩
    · exact hreceipt h

section
variable (h : t.write E s = some s')
include h

/-- **What a write does to an intent.** -/
theorem intent_cases (hi : i ∈ s.intents) : i ∈ s'.intents ∨
    (t = .markPublicationWritten i.creator i.lockId i.publicationToken ∧
      { i with written := true } ∈ s'.intents) ∨
    t = .abandonPublication i.creator i.lockId i.publicationToken ∨
    (∃ original, t = .compensatePublication i.creator i.lockId i.publicationToken original ∧
      i.written = false) ∨
    (∃ published paths, t = .reconcilePublication i.creator i.lockId published paths ∧
      i.written = true) := by
  have hfilter : ∀ p : PublicationIntent → Bool, p i = false → i ∈ s.intents.filter fun i => !p i :=
    fun p hp => List.mem_filter.2 ⟨hi, by rw [hp]; rfl⟩
  cases t with
  | reservePaths | markPathsPublished | compensateReservedPaths =>
    cases h
    exact .inl hi
  | beginPublication c l token original =>
    simp only [write] at h
    split at h
    · cases h
    · cases h
      exact .inl (List.mem_cons_of_mem _ hi)
  | markPublicationWritten c l token =>
    cases h
    cases hp : PublicationTables.holdsToken c l token i with
    | false => exact .inl (Table.mem_updateWhere.2 ⟨i, hi, .inr ⟨hp, rfl⟩⟩)
    | true =>
      refine .inr (.inl ⟨?_, Table.mem_updateWhere.2 ⟨i, hi, .inl ⟨hp, rfl⟩⟩⟩)
      simp only [PublicationTables.holdsToken, Bool.and_eq_true, beq_iff_eq] at hp
      rw [hp.1.1, hp.1.2, hp.2]
  | abandonPublication c l token =>
    cases h
    cases hp : PublicationTables.holdsToken c l token i with
    | false => exact .inl (hfilter _ hp)
    | true =>
      simp only [PublicationTables.holdsToken, Bool.and_eq_true, beq_iff_eq] at hp
      rw [hp.1.1, hp.1.2, hp.2]
      exact .inr (.inr (.inl rfl))
  | compensatePublication c l token original =>
    cases h
    cases hp : PublicationTables.uncompleted c l token i with
    | false => exact .inl (hfilter _ hp)
    | true =>
      simp only [PublicationTables.uncompleted, PublicationTables.holdsToken, Bool.and_eq_true,
        beq_iff_eq, Bool.not_eq_true'] at hp
      obtain ⟨⟨⟨hc, hl⟩, htoken⟩, hw⟩ := hp
      rw [hc, hl, htoken]
      exact .inr (.inr (.inr (.inl ⟨original, rfl, hw⟩)))
  | reconcilePublication c l published paths =>
    cases h
    cases hp : i.creator == c && i.lockId == l && i.written with
    | false => exact .inl (hfilter (fun i => i.creator == c && i.lockId == l && i.written) hp)
    | true =>
      simp only [Bool.and_eq_true, beq_iff_eq] at hp
      rw [hp.1.1, hp.1.2]
      exact .inr (.inr (.inr (.inr ⟨published, paths, rfl, hp.2⟩)))
  | store t =>
    simp only [write] at h
    split at h
    · cases h
    · obtain ⟨db, -, rfl⟩ := Option.map_eq_some_iff.1 h
      exact .inl hi

/-- **Where an intent comes from.** -/
theorem intent_new (hi : i ∈ s'.intents) : i ∈ s.intents ∨
    (∃ j ∈ s.intents, t = .markPublicationWritten j.creator j.lockId j.publicationToken ∧
      i = { j with written := true }) ∨
    (∃ original, t = .beginPublication i.creator i.lockId i.publicationToken original ∧
      i.key ∉ s.intents.map key) := by
  cases t with
  | reservePaths | markPathsPublished | compensateReservedPaths =>
    cases h
    exact .inl hi
  | beginPublication c l token original =>
    simp only [write] at h
    split at h
    · cases h
    · rename_i hfree
      cases h
      rcases List.mem_cons.1 hi with rfl | hi
      · refine .inr (.inr ⟨original, rfl, fun hmem => hfree ?_⟩)
        obtain ⟨j, hj, hkey⟩ := List.mem_map.1 hmem
        obtain ⟨hc, hl⟩ := Prod.mk.inj hkey
        exact List.any_eq_true.2 ⟨j, hj, by simp [hc, hl]⟩
      · exact .inl hi
  | markPublicationWritten c l token =>
    cases h
    obtain ⟨j, hj, ⟨hp, rfl⟩ | ⟨-, rfl⟩⟩ := Table.mem_updateWhere.1 hi
    · refine .inr (.inl ⟨j, hj, ?_, rfl⟩)
      simp only [PublicationTables.holdsToken, Bool.and_eq_true, beq_iff_eq] at hp
      rw [hp.1.1, hp.1.2, hp.2]
    · exact .inl hj
  | abandonPublication | compensatePublication | reconcilePublication =>
    cases h
    exact .inl (List.mem_of_mem_filter hi)
  | store t =>
    simp only [write] at h
    split at h
    · cases h
    · obtain ⟨db, -, rfl⟩ := Option.map_eq_some_iff.1 h
      exact .inl hi

theorem mem_intents_of_write (hl : t.lock? ≠ some i.key) : i ∈ s'.intents ↔ i ∈ s.intents := by
  constructor
  · intro hi
    rcases intent_new h hi with hi | ⟨j, -, rfl, rfl⟩ | ⟨original, rfl, -⟩
    · exact hi
    · exact absurd rfl hl
    · exact absurd rfl hl
  · intro hi
    rcases intent_cases h hi with hi | ⟨rfl, -⟩ | rfl | ⟨original, rfl, -⟩ |
      ⟨published, paths, rfl, -⟩
    · exact hi
    all_goals exact absurd rfl hl

theorem keys_of_write (hkeys : (s.intents.map key).Nodup) : (s'.intents.map key).Nodup := by
  cases t with
  | reservePaths | markPathsPublished | compensateReservedPaths =>
    cases h
    exact hkeys
  | beginPublication c l token original =>
    simp only [write] at h
    split at h
    · cases h
    · rename_i hfree
      cases h
      refine List.nodup_cons.2 ⟨fun hmem => hfree ?_, hkeys⟩
      obtain ⟨j, hj, hkey⟩ := List.mem_map.1 hmem
      obtain ⟨hc, hl⟩ := Prod.mk.inj hkey
      exact List.any_eq_true.2 ⟨j, hj, by simp [hc, hl]⟩
  | markPublicationWritten c l token =>
    cases h
    have hsame := Table.map_updateWhere (l := s.intents) (k := key)
      (p := PublicationTables.holdsToken c l token) (f := fun i => { i with written := true })
      fun _ _ _ => rfl
    exact hsame ▸ hkeys
  | abandonPublication | compensatePublication | reconcilePublication =>
    cases h
    exact hkeys.sublist (List.filter_sublist.map _)
  | store t =>
    simp only [write] at h
    split at h
    · cases h
    · obtain ⟨db, -, rfl⟩ := Option.map_eq_some_iff.1 h
      exact hkeys

end

/-! ## What an open transaction relies on -/

structure PublicationTransaction.Relies (E : Externals) (t : PublicationTransaction) (n : ℕ)
    (s : PublicationDb) : Prop where
  store : ∀ t', t = .store t' → t'.Relies E n s.database
  valid : ∀ b, .require b ∈ (t.statements E).take n → b = true
  deletion : ∀ c l, .noDeletion c l ∈ (t.statements E).take n →
    s.database.deletionCutoff c l = false
  uncompleted : ∀ c l token original,
    .selectUncompleted c l token original ∈ (t.statements E).take n →
    ∃ i, s.intent? c l = some i ∧ i.publicationToken = token ∧ i.written = false ∧
      i.originalContentLock = original
  completed : ∀ c l published, .selectCompleted c l published ∈ (t.statements E).take n →
    ∃ i, s.intent? c l = some i ∧ i.written = true ∧ i.originalContentLock = published

theorem store_of_write (ht : t = .store t') (h : t.write E s = some s') :
    t'.write E s.database = some s'.db ∧ s'.intents = s.intents := by
  subst ht
  simp only [write] at h
  split at h
  · cases h
  · obtain ⟨db, hdb, rfl⟩ := Option.map_eq_some_iff.1 h
    exact ⟨hdb, rfl⟩

theorem db_of_write (ht : ∀ t', t ≠ .store t') (h : t.write E s = some s') : s'.db = s.db := by
  cases t with
  | store t' => exact absurd rfl (ht t')
  | beginPublication c l token original =>
    simp only [write] at h
    split at h
    · cases h
    · cases h
      rfl
  | _ =>
    cases h
    rfl

theorem sound_intents (h : db.Sound) (intents : List IntentKey) :
    Database.Sound { db with intents } :=
  ⟨h.taskIds, h.jobIds, h.jobLocks, h.checks, h.creator, h.phase, h.proof, h.job, h.paykit⟩

variable {n : ℕ}

section
variable (hs : s.database.Sound) (hr : t.Relies E (t.statements E).length s)
include hs hr

theorem PublicationTransaction.Relies.effect (ht : t = .store t') (h : t.write E s = some s') :
    t'.Relies E (t'.checks E).length s.database ∧ Effect s.database t'.operation s'.db := by
  have hlength : (t.statements E).length = (t'.checks E).length := by
    rw [ht]
    exact List.length_map _
  have hr' := hr.store t' ht
  rw [hlength] at hr'
  exact ⟨hr', commit_effect hs hr' (store_of_write ht h).1⟩

/-- **Integrity** is kept by every commit. -/
theorem sound_of_write (h : t.write E s = some s') : s'.database.Sound := by
  by_cases ht : ∃ t', t = .store t'
  · obtain ⟨t', ht⟩ := ht
    exact sound_intents (sound_of_effect hs (hr.effect hs ht h).2) _
  · have hdb := db_of_write (fun t' ht' => ht ⟨t', ht'⟩) h
    unfold database
    rw [hdb]
    exact sound_intents hs _

/-- **A commit keeps what is known of the other locks.** -/
theorem lockKept_of_write (h : t.write E s = some s') (hl : t.lock? ≠ some (c, l)) :
    LockKept c l s.database s'.database := by
  have hintent : s'.database.hasIntent c l → s.database.hasIntent c l := by
    rw [hasIntent_iff, hasIntent_iff]
    rintro ⟨i, hi, rfl, rfl⟩
    exact ⟨i, (mem_intents_of_write h hl).1 hi, rfl, rfl⟩
  by_cases ht : ∃ t', t = .store t'
  · obtain ⟨t', rfl⟩ := ht
    obtain ⟨hr', heffect⟩ := hr.effect hs rfl h
    have hkept := lockKept_of_effect heffect
      (hr'.apart hs (store_of_write rfl h).1 hl)
    exact ⟨hintent, hkept.receipt, hkept.job, hkept.jobKey, hkept.tasks⟩
  · have hdb := db_of_write (fun t' ht' => ht ⟨t', ht'⟩) h
    have hsame : s'.database =
        { s.database with intents := s'.intents.map fun i => ⟨i.creator, i.lockId⟩ } := by
      unfold database
      rw [hdb]
    rw [hsame] at hintent ⊢
    exact { LockKept.refl with intent := hintent }

end

theorem intent?_of_write (hkeys : (s.intents.map key).Nodup)
    (h : t.write E s = some s') (hl : t.lock? ≠ some (c, l))
    (hi : s.intent? c l = some i) : s'.intent? c l = some i := by
  rw [intent?_eq_some hkeys] at hi
  rw [intent?_eq_some (keys_of_write h hkeys), mem_intents_of_write h]
  · exact hi
  · rw [hi.2]
    exact hl

/-! ### Steps -/

namespace PublicationTransaction

theorem relies_zero : t.Relies E 0 s where
  store := fun _ _ => Transaction.relies_zero
  valid := fun _ h => by simp at h
  deletion := fun _ _ h => by simp at h
  uncompleted := fun _ _ _ _ h => by simp at h
  completed := fun _ _ _ h => by simp at h

theorem lock?_of_noDeletion (h : .noDeletion c l ∈ t.statements E) : t.lock? = some (c, l) := by
  cases t with
  | beginPublication c' l' token original =>
    rcases List.mem_pair.1 h with he | he
    · cases he
    · cases he
      rfl
  | _ => simp [statements] at h

theorem lock?_of_selectUncompleted {token : Uuid} {original : ContentLock}
    (h : .selectUncompleted c l token original ∈ t.statements E) : t.lock? = some (c, l) := by
  cases t with
  | compensatePublication c' l' token' original' =>
    rcases List.mem_cons.1 h with he | h
    · cases he
      rfl
    · simp at h
  | _ => simp [statements] at h

theorem lock?_of_selectCompleted {published : ContentLock}
    (h : .selectCompleted c l published ∈ t.statements E) : t.lock? = some (c, l) := by
  cases t with
  | reconcilePublication c' l' published' paths =>
    rcases List.mem_pair.1 h with he | he
    · cases he
    · cases he
      rfl
  | _ => simp [statements] at h

theorem Relies.statement (hs : s.database.Sound)
    (hkeys : (s.intents.map key).Nodup) (hr : t.Relies E n s)
    {st : PublicationStatement} {r : PublicationReads} {w : Option OwnershipWrite}
    (hdb : r.db = s) (hst : (t.statements E)[n]? = some st) (hrun : st.run r = some w) :
    t.Relies E (n + 1) s := by
  subst hdb
  -- a statement of the first `n + 1` is one of the first `n` or the new one
  have htake : ∀ st', st' ∈ (t.statements E).take (n + 1) →
      st' ∈ (t.statements E).take n ∨ st' = st := by
    intro st' h
    rw [List.take_add_one, hst, List.mem_append] at h
    exact h.imp_right fun h => (Option.some.inj (Option.mem_toList.1 h)).symm
  refine ⟨fun t' ht' => ?_, fun b h => ?_, fun c l h => ?_, fun c l token original h => ?_,
    fun c l published h => ?_⟩
  · subst ht'
    obtain ⟨f, hf, rfl⟩ := Option.map_eq_some_iff.1 ((List.getElem?_map ..).symm.trans hst)
    refine (hr.store t' rfl).check hs hf ?_
    simp only [run] at hrun
    split at hrun
    · rename_i hc
      exact hc
    · cases hrun
  · rcases htake _ h with h | rfl
    · exact hr.valid b h
    · simp only [run] at hrun
      split at hrun
      · rename_i hb
        exact hb
      · cases hrun
  · rcases htake _ h with h | rfl
    · exact hr.deletion c l h
    · simp only [run] at hrun
      split at hrun
      · cases hrun
      · rename_i hcut
        exact Bool.not_eq_true _ ▸ hcut
  · rcases htake _ h with h | rfl
    · exact hr.uncompleted c l token original h
    · simp only [run] at hrun
      split at hrun
      · rename_i hfound
        obtain ⟨i, hi, horiginal⟩ := (Option.any_eq_true _ _).1 hfound
        have hp := List.find?_some hi
        refine ⟨i, (intent?_eq_some hkeys).2 ⟨List.mem_of_find?_eq_some hi,
          PublicationTables.key_of_uncompleted hp⟩, ?_, ?_, beq_iff_eq.1 horiginal⟩ <;>
        simp only [PublicationTables.uncompleted, PublicationTables.holdsToken, Bool.and_eq_true,
          beq_iff_eq, Bool.not_eq_true'] at hp
        · exact hp.1.2
        · exact hp.2
      · cases hrun
  · rcases htake _ h with h | rfl
    · exact hr.completed c l published h
    · simp only [run] at hrun
      split at hrun
      · rename_i hfound
        obtain ⟨i, hi, hp⟩ := (Option.any_eq_true _ _).1 hfound
        rw [Bool.and_eq_true, beq_iff_eq] at hp
        exact ⟨i, hi, hp⟩
      · cases hrun

theorem Relies.commit {a : PublicationTransaction} (hs : s.database.Sound)
    (hkeys : (s.intents.map key).Nodup)
    (hr : t.Relies E (t.statements E).length s) (h : t.write E s = some s') (ha : a.Relies E n s)
    (hapart : ∀ c l, a.lock? = some (c, l) → t.lock? ≠ some (c, l)) : a.Relies E n s' where
  store := fun t' ht' => by
    refine (ha.store t' ht').kept (sound_of_write hs hr h) fun c l hl => ?_
    refine lockKept_of_write hs hr h (hapart c l ?_)
    rw [ht']
    exact hl
  valid := ha.valid
  deletion := fun c l hst =>
    have hl := lock?_of_noDeletion (List.mem_of_mem_take hst)
    (lockKept_of_write hs hr h (hapart c l hl)).cutoff (ha.deletion c l hst)
  uncompleted := fun c l token original hst => by
    have hl := lock?_of_selectUncompleted (List.mem_of_mem_take hst)
    obtain ⟨i, hi, hrest⟩ := ha.uncompleted c l token original hst
    exact ⟨i, intent?_of_write hkeys h (hapart c l hl) hi, hrest⟩
  completed := fun c l published hst => by
    have hl := lock?_of_selectCompleted (List.mem_of_mem_take hst)
    obtain ⟨i, hi, hrest⟩ := ha.completed c l published hst
    exact ⟨i, intent?_of_write hkeys h (hapart c l hl) hi, hrest⟩

end PublicationTransaction

/-! ## Exclusion -/

/-- Every lock with an intent has no deletion. -/
def PublicationDb.Apart (s : PublicationDb) : Prop :=
  ∀ i ∈ s.intents, s.database.deletionCutoff i.creator i.lockId = false

/-- **Exclusion** is kept by every commit. -/
theorem apart_of_write (hs : s.database.Sound) (hr : t.Relies E (t.statements E).length s)
    (h : t.write E s = some s') (hapart : s.Apart) : s'.Apart := by
  intro i hi
  by_cases ht : ∃ t', t = .store t'
  · obtain ⟨t', rfl⟩ := ht
    obtain ⟨hr', heffect⟩ := hr.effect hs rfl h
    rw [(store_of_write rfl h).2] at hi
    have hintent : s.database.hasIntent i.creator i.lockId :=
      hasIntent_iff.2 ⟨i, hi, rfl, rfl⟩
    show s'.db.deletionCutoff i.creator i.lockId = false
    refine not_cutoff_of_effect heffect (hapart i hi) (fun job seen now hop => ?_)
      fun manifest now hop => ?_
    · -- a new job has found no intent of its lock
      cases t' with
      | insertJob job' rows now' =>
        cases hop
        have hcheck := hr'.passed (k := 2) rfl rfl
        rintro ⟨hc, hl⟩
        rw [hc, hl, hintent] at hcheck
        cases hcheck
      | single op =>
        have hw := (store_of_write rfl h).1
        simp only [Transaction.operation] at hop
        subst hop
        cases hw
      | _ => cases hop
    · -- and neither has a new receipt
      cases t' with
      | prepareForceDeletion c l manifest' now' known =>
        cases hop
        have hcheck := hr'.passed (k := 0) rfl rfl
        rw [hintent] at hcheck
        cases hcheck
      | single op =>
        have hw := (store_of_write rfl h).1
        simp only [Transaction.operation] at hop
        subst hop
        cases hw
      | _ => cases hop
  · have hdb := db_of_write (fun t' ht' => ht ⟨t', ht'⟩) h
    have hcut : ∀ c l, s'.database.deletionCutoff c l = s.database.deletionCutoff c l := by
      intro c l
      unfold database
      rw [hdb]
      rfl
    rw [hcut]
    rcases intent_new h hi with hi | ⟨j, hj, -, rfl⟩ | ⟨original, rfl, -⟩
    · exact hapart i hi
    · exact hapart j hj
    · refine hr.deletion _ _ ?_
      rw [List.take_length]
      exact List.mem_cons_of_mem _ (List.mem_singleton_self _)

theorem paths_of_reconciliation {published : ContentLock} {paths : List String}
    (h : publicationReconciliationMatches E c l published paths) :
    paths.Nodup ∧ ∀ p, p ∈ paths ↔ p ∈ publicationGuardedPaths published := by
  simp only [publicationReconciliationMatches, Bool.and_eq_true, beq_iff_eq, List.all_eq_true,
    List.contains_iff_mem] at h
  obtain ⟨⟨⟨-, hlength⟩, hexpected⟩, hpaths⟩ := h
  have hsub : (publicationGuardedPaths published).dedup ⊆ paths :=
    fun p hp => hexpected p (List.mem_dedup.1 hp)
  have hperm := (List.subperm_of_subset (List.nodup_dedup _) hsub).perm_of_length_le
    (le_of_eq hlength.symm)
  exact ⟨hperm.nodup_iff.1 (List.nodup_dedup _), fun p => ⟨hpaths p, hexpected p⟩⟩

/-! ## Runs -/

namespace PublicationSystem

/-- The invariant of the publication transactions: integrity of the tables, one
    intent for a lock, exclusion, and what the open transactions rely on. -/
structure ExclusionInvariant (E : Externals) (s : PublicationSystem) : Prop where
  ownership : OwnershipInvariant E s
  sound : s.db.database.Sound
  keys : (s.db.intents.map key).Nodup
  apart : s.db.Apart
  relies : RowLocks.Knows (fun t n db _ _ => t.Relies E n db) s

/-- What one event does to the intents, and to the paths of a compensation. -/
structure IntentsStep (s : PublicationSystem) (e : RowLocks.Event PublicationTransaction)
    (s' : PublicationSystem) : Prop where
  intents : ∀ i ∈ s.db.intents, i ∈ s'.db.intents ∨ ∃ t ∈ s.active, e = .commit t.id ∧
    (t.label = .markPublicationWritten i.creator i.lockId i.publicationToken ∧
        { i with written := true } ∈ s'.db.intents ∨
      t.label = .abandonPublication i.creator i.lockId i.publicationToken ∨
      t.label = .compensatePublication i.creator i.lockId i.publicationToken
          i.originalContentLock ∧ i.written = false ∨
      ∃ paths, t.label = .reconcilePublication i.creator i.lockId i.originalContentLock paths ∧
        i.written = true ∧ paths.Nodup ∧
        ∀ p, p ∈ paths ↔ p ∈ publicationGuardedPaths i.originalContentLock)
  compensation : ∀ t ∈ s.active, e = .commit t.id → ∀ c l token original,
    t.label = .compensatePublication c l token original →
    (∃ i ∈ s.db.intents, i.creator = c ∧ i.lockId = l ∧ i.publicationToken = token ∧
      i.written = false ∧ i.originalContentLock = original) ∧
    ∀ o ∈ s.rows, o ∉ s'.rows → o.creator = c ∧ o.lockId = l ∧ o.status = .reserved

section
variable {s s' : PublicationSystem} {e : RowLocks.Event PublicationTransaction}
  {t : RowLocks.Open (CreatorPubky × String) ContentLockOwnership PublicationTransaction}

theorem exclusionInvariant_init : ExclusionInvariant E init where
  ownership := ownershipInvariant_init
  sound := Database.sound_empty
  keys := List.nodup_nil
  apart := List.forall_mem_nil _
  relies := List.forall_mem_nil _

section
variable (h : ExclusionInvariant E s)
include h

theorem ExclusionInvariant.relies_all (ht : t ∈ s.active)
    (hp : t.passed = (t.label.program E).statements.length) :
    t.label.Relies E (t.label.statements E).length s.db := by
  have hlength : t.passed = (t.label.statements E).length := hp.trans (List.length_map _)
  rw [← hlength]
  exact h.relies t ht

/-- **One event** keeps the invariant. -/
theorem exclusionInvariant_exec (hstep : exec E s e = some s') : ExclusionInvariant E s' := by
  have hrelies : RowLocks.Knows (fun t n db _ _ => t.Relies E n db) s' := by
    refine RowLocks.knows_exec h.relies hstep ?_ ?_ ?_
    · exact fun _ _ _ => relies_zero
    · intro t ht fresh f w hf hw hr
      obtain ⟨st, hst, hrun⟩ := statement_of_program hf
      rw [hrun] at hw
      exact hr.statement h.sound h.keys rfl hst hw
    · intro t ht hp hw _ a ha hne hr
      refine Relies.commit h.sound h.keys (h.relies_all ht hp) hw hr
        fun c l hla hlt => hne ?_
      exact h.ownership.locks.eq_of_lock ha ht (lock_mem_locks hla)
        (lock_mem_locks hlt)
  have howned := ownershipInvariant_exec h.ownership hstep
  rcases RowLocks.exec_cases hstep with ⟨id, label, -, -, -, rfl⟩ |
    ⟨t, ht, fresh, st, w, -, -, -, -, rfl⟩ | ⟨t, ht, -, hp, hw, -, -⟩ | ⟨id, -, rfl⟩
  · exact ⟨howned, h.sound, h.keys, h.apart, hrelies⟩
  · exact ⟨howned, h.sound, h.keys, h.apart, hrelies⟩
  · have hr := h.relies_all ht hp
    exact ⟨howned, sound_of_write h.sound hr hw, keys_of_write hw h.keys,
      apart_of_write h.sound hr hw h.apart, hrelies⟩
  · exact ⟨howned, h.sound, h.keys, h.apart, hrelies⟩

/-- **What a commit does to an intent.** -/
theorem intent_of_commit (ht : t ∈ s.active) (hp : t.passed = (t.label.program E).statements.length)
    (hw : t.label.write E s.db = some s'.db) {i : PublicationIntent} (hi : i ∈ s.db.intents) :
    i ∈ s'.db.intents ∨
    t.label = .markPublicationWritten i.creator i.lockId i.publicationToken ∧
      { i with written := true } ∈ s'.db.intents ∨
    t.label = .abandonPublication i.creator i.lockId i.publicationToken ∨
    t.label = .compensatePublication i.creator i.lockId i.publicationToken
      i.originalContentLock ∧ i.written = false ∨
    ∃ paths, t.label = .reconcilePublication i.creator i.lockId i.originalContentLock paths ∧
      i.written = true ∧ paths.Nodup ∧
      ∀ p, p ∈ paths ↔ p ∈ publicationGuardedPaths i.originalContentLock := by
  have hr := h.relies_all ht hp
  have hfound : s.db.intent? i.creator i.lockId = some i :=
    (intent?_eq_some h.keys).2 ⟨hi, rfl⟩
  rcases intent_cases hw hi with hkept | hmark | habandon | ⟨original, hl, hwritten⟩ |
    ⟨published, paths, hl, hwritten⟩
  · exact .inl hkept
  · exact .inr (.inl hmark)
  · exact .inr (.inr (.inl habandon))
  · -- the compensation has read this intent
    obtain ⟨j, hj, -, -, horiginal⟩ := hr.uncompleted i.creator i.lockId i.publicationToken
      original (by rw [List.take_length, hl]; exact List.mem_cons_self)
    cases hfound.symm.trans hj
    rw [horiginal]
    exact .inr (.inr (.inr (.inl ⟨hl, hwritten⟩)))
  · -- the reconciliation has read this intent and checked its paths
    have hmem : ∀ st ∈ (reconcilePublication i.creator i.lockId published
        paths).statements E, st ∈ (t.label.statements E).take (t.label.statements E).length := by
      intro st hst
      rw [List.take_length, hl]
      exact hst
    obtain ⟨j, hj, -, horiginal⟩ := hr.completed i.creator i.lockId published
      (hmem _ (List.mem_cons_of_mem _ (List.mem_singleton_self _)))
    have hvalid := hr.valid _ (hmem _ List.mem_cons_self)
    cases hfound.symm.trans hj
    rw [← horiginal] at hl hvalid
    exact .inr (.inr (.inr (.inr ⟨paths, hl, hwritten, paths_of_reconciliation hvalid⟩)))

/-- **One event** ends an intent as its protocol says. -/
theorem intentsStep_exec (hstep : exec E s e = some s') : IntentsStep s e s' := by
  rcases RowLocks.exec_cases hstep with ⟨id, label, rfl, -, -, rfl⟩ |
    ⟨t, ht, fresh, st, w, rfl, -, -, -, rfl⟩ | ⟨t, ht, rfl, hp, hw, hrows, -⟩ | ⟨id, rfl, rfl⟩
  · exact ⟨fun i hi => .inl hi, fun _ _ he => by cases he⟩
  · exact ⟨fun i hi => .inl hi, fun _ _ he => by cases he⟩
  · refine ⟨fun i hi => ?_, fun a ha he c l token original hl => ?_⟩
    · exact (intent_of_commit h ht hp hw hi).imp_right fun hends => ⟨t, ht, rfl, hends⟩
    · have hid : t.id = a.id := by
        injection he
      obtain rfl := h.ownership.locks.eq_of_id ht ha hid
      constructor
      · obtain ⟨i, hi, htoken, hwritten, horiginal⟩ := (h.relies_all ht hp).uncompleted c l token
          original (by rw [List.take_length, hl]; exact List.mem_cons_self)
        obtain ⟨hmem, hkey⟩ := (intent?_eq_some h.keys).1 hi
        obtain ⟨hc, hlock⟩ := Prod.mk.inj hkey
        exact ⟨i, hmem, hc, hlock, htoken, hwritten, horiginal⟩
      · intro o ho hgone
        have hm := moves_of_commit h.ownership ht hrows (Ownership.key o)
        rw [RowLocks.row?_of_mem h.ownership.unique.1 ho] at hm
        rcases hm with hm | hm
        · exact absurd (RowLocks.row?_eq_some hm).1 hgone
        · generalize row? Ownership.key s'.rows _ = after at hm
          cases hm with
          | published paths _ hl' _ => cases hl.symm.trans hl'
          | compensated paths _ hl' _ hs =>
            rw [hl] at hl'
            cases hl'
            exact ⟨rfl, rfl, hs⟩
  · exact ⟨fun i hi => .inl hi, fun _ _ he => by cases he⟩

end

theorem exclusionInvariant_of_run {events : List (RowLocks.Event PublicationTransaction)}
    (h : Runs.Run (Runs.ofExec (exec E)) init events s) : ExclusionInvariant E s :=
  h.invariant (I := ExclusionInvariant E) exclusionInvariant_init
    fun _ _ _ h hstep => exclusionInvariant_exec h hstep

/-- **Publication and deletion exclude each other.**  However the transactions
    interleave, no lock has an intent together with a deletion job or a receipt;
    an intent is marked, abandoned or compensated by a call with its token only,
    compensated only while it is not written, and reconciled only once it is, with
    the guarded paths of its lock; and a compensation deletes reserved rows of its
    creator and lock. -/
theorem publication_exclusive {events : List (RowLocks.Event PublicationTransaction)}
    (h : Runs.Run (Runs.ofExec (exec E)) init events s) :
    (∀ i ∈ s.db.intents,
      (∀ j ∈ s.db.db.jobs, ¬ (j.creator = i.creator ∧ j.lockId = i.lockId)) ∧
      ∀ f ∈ s.db.db.receipts, ¬ (f.creator = i.creator ∧ f.lockId = i.lockId)) ∧
    ∀ e s', exec E s e = some s' → IntentsStep s e s' := by
  have hinv := exclusionInvariant_of_run h
  refine ⟨fun i hi => ?_, fun e s' hstep => intentsStep_exec hinv hstep⟩
  obtain ⟨hjobs, hreceipts⟩ := Database.deletionCutoff_eq_false.1 (hinv.apart i hi)
  refine ⟨hjobs, fun f hf hkey => ?_⟩
  rw [← Bool.not_eq_true] at hreceipts
  exact hreceipts (Database.hasReceipt_iff.2 ⟨f, hf, hkey⟩)

end

/-- A publication whose lock is written, and a deletion job that waits for the
    advisory lock and then finds the intent. -/
def publishedBeforeDeletion : List (RowLocks.Event PublicationTransaction) :=
  let lock := LockId.fromHash (.replicate 7)
  let job : DeletionJob := ⟨⟨2⟩, ⟨"creator"⟩, lock, staticLock ⟨"creator"⟩, 0, .queued, .withdraw,
    0, none, none, none, none, none, none⟩
  [.begin 1 (.beginPublication ⟨"creator"⟩ lock ⟨1⟩ (staticLock ⟨"creator"⟩)),
    .statement 1 true, .statement 1 true, .commit 1,
    .begin 2 (.store (.insertJob job [] 0)), .statement 2 true, .statement 2 true, .abort 2,
    .begin 3 (.markPublicationWritten ⟨"creator"⟩ lock ⟨1⟩), .commit 3]

theorem published_before_deletion : let E := Externals.constant (.replicate 7)
    ∃ s i, Runs.execList (exec E) init publishedBeforeDeletion = some s ∧ s.db.intents = [i] ∧
      i.written = true ∧ (∀ j ∈ s.db.db.jobs, ¬ (j.creator = i.creator ∧ j.lockId = i.lockId)) ∧
      ∀ e s', exec E s e = some s' → IntentsStep s e s' := by
  intro E
  have h : (Runs.execList (exec E) init publishedBeforeDeletion).any fun s =>
      s.db.intents =
        [⟨⟨"creator"⟩, LockId.fromHash (.replicate 7), ⟨1⟩, staticLock ⟨"creator"⟩, true⟩] := by
    decide +kernel
  obtain ⟨s, hs, hi⟩ := (Option.any_eq_true _ _).1 h
  have hi := of_decide_eq_true hi
  have hexclusive := publication_exclusive (Runs.run_of_execList _ hs)
  exact ⟨s, _, hs, hi, rfl, (hexclusive.1 _ (hi ▸ List.mem_singleton_self _)).1, hexclusive.2⟩

end PublicationSystem

end PubkyLocks
