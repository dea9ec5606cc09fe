/-
  Leases of the lanes: which statement of a worker may still write a task.

  A worker claims a task under a fresh token and presents it with every later
  statement.  `LeasedWorld` is the service with the tokens issued so far, and
  `leasedExec` refuses a claim whose token has been issued before.
-/
import PubkyLocks.Store.Invoices

namespace PubkyLocks

open TaskStatement Payment TaskUpdate

/-! ## Statements -/

namespace TaskStatement

def claims? : TaskStatement → Option Lease
  | v1Claim l .. | invoiceClaim l .. | graphClaim l .. | paymentClaim l .. => some l
  | _ => none

/-- The lease under which the other statements of the lanes write. -/
def holds? : TaskStatement → Option Lease
  | v1Retry l .. | v1Persist l .. | invoiceReady l .. | invoiceRetry l .. | invoiceFail l ..
  | graphPersist l .. | graphRetry l .. | graphRelease l | graphComplete l ..
  | paymentPersist l .. | paymentRetry l .. | paymentRelease l | paymentComplete l .. => some l
  | _ => none

def token? (st : TaskStatement) : Option Uuid :=
  (st.claims?.or st.holds?).map (·.claimToken)

def releases : TaskStatement → Bool
  | graphRelease _ | paymentRelease _ => true
  | _ => false

def expectedRevision? : TaskStatement → Option ℕ
  | graphPersist _ n .. | graphRetry _ n .. | graphComplete _ n .. | paymentPersist _ n ..
  | paymentRetry _ n .. | paymentComplete _ n .. => some n
  | _ => none

def writesSnapshot : TaskStatement → Bool
  | graphPersist .. | graphRetry .. | paymentPersist .. | paymentRetry .. => true
  | _ => false

end TaskStatement

def Operation.issues? : Operation → Option Uuid
  | statement st => st.claims?.map (·.claimToken)
  | _ => none

variable {db db' : Database} {r q : TaskRow} {op : Operation} {st : TaskStatement} {l : Lease}

variable {now dbNow : Timestamp} {n : ℕ}

theorem Lease.names_of_holds (h : l.holds r now) : l.names r := by
  simp only [holds, TaskRow.liveClaim, names, Bool.and_eq_true] at h ⊢
  exact ⟨h.1, h.2.1⟩

theorem Lease.token_of_names (h : l.names r) : r.taskId = l.taskId ∧
    r.claimToken = some l.claimToken := by
  simp only [names, TaskRow.claimedAs, Bool.and_eq_true, beq_iff_eq] at h
  exact ⟨h.1, h.2.2⟩

theorem Evaluator.holds_of_publishing {k : Uuid}
    (h : Evaluator.publishing l n k dbNow r) : l.holds r dbNow ∧ r.evaluatorRevision = n := by
  simp only [publishing, Bool.and_eq_true, beq_iff_eq] at h
  exact ⟨h.1.1.1.1, h.1.2⟩

/-- What a worker of the lanes has to present for a statement to match the
    row. -/
structure Presents (st : TaskStatement) (l : Lease) (r : TaskRow) : Prop where
  names : l.names r
  live : st.releases = false → ∃ now, st.dbNow? = some now ∧ l.holds r now
  revision : ∀ n, st.expectedRevision? = some n → r.evaluatorRevision = n

theorem Presents.of_holds (ht : st.dbNow? = some now)
    (hn : st.expectedRevision? = none) (h : l.holds r now) : Presents st l r :=
  ⟨Lease.names_of_holds h, fun _ => ⟨now, ht, h⟩, fun n hn' => by rw [hn] at hn'; cases hn'⟩

theorem Presents.of_revision (ht : st.dbNow? = some now)
    (hn : st.expectedRevision? = some n) (h : l.holds r now) (hr : r.evaluatorRevision = n) :
    Presents st l r := by
  refine ⟨Lease.names_of_holds h, fun _ => ⟨now, ht, h⟩, fun m hm => ?_⟩
  rw [hn] at hm
  cases hm
  exact hr

theorem Graph.holds_of_claimed (h : Graph.claimed db l n dbNow r) :
    l.holds r dbNow ∧ r.evaluatorRevision = n := by
  simp only [Graph.claimed, Bool.and_eq_true, beq_iff_eq] at h
  exact ⟨h.1.1.1.1, h.1.1.2⟩

theorem Payment.holds_of_claimed (h : claimed db l n dbNow r) :
    l.holds r dbNow ∧ r.evaluatorRevision = n := by
  simp only [claimed, Bool.and_eq_true, beq_iff_eq] at h
  exact ⟨h.1.1.1.1, h.1.1.2⟩

/-- **One statement.**  Under a lease a statement only matches the leased row,
    at the revision the worker presents, and but for a release only while the
    lease runs. -/
theorem presents_of_guard (hl : st.holds? = some l) (hg : (st.update db).guard r) :
    Presents st l r := by
  cases st with
  | v1Retry l' now next dbNow =>
    cases hl
    simp only [update, V1.scheduleRetry, Bool.and_eq_true] at hg
    exact .of_holds rfl rfl hg.1.1.1
  | v1Persist l' claimed c dbNow =>
    cases hl
    simp only [update] at hg
    split at hg
    · simp only [V1.persistTransition, Bool.and_eq_true] at hg
      exact .of_holds rfl rfl hg.1.1.1.1
    · cases hg
  | invoiceReady l' created deadline dbNow =>
    cases hl
    simp only [update, Invoice.markReady, Bool.and_eq_true] at hg
    exact .of_holds rfl rfl hg.1.2
  | invoiceRetry l' d dbNow =>
    cases hl
    simp only [update, Invoice.scheduleRetry, Bool.and_eq_true] at hg
    exact .of_holds rfl rfl hg.1.1
  | invoiceFail l' m dbNow =>
    cases hl
    simp only [update, Invoice.markFailed, Bool.and_eq_true] at hg
    exact .of_holds rfl rfl hg.1.2
  | graphPersist l' n next k dbNow =>
    cases hl
    simp only [update, Graph.persist, Bool.and_eq_true] at hg
    obtain ⟨hh, hn⟩ := Graph.holds_of_claimed hg.1.1
    exact .of_revision rfl rfl hh hn
  | graphRetry l' n next now due dbNow =>
    cases hl
    simp only [update, Graph.scheduleRetry, Bool.and_eq_true] at hg
    obtain ⟨hh, hn⟩ := Graph.holds_of_claimed hg.1
    exact .of_revision rfl rfl hh hn
  | graphRelease l' =>
    cases hl
    simp only [update, Graph.release, Bool.and_eq_true] at hg
    exact ⟨hg.1, by rintro ⟨⟩, by rintro _ ⟨⟩⟩
  | graphComplete l' n k dbNow =>
    cases hl
    simp only [update, Graph.complete, Bool.and_eq_true] at hg
    obtain ⟨hh, hn⟩ := Evaluator.holds_of_publishing hg.1.1.2
    exact .of_revision rfl rfl hh hn
  | paymentPersist l' n input k dbNow =>
    cases hl
    simp only [update, ofRow] at hg
    split at hg
    · simp only [persist, Bool.and_eq_true] at hg
      obtain ⟨hh, hn⟩ := holds_of_claimed hg.1.1
      exact .of_revision rfl rfl hh hn
    · cases hg
  | paymentRetry l' n input dbNow =>
    cases hl
    simp only [update, ofRow] at hg
    split at hg
    · simp only [scheduleRetry, Bool.and_eq_true] at hg
      obtain ⟨hh, hn⟩ := holds_of_claimed hg.1
      exact .of_revision rfl rfl hh hn
    · cases hg
  | paymentRelease l' =>
    cases hl
    simp only [update, release, Bool.and_eq_true] at hg
    exact ⟨hg.1.1, by rintro ⟨⟩, by rintro _ ⟨⟩⟩
  | paymentComplete l' n k dbNow =>
    cases hl
    simp only [update, complete, Bool.and_eq_true] at hg
    obtain ⟨hh, hn⟩ := Evaluator.holds_of_publishing hg.1.1.2
    exact .of_revision rfl rfl hh hn
  | _ => cases hl

theorem revision_of_statement (hst : st.standsAlone) (hg : (st.update db).guard r) :
    ((st.update db).set r).evaluatorRevision =
      r.evaluatorRevision + if st.writesSnapshot then 1 else 0 := by
  cases st with
  | v1Persist l claimed c dbNow =>
    simp only [update] at hg ⊢
    split
    · simp only [V1.persistTransition, TaskRow.retainClaims]
      split <;> rfl
    · rfl
  | paymentPersist l n input k dbNow =>
    simp only [update, ofRow] at hg ⊢
    split at hg
    · rfl
    · cases hg
  | paymentRetry l n input dbNow =>
    simp only [update, ofRow] at hg ⊢
    split at hg
    · rfl
    · cases hg
  | drainExpire l id status n now =>
    simp only [update]
    split <;> rfl
  | freeze => cases hst
  | expireUnresolved => cases hst
  | _ => rfl

/-! ## Tokens -/

theorem claimToken_of_statement (hst : st.standsAlone) (hg : (st.update db).guard r) :
    ((st.update db).set r).claimToken = r.claimToken ∨ ((st.update db).set r).claimToken = none ∨
      ((st.update db).set r).claimToken = st.claims?.map (·.claimToken) := by
  have hretain : ∀ b, (r.retainClaims b).claimToken = r.claimToken ∨
      (r.retainClaims b).claimToken = none := by
    rintro (_ | _)
    · exact .inr rfl
    · exact .inl rfl
  cases st with
  | v1Claim => exact .inr (.inr rfl)
  | invoiceClaim => exact .inr (.inr rfl)
  | graphClaim => exact .inr (.inr rfl)
  | paymentClaim => exact .inr (.inr rfl)
  | v1Persist l claimed c dbNow =>
    simp only [update] at hg ⊢
    split at hg
    · exact (hretain _).imp_right .inl
    · cases hg
  | graphPersist l n next k dbNow => exact (hretain _).imp_right .inl
  | paymentPersist l n input k dbNow =>
    simp only [update, ofRow] at hg ⊢
    split at hg
    · exact (hretain _).imp_right .inl
    · cases hg
  | paymentRetry l n input dbNow =>
    simp only [update, ofRow] at hg ⊢
    split at hg
    · exact .inr (.inl rfl)
    · cases hg
  | drainExpire l id status n now =>
    simp only [update] at hg ⊢
    split at hg
    · exact .inr (.inl rfl)
    · cases hg
  | drainBegin => exact .inl rfl
  | freeze => cases hst
  | expireUnresolved => cases hst
  | _ => exact .inr (.inl rfl)

/-- **One row.**  A transaction keeps the token of a row, clears it or writes
    the token it issues. -/
theorem claimToken_of_rowStep (h : RowStep db r op q) :
    q.claimToken = r.claimToken ∨ q.claimToken = none ∨ q.claimToken = op.issues? := by
  cases h with
  | kept => exact .inl rfl
  | statement st hst hg => exact claimToken_of_statement hst hg
  | frozen job seen t _ _ =>
    show Deletion.keepIfInvoicePending r r.claimToken = r.claimToken ∨
      Deletion.keepIfInvoicePending r r.claimToken = none ∨ _
    unfold Deletion.keepIfInvoicePending
    split
    · exact .inl rfl
    · exact .inr (.inl rfl)
  | expired l now hg => exact .inr (.inl rfl)
  | released l now => exact .inl rfl

theorem claimToken_of_newRow {a : Admission} (h : a.NewRow r) : r.claimToken = none := by
  cases a with
  | insertVerificationTask task => subst h; rfl
  | insertInvoicePendingTask task intent t => subst h; rfl
  | insertGraphTask task => obtain ⟨-, rfl⟩ := h; rfl
  | admitPaymentTask q now => obtain ⟨s, -, rfl⟩ := h; rfl
  | startOrRotate q now => exact h.elim
  | acceptAndInsertGraphTask attempt id reader now => obtain ⟨t, -, rfl⟩ := h; rfl

theorem claimToken_of_claim (hl : st.claims? = some l) (hg : (st.update db).guard r) :
    r.taskId = l.taskId ∧ ((st.update db).set r).claimToken = some l.claimToken := by
  cases st with
  | v1Claim l' now e dbNow =>
    cases hl
    simp only [update, V1.claimNext, Bool.and_eq_true, beq_iff_eq] at hg
    exact ⟨hg.1.1.1.1.1.1.1, rfl⟩
  | invoiceClaim l' ttl dbNow =>
    cases hl
    simp only [update, Invoice.claimNext, Bool.and_eq_true, beq_iff_eq] at hg
    exact ⟨hg.1.1.1, rfl⟩
  | graphClaim l' now e dbNow =>
    cases hl
    simp only [update, Graph.claimNext, Bool.and_eq_true, beq_iff_eq] at hg
    exact ⟨hg.1.1.2, rfl⟩
  | paymentClaim l' now e dbNow =>
    cases hl
    simp only [update, claimNext, Bool.and_eq_true, beq_iff_eq] at hg
    exact ⟨hg.1.1.2, rfl⟩
  | _ => cases hl

theorem guard_of_changed (hstep : RowStep db r (.statement st) q) (hne : q ≠ r) :
    st.standsAlone ∧ (st.update db).guard r ∧ q = (st.update db).set r := by
  cases hstep with
  | kept => exact absurd rfl hne
  | statement _ hst hg => exact ⟨hst, hg, rfl⟩

/-! ## Runs -/

/-- The service with the claim tokens issued so far. -/
structure LeasedWorld where
  db : Database
  issued : List Uuid
deriving DecidableEq

/-- One transaction; a claim draws a token that has not been issued before. -/
def leasedExec (E : Externals) (s : LeasedWorld) (op : Operation) : Option LeasedWorld :=
  if op.issues?.all (· ∉ s.issued) then
    (op.run E s.db).map fun db => ⟨db, op.issues?.toList ++ s.issued⟩
  else none

namespace LeasedWorld

def init : LeasedWorld := ⟨.empty, []⟩

/-- The tables are sound and every token they hold has been issued. -/
structure Inv (s : LeasedWorld) : Prop where
  sound : s.db.Sound
  issued : ∀ r ∈ s.db.tasks, ∀ t, r.claimToken = some t → t ∈ s.issued

/-- The token has been issued, and the task is not held under it. -/
structure Lost (s : LeasedWorld) (t : Uuid) (id : TaskId) : Prop where
  issued : t ∈ s.issued
  lost : ∃ r ∈ s.db.tasks, r.taskId = id ∧ r.claimToken ≠ some t

variable {E : Externals} {s s' : LeasedWorld} {t : Uuid} {id : TaskId}

theorem step_cases (h : leasedExec E s op = some s') :
    (∀ t, op.issues? = some t → t ∉ s.issued) ∧ s'.issued = op.issues?.toList ++ s.issued ∧
      op.run E s.db = some s'.db := by
  unfold leasedExec at h
  split at h
  · rename_i hfresh
    obtain ⟨db, hdb, rfl⟩ := Option.map_eq_some_iff.1 h
    refine ⟨fun t ht => ?_, rfl, hdb⟩
    simpa [ht] using hfresh
  · cases h

section
variable (hi : s.Inv) (h : leasedExec E s op = some s')
include hi h

theorem rowStep_of_step (hr : r ∈ s.db.tasks)
    (hq : q ∈ s'.db.tasks) (hid : q.taskId = r.taskId) : RowStep s.db r op q :=
  rowStep_of_taskId hi.sound (effect_of_run hi.sound (step_cases h).2.2) hr hq hid

theorem inv_of_step : s'.Inv := by
  obtain ⟨-, hissued, hrun⟩ := step_cases h
  refine ⟨sound_of_effect hi.sound (effect_of_run hi.sound hrun), fun q hq t ht => ?_⟩
  rw [hissued, List.mem_append, Option.mem_toList]
  rcases rowStep_of_run hi.sound hrun hq with ⟨r, hr, hstep⟩ | ⟨a, -, hnew, -⟩
  · rcases claimToken_of_rowStep hstep with hk | hn | hc
    · exact .inr (hi.issued r hr t (hk ▸ ht))
    · rw [hn] at ht
      cases ht
    · exact .inl (hc ▸ ht)
  · rw [claimToken_of_newRow hnew] at ht
    cases ht

theorem lost_of_step (hl : s.Lost t id) : s'.Lost t id := by
  obtain ⟨hfresh, hissued, hrun⟩ := step_cases h
  obtain ⟨r, hr, hid, hne⟩ := hl.lost
  refine ⟨by rw [hissued]; exact List.mem_append_right _ hl.issued, ?_⟩
  obtain ⟨q, hq, hqid⟩ := exists_row_of_effect (effect_of_run hi.sound hrun) hr
  refine ⟨q, hq, hqid.trans hid, fun ht => ?_⟩
  rcases claimToken_of_rowStep (rowStep_of_step hi h hr hq hqid) with hk | hn | hc
  · exact hne (hk ▸ ht)
  · rw [hn] at ht
    cases ht
  · exact hfresh t (hc ▸ ht) hl.issued

end

theorem unchanged_of_lost {st : TaskStatement} (hi : s.Inv) (hl : s.Lost t id)
    (hst : st.token? = some t) (h : leasedExec E s (.statement st) = some s')
    (hr : r ∈ s.db.tasks) (hid : r.taskId = id) (hq : q ∈ s'.db.tasks)
    (hqid : q.taskId = id) : q = r := by
  by_contra hne
  obtain ⟨hst', hg, -⟩ :=
    guard_of_changed (rowStep_of_step hi h hr hq (hqid.trans hid.symm)) hne
  obtain ⟨p, hp, hpid, hlost⟩ := hl.lost
  rw [List.inj_on_of_nodup_map hi.sound.taskIds hp hr (hpid.trans hid.symm)] at hlost
  rw [token?, Option.map_eq_some_iff] at hst
  obtain ⟨l, hl', rfl⟩ := hst
  cases hc : st.claims? with
  | some l' =>
    rw [hc] at hl'
    cases hl'
    exact (step_cases h).1 _ (by simp [Operation.issues?, hc]) hl.issued
  | none =>
    rw [hc] at hl'
    exact hlost (Lease.token_of_names (presents_of_guard hl' hg).names).2

theorem lost_of_claim {st : TaskStatement} {l : Lease} (hi : s.Inv) (hl : st.claims? = some l)
    (h : leasedExec E s (.statement st) = some s') (hr : r ∈ s.db.tasks)
    (hid : l.taskId = r.taskId) (ht : r.claimToken = some t) : s'.Lost t r.taskId := by
  obtain ⟨hfresh, hissued, hrun⟩ := step_cases h
  have hold := hi.issued r hr t ht
  obtain ⟨p, hp, hg, hset⟩ := exists_written_of_run hrun
  obtain ⟨hpid, htoken⟩ := claimToken_of_claim hl hg
  obtain rfl := List.inj_on_of_nodup_map hi.sound.taskIds hp hr (hpid.trans hid)
  refine ⟨by rw [hissued]; exact List.mem_append_right _ hold, _, hset, ?_, ?_⟩
  · have hst : st.standsAlone := by cases st <;> first | rfl | cases hl
    have hstep : RowStep s.db p (.statement st) _ := .statement st hst hg
    exact TaskRow.taskId_of_identity (identity_of_rowStep hstep)
  · rw [htoken]
    rintro ⟨⟩
    exact hfresh _ (by simp [Operation.issues?, hl]) hold

theorem lost_of_run {ops : List Operation} (hrun : Runs.Run (Runs.ofExec (leasedExec E)) s ops s')
    (hi : s.Inv) (hl : s.Lost t id) : s'.Inv ∧ s'.Lost t id :=
  hrun.invariant (I := fun s => s.Inv ∧ s.Lost t id) ⟨hi, hl⟩
    fun _ _ _ hs hstep => ⟨inv_of_step hs.1 hstep, lost_of_step hs.1 hstep hs.2⟩

theorem inv_of_run {ops : List Operation}
    (hrun : Runs.Run (Runs.ofExec (leasedExec E)) .init ops s) : s.Inv :=
  hrun.invariant (I := Inv) ⟨Database.sound_empty, List.forall_mem_nil _⟩
    fun _ _ _ hs hstep => inv_of_step hs hstep

end LeasedWorld

/-- **Leases.**  In every state the service reaches, a statement of a lane only
    changes an unfinished task, under the token that holds it, at the revision
    the worker presents and, unless it gives the claim back, while the lease
    runs; it raises the revision by one if it writes the snapshot.  Once a claim
    has taken the task from a token, no later statement with that token changes
    it. -/
theorem lease_fencing (E : Externals) (ops : List Operation) (s : LeasedWorld)
    (hrun : Runs.Run (Runs.ofExec (leasedExec E)) .init ops s) :
    (∀ st s', leasedExec E s (.statement st) = some s' →
      ∀ r ∈ s.db.tasks, ∀ q ∈ s'.db.tasks, q.taskId = r.taskId → q ≠ r →
        ¬ r.status.isTerminal ∧ (∀ l, st.holds? = some l → Presents st l r) ∧
          q.evaluatorRevision = r.evaluatorRevision + if st.writesSnapshot then 1 else 0) ∧
    (∀ r ∈ s.db.tasks, ∀ t, r.claimToken = some t →
      ∀ st l s₁, st.claims? = some l → l.taskId = r.taskId →
        leasedExec E s (.statement st) = some s₁ →
        ∀ later s₂, Runs.Run (Runs.ofExec (leasedExec E)) s₁ later s₂ →
          ∀ st' s₃, st'.token? = some t → leasedExec E s₂ (.statement st') = some s₃ →
            ∀ q ∈ s₂.db.tasks, q.taskId = r.taskId → q ∈ s₃.db.tasks) := by
  have hi := LeasedWorld.inv_of_run hrun
  refine ⟨fun st s' h r hr q hq hid hne => ?_, ?_⟩
  · obtain ⟨hst, hg, rfl⟩ := guard_of_changed (LeasedWorld.rowStep_of_step hi h hr hq hid) hne
    have hcheck := TaskRow.stateCheck_of_checks (hi.sound.checks r hr)
    refine ⟨update_active _ st ?_ hcheck hg, fun l hl => presents_of_guard hl hg,
      revision_of_statement hst hg⟩
    rintro j c l rfl
    cases hst
  · intro r hr t ht st l s₁ hl hid h₁ later s₂ h₂ st' s₃ hst' h₃ q hq hqid
    have hlost := LeasedWorld.lost_of_claim hi hl h₁ hr hid ht
    obtain ⟨hi₂, hlost₂⟩ := LeasedWorld.lost_of_run h₂ (LeasedWorld.inv_of_step hi h₁) hlost
    obtain ⟨p, hp, hpid⟩ :=
      exists_row_of_effect (effect_of_run hi₂.sound (LeasedWorld.step_cases h₃).2.2) hq
    rw [← LeasedWorld.unchanged_of_lost hi₂ hlost₂ hst' h₃ hq hqid hp (hpid.trans hqid)]
    exact hp

/-- The invoice of a reader is claimed.  The worker gives it back under its token; or its
    lease runs out and another claim takes the task, and no statement with the first
    token changes it any more. -/
theorem invoice_leased : let E := Externals.constant (.replicate 7)
    let l : Lease := ⟨⟨⟨1⟩⟩, "worker", ⟨1⟩⟩
    let st : TaskStatement := .invoiceRetry l (Duration.seconds 60) 1
    let claim : TaskStatement :=
      .invoiceClaim ⟨⟨⟨1⟩⟩, "worker", ⟨2⟩⟩ (Duration.seconds 30) (Duration.seconds 31)
    ∃ s r, Runs.execList (leasedExec E) .init (invoiceOperations.take 2) = some s ∧
      r ∈ s.db.tasks ∧ r.claimToken = some ⟨1⟩ ∧
      (∃ s' q, leasedExec E s (.statement st) = some s' ∧ q ∈ s'.db.tasks ∧ q ≠ r ∧
        ¬ r.status.isTerminal ∧ Presents st l r ∧ q.evaluatorRevision = r.evaluatorRevision) ∧
      ∃ s₁, leasedExec E s (.statement claim) = some s₁ ∧
        ∀ later s₂, Runs.Run (Runs.ofExec (leasedExec E)) s₁ later s₂ →
          ∀ st' s₃, st'.token? = some ⟨1⟩ → leasedExec E s₂ (.statement st') = some s₃ →
            ∀ q ∈ s₂.db.tasks, q.taskId = r.taskId → q ∈ s₃.db.tasks := by
  intro E l st claim
  have h : (Runs.execList (leasedExec E) .init (invoiceOperations.take 2)).isSome := rfl
  obtain ⟨hchange, hlost⟩ := lease_fencing E _ _
    (Runs.run_of_execList _ (Option.some_get h).symm)
  refine ⟨_, _, (Option.some_get h).symm, List.mem_cons_self, rfl, ?_, ?_⟩
  · have hst : (leasedExec E ((Runs.execList (leasedExec E) .init
        (invoiceOperations.take 2)).get h) (.statement st)).isSome := rfl
    -- the statement gives the claim up
    refine ⟨_, _, (Option.some_get hst).symm, List.mem_cons_self, ?_, ?_⟩
    · intro heq
      cases congrArg TaskRow.claimToken heq
    · obtain ⟨hactive, hpresents, hrevision⟩ := hchange st _ (Option.some_get hst).symm _
        List.mem_cons_self _ List.mem_cons_self rfl
        (by intro heq; cases congrArg TaskRow.claimToken heq)
      exact ⟨hactive, hpresents l rfl, hrevision⟩
  · have hclaim : (leasedExec E ((Runs.execList (leasedExec E) .init
        (invoiceOperations.take 2)).get h) (.statement claim)).isSome := rfl
    exact ⟨_, (Option.some_get hclaim).symm,
      hlost _ List.mem_cons_self _ rfl claim _ _ rfl rfl (Option.some_get hclaim).symm⟩

end PubkyLocks
