/-
  What the columns of a version-2 task say about its evaluator snapshot, along
  every run.

  A terminal task of the graph lane or the payment lane carries the status and
  the reason of its root.  The one exception are graph tasks closed by the
  deletion of their lock: the deletion expires the row and leaves the snapshot as
  it is.
-/
import PubkyLocks.Store.RowSteps

namespace PubkyLocks

open TaskStatement TaskRow Checks Payment Evaluator VerificationTaskStatus

namespace EvaluatorSnapshot

def acceptedAt : EvaluatorSnapshot → Timestamp
  | graph s => s.acceptedAt
  | payment s => s.acceptedAt

def terminalStatus : EvaluatorSnapshot → Option VerificationTaskStatus
  | graph s => s.root.terminalStatus
  | payment s => s.root.terminalStatus

def terminalReason : EvaluatorSnapshot → Option VerificationTerminalReason
  | graph s => s.root.terminalReason
  | payment s => s.root.terminalReason

def Closed : EvaluatorSnapshot → Prop
  | graph _ => True
  | payment s => s.root.Closed

end EvaluatorSnapshot

def TaskRow.closedByDeletion (r : TaskRow) : Bool :=
  r.isGraph && r.terminalReason == some .contentLockDeleted

structure Tracks (r : TaskRow) (e : EvaluatorSnapshot) : Prop where
  closed : e.Closed
  terminal : ¬ r.closedByDeletion → r.status = .expired ∨ r.status = .failed →
    e.terminalStatus = some r.status ∧ e.terminalReason = r.terminalReason

def Database.Tracked (db : Database) : Prop :=
  ∀ r ∈ db.tasks, ∀ e, r.evaluator = some e → Tracks r e

variable {r q : TaskRow} {e : EvaluatorSnapshot}

theorem Tracks.congr (h : Tracks r e) (he : q.evaluator = r.evaluator)
    (hs : q.status = r.status) (ht : q.terminalReason = r.terminalReason) : Tracks q e := by
  have hd : q.closedByDeletion = r.closedByDeletion := by
    simp only [closedByDeletion, isGraph, graphRoot?, he, ht]
  obtain ⟨h₁, h₂⟩ := h
  rw [← hd, ← hs, ← ht] at h₂
  exact ⟨h₁, h₂⟩

theorem tracks_of_active (hc : e.Closed) (hs : ¬ r.status.isTerminal) : Tracks r e where
  closed := hc
  terminal := by
    rintro - (h | h) <;> exact absurd (by rw [h]; rfl) hs

theorem TaskRow.unfinished_of_active (hr : r.stateCheck) (hs : ¬ r.status.isTerminal) :
    r.completedAt = none ∧ r.terminalReason = none := by
  have hu : r.unfinished := by
    rcases not_terminal_iff.1 hs with h | h | h
    · exact ((stateCheck_pending h).1 hr).2.1
    · exact ((stateCheck_inProgress h).1 hr).2.1
    · exact ((stateCheck_publishing h).1 hr).2.1
  simp only [unfinished, Bool.and_eq_true, Option.isNone_iff_eq_none] at hu
  exact ⟨hu.1.1, hu.2⟩

theorem TaskRow.completedAt_of_terminal (hr : r.stateCheck) (hs : r.status.isTerminal) :
    r.completedAt.isSome := by
  cases h : r.status with
  | pending => rw [h] at hs; cases hs
  | inProgress => rw [h] at hs; cases hs
  | publishingEntitlement => rw [h] at hs; cases hs
  | completed => exact ((stateCheck_completed h).1 hr).2.1
  | failed => exact ((stateCheck_failed h).1 hr).2.1
  | expired => exact ((stateCheck_expired h).1 hr).2.1

theorem TaskRow.lane_ne_v1 (he : r.evaluator = some e) : r.lane ≠ .v1 := by
  unfold lane
  cases e <;> simp [he]

/-! ## Statements -/

variable {db : Database} {dbNow : Timestamp}

variable {next : GraphTaskSnapshotV1} {t : PaymentTaskRecord} {input : PaymentWorkerInput}
  {action : PaymentWorkerAction}

theorem Graph.persistChecks_spec (h : (Graph.persistChecks next dbNow r).isOk) :
    ∃ t, toGraphTask r = .ok t ∧ next.validate = .ok () ∧
      next.validateObservationsNotAfter dbNow = .ok () ∧ t.snapshot.binding = next.binding ∧
      (t.snapshot ≠ next → next.validateProgressFrom t.snapshot = .ok ()) ∧
      (next.root.isExpired → next.deadlineAt ≤ dbNow) := by
  obtain ⟨u, h⟩ := isOk_iff.1 h
  simp only [Graph.persistChecks, bind_eq_ok, mapError_eq_ok, onSome_eq_ok,
    refuse_eq_ok] at h
  obtain ⟨t, ht, _, hv, _, hobs, _, hsame, _, hprog, hexp⟩ := h
  refine ⟨t, ht, hv, hobs, ensureSameBinding_eq_ok.1 hsame,
    fun hne => hprog _ (if_pos (.inl hne)), fun he => ?_⟩
  rw [Bool.and_eq_true, he] at hexp
  by_contra hlt
  exact hexp ⟨rfl, decide_eq_true (not_le.1 hlt)⟩

theorem Graph.scheduleChecks_spec {d : Duration} (h : (Graph.scheduleChecks next d dbNow r).isOk) :
    ∃ t, toGraphTask r = .ok t ∧ next.validate = .ok () ∧ t.snapshot.binding = next.binding ∧
      next.validateProgressFrom t.snapshot = .ok () ∧ next.root = .pending := by
  obtain ⟨u, h⟩ := isOk_iff.1 h
  simp only [Graph.scheduleChecks, bind_eq_ok, mapError_eq_ok, refuse_eq_ok] at h
  obtain ⟨t, ht, _, -, _, hv, _, -, _, hsame, _, hprog, hroot⟩ := h
  exact ⟨t, ht, hv, ensureSameBinding_eq_ok.1 hsame, hprog, not_not.1 hroot⟩

theorem Evaluator.persistSet_columns (e : EvaluatorSnapshot) (o : Outcome) (k : Uuid)
    (dbNow : Timestamp) (r : TaskRow) :
    (persistSet e o k dbNow r).status = o.status ∧
      (persistSet e o k dbNow r).terminalReason = o.reason ∧
      (persistSet e o k dbNow r).completedAt =
        (if o.retain then none else some dbNow) ∧
      (persistSet e o k dbNow r).evaluator = some e := by
  unfold persistSet retainClaims
  cases o.retain <;> exact ⟨rfl, rfl, rfl, rfl⟩

/-- The outcome of a root is the status and the reason of the root: a claim is
    retained exactly by the outcomes that are not terminal. -/
structure Evaluator.Outcome.Reports (o : Outcome) (e : EvaluatorSnapshot) : Prop where
  active : o.retain → ¬ o.status.isTerminal
  terminal : o.retain = false → e.terminalStatus = some o.status ∧ e.terminalReason = o.reason

theorem Graph.outcome_reports (s : GraphTaskSnapshotV1) :
    (Graph.outcome s dbNow).Reports (.graph s) := by
  unfold Graph.outcome
  split <;> rename_i h
  · exact ⟨fun _ => Bool.false_ne_true, by rintro ⟨⟩⟩
  · exact ⟨fun _ => Bool.false_ne_true, by rintro ⟨⟩⟩
  all_goals
    refine ⟨by rintro ⟨⟩, fun _ => ?_⟩
    simp only [EvaluatorSnapshot.terminalStatus, EvaluatorSnapshot.terminalReason, h]
    exact ⟨rfl, rfl⟩

theorem Payment.outcome_reports (s : PaymentTaskSnapshotV1) :
    (outcome s dbNow).Reports (.payment s) := by
  unfold outcome
  split <;> rename_i h
  · exact ⟨fun _ => Bool.false_ne_true, by rintro ⟨⟩⟩
  · exact ⟨fun _ => Bool.false_ne_true, by rintro ⟨⟩⟩
  all_goals
    refine ⟨by rintro ⟨⟩, fun _ => ?_⟩
    simp only [EvaluatorSnapshot.terminalStatus, EvaluatorSnapshot.terminalReason, h]
    exact ⟨rfl, rfl⟩

/-- **Persisting a snapshot** whose outcome reports its root makes the row track
    it. -/
theorem tracks_persistSet {o : Outcome} {k : Uuid} (ho : o.Reports e) (hc : e.Closed) :
    Tracks (persistSet e o k dbNow r) e := by
  obtain ⟨hs, hr, -, -⟩ := persistSet_columns e o k dbNow r
  cases hret : o.retain with
  | true =>
    refine tracks_of_active hc ?_
    rw [hs]
    exact ho.active hret
  | false =>
    refine ⟨hc, fun _ _ => ?_⟩
    rw [hs, hr]
    exact ho.terminal hret

theorem Payment.persistChecks_spec {next : PaymentTaskSnapshotV1}
    (h : (persistChecks next r).isOk) :
    ∃ t, toPaymentTask r = .ok t ∧ next.validateProgressFrom t.snapshot = .ok () := by
  obtain ⟨u, h⟩ := isOk_iff.1 h
  simp only [persistChecks, bind_eq_ok, mapError_eq_ok] at h
  exact h

theorem Payment.scheduleChecks_spec {next : PaymentTaskSnapshotV1} {d : Duration}
    (h : (scheduleChecks next d r).isOk) :
    ∃ t, toPaymentTask r = .ok t ∧ next.validateProgressFrom t.snapshot = .ok () := by
  obtain ⟨u, h⟩ := isOk_iff.1 h
  simp only [scheduleChecks, bind_eq_ok, mapError_eq_ok] at h
  obtain ⟨_, -, t, ht, _, hprog, -⟩ := h
  exact ⟨t, ht, hprog⟩

theorem snapshot_of_toGraphTask {t : GraphTaskRecord} (h : toGraphTask r = .ok t) :
    r.evaluator = some (.graph t.snapshot) ∧ t.taskId = r.taskId := by
  simp only [toGraphTask, bind_eq_ok] at h
  obtain ⟨s, hs, _, -, _, -, _, -, _, -, _, -, h⟩ := h
  cases h
  unfold graphSnapshot at hs
  split at hs
  · rename_i he
    cases hs
    exact ⟨he, rfl⟩
  · cases hs

theorem snapshot_of_toPaymentTask (h : toPaymentTask r = .ok t) :
    r.evaluator = some (.payment t.snapshot) := by
  simp only [toPaymentTask, bind_eq_ok] at h
  obtain ⟨s, hs, _, -, _, -, _, -, _, -, _, -, h⟩ := h
  cases h
  unfold paymentSnapshot at hs
  split at hs
  · rename_i he
    cases hs
    exact he
  · cases hs

theorem columns_of_toPaymentTask (h : toPaymentTask r = .ok t) :
    t.taskId = r.taskId ∧ t.evaluatorRevision = r.evaluatorRevision := by
  simp only [toPaymentTask, bind_eq_ok] at h
  obtain ⟨s, -, _, -, _, -, _, -, _, -, _, -, h⟩ := h
  cases h
  exact ⟨rfl, rfl⟩

theorem TaskStatement.workerAction_eq_some {s : PaymentTaskSnapshotV1}
    (he : r.evaluator = some (.payment s)) :
    workerAction input r = some action ↔ paymentWorkerAction s input = .ok action := by
  simp only [workerAction, he]
  cases paymentWorkerAction s input <;> simp [Except.toOption]

theorem closed_snapshot_of_workerAction (he : r.evaluator = some e) (hc : e.Closed)
    (ha : workerAction input r = some action) :
    (EvaluatorSnapshot.payment action.snapshot).Closed := by
  cases e with
  | graph s => simp [workerAction, he] at ha
  | payment s => exact paymentWorkerAction_closed ((workerAction_eq_some he).1 ha) hc

theorem tracks_claimSet {l : Lease} {now claimExpiresAt : Timestamp}
    (hs : ¬ r.status.isTerminal) (ht : Tracks r e) :
    Tracks (claimSet l now claimExpiresAt dbNow r) e := by
  refine tracks_of_active ht.closed ?_
  simp only [claimSet]
  split
  · exact hs
  · decide

theorem tracks_completeSet (ht : Tracks r e) : Tracks (completeSet dbNow r) e where
  closed := ht.closed
  terminal := by rintro - (h | h) <;> cases h

theorem tracks_scheduleSet {due : Timestamp} (hc : e.Closed) : Tracks (scheduleSet e due r) e :=
  tracks_of_active hc (by decide : ¬ isTerminal .pending)

theorem tracks_release {q : TaskRow} (hs : ¬ r.status.isTerminal)
    (ht : Tracks r e) (hq : q.status = .pending ∨ q.status = r.status) : Tracks q e := by
  refine tracks_of_active ht.closed ?_
  rcases hq with h | h <;> rw [h]
  · decide
  · exact hs

/-- **Statements** of every lane keep a version-2 row tracking its snapshot. -/
theorem tracks_update (hs : db.Sound) (hr : r ∈ db.tasks) (he : r.evaluator = some e)
    (ht : Tracks r e) {st : TaskStatement} (hst : st.standsAlone)
    (hg : (st.update db).guard r) :
    ∀ e', ((st.update db).set r).evaluator = some e' → Tracks ((st.update db).set r) e' := by
  have hcheck := stateCheck_of_checks (hs.checks r hr)
  have hfreeze : ∀ j c l, st ≠ .freeze j c l := by
    rintro j c l rfl
    cases hst
  have hactive := update_active db st hfreeze hcheck hg
  have hlane := lane_ne_v1 he
  have hv1 : st.lane ≠ some .v1 := fun h =>
    hlane (Option.some.inj ((lane_of_guard hs hr hst hg).symm.trans h))
  intro e' he'
  cases st with
  | graphClaim l now t dbNow =>
    rw [show e' = e from Option.some.inj (he'.symm.trans he)]
    exact tracks_claimSet hactive ht
  | paymentClaim l now t dbNow =>
    rw [show e' = e from Option.some.inj (he'.symm.trans he)]
    exact tracks_claimSet hactive ht
  | graphPersist l n next k dbNow =>
    have hset := (persistSet_columns (.graph next) (Graph.outcome next dbNow) k dbNow
      r).2.2.2
    rw [show e' = .graph next from Option.some.inj (he'.symm.trans hset)]
    exact tracks_persistSet (Graph.outcome_reports next) trivial
  | graphRetry l n next now due dbNow =>
    rw [show e' = .graph next from (Option.some.inj he').symm]
    exact tracks_scheduleSet trivial
  | graphRelease l =>
    rw [show e' = e from Option.some.inj (he'.symm.trans he)]
    refine tracks_release hactive ht ?_
    simp only [update, Graph.release]
    split
    · exact .inl rfl
    · exact .inr rfl
  | graphComplete l n k dbNow =>
    rw [show e' = e from Option.some.inj (he'.symm.trans he)]
    exact tracks_completeSet ht
  | paymentPersist l n input k dbNow =>
    simp only [update, TaskUpdate.ofRow] at hg he' ⊢
    split at hg
    · rename_i next now hact
      rw [hact] at he'
      have hset := (persistSet_columns (.payment next) (outcome next dbNow) k
        dbNow r).2.2.2
      rw [show e' = .payment next from Option.some.inj (he'.symm.trans hset)]
      exact tracks_persistSet (outcome_reports next)
        (closed_snapshot_of_workerAction he ht.closed hact)
    · cases hg
  | paymentRetry l n input dbNow =>
    simp only [update, TaskUpdate.ofRow] at hg he' ⊢
    split at hg
    · rename_i next now due hact
      rw [hact] at he'
      rw [show e' = .payment next from (Option.some.inj he').symm]
      exact tracks_scheduleSet (closed_snapshot_of_workerAction he ht.closed hact)
    · cases hg
  | paymentRelease l =>
    rw [show e' = e from Option.some.inj (he'.symm.trans he)]
    refine tracks_release hactive ht ?_
    simp only [update, release]
    split
    · exact .inl rfl
    · exact .inr rfl
  | paymentComplete l n k dbNow =>
    rw [show e' = e from Option.some.inj (he'.symm.trans he)]
    exact tracks_completeSet ht
  | freeze j c l => cases hst
  | expireUnresolved l now => cases hst
  | _ => exact absurd rfl hv1

/-! ## Transactions -/

theorem tracks_admitted (hr : Admitted db r) (he : r.evaluator = some e) : Tracks r e := by
  have hp := hr.pristine
  unfold Pristine at hp
  rw [he] at hp
  cases e with
  | graph s =>
    rw [hp.1]
    exact tracks_of_active trivial (by decide : ¬ isTerminal .pending)
  | payment s =>
    have hc : s.root.Closed := by
      rw [hp.2.2]
      trivial
    rw [hp.1]
    exact tracks_of_active hc (by decide : ¬ isTerminal .pending)

theorem tracks_freeze (ht : Tracks r e) (jobId : Uuid) (c : CreatorPubky) (l : LockId) :
    Tracks ((Deletion.freeze jobId c l).set r) e := by
  by_cases ho : Deletion.open_ r
  · refine tracks_release (not_terminal_of_open ho) ht (.inl ?_)
    simp only [Deletion.freeze, ho, if_true]
  · refine ht.congr rfl ?_ rfl
    simp only [Deletion.freeze, ho]
    rfl

theorem tracks_expired (he : r.evaluator = some e) (jobId : Uuid) {e' : EvaluatorSnapshot}
    (he' : ((Deletion.expireUnresolved db jobId dbNow).set r).evaluator = some e') :
    Tracks ((Deletion.expireUnresolved db jobId dbNow).set r) e' := by
  have hset : e' = Deletion.closeSnapshot e := by
    simp only [Deletion.expireUnresolved, he, Option.map_some, Option.some.injEq] at he'
    exact he'.symm
  subst hset
  cases e with
  | graph s =>
    have hd : ((Deletion.expireUnresolved db jobId dbNow).set r).closedByDeletion := by
      simp [Deletion.expireUnresolved, closedByDeletion, isGraph,
        graphRoot?, he, Deletion.closeSnapshot]
    exact ⟨trivial, fun hn => absurd hd hn⟩
  | payment s => exact ⟨rfl, fun _ _ => ⟨rfl, rfl⟩⟩

/-- **Transactions** keep every version-2 row tracking its snapshot. -/
theorem tracked_of_effect {db db' : Database} {op : Operation} (hs : db.Sound) (ht : db.Tracked)
    (h : Effect db op db') : db'.Tracked := by
  cases h with
  | admitted a r attempts hr _ =>
    exact List.forall_mem_cons.2 ⟨fun e he => tracks_admitted hr he, ht⟩
  | attempts op attempts => exact ht
  | intents op intents _ => exact ht
  | statement st snapshots hst _ _ =>
    intro q hq e' he'
    obtain ⟨r, hr, ⟨hg, rfl⟩ | ⟨-, rfl⟩⟩ := Table.mem_updateWhere.1 hq
    · cases he : r.evaluator with
      | none =>
        -- no statement gives a version-1 row a snapshot
        have hframe := update_frame db st (by rintro j c l rfl; cases hst) hg
        have hlane := lane_of_identity hframe.identity
        exact absurd (hlane.trans (by rw [TaskRow.lane, he])) (lane_ne_v1 he')
      | some e => exact tracks_update hs hr he (ht r hr e he) hst hg e' he'
    · exact ht q hr e' he'
  | jobInserted job seen t _ _ _ =>
    intro q hq e he
    obtain ⟨r, hr, ⟨-, rfl⟩ | ⟨-, rfl⟩⟩ := Table.mem_updateWhere.1 hq
    · exact tracks_freeze (ht r hr e he) ..
    · exact ht q hr e he
  | jobsUpdated op p f snapshots _ _ => exact ht
  | expired l now snapshots _ _ _ =>
    intro q hq e' he'
    obtain ⟨r, hr, ⟨-, rfl⟩ | ⟨-, rfl⟩⟩ := Table.mem_updateWhere.1 hq
    · cases he : r.evaluator with
      | none =>
        simp only [Deletion.expireUnresolved, he, Option.map_none] at he'
        cases he'
      | some e => exact tracks_expired he l.jobId he'
    · exact ht q hr e' he'
  | receiptsUpdated op p f _ => exact ht
  | receiptWritten c l m frozen now _ => exact ht
  | forceCompleted l now job receipt _ _ _ _ =>
    intro q hq e he
    obtain ⟨r, hr, ⟨-, rfl⟩ | ⟨-, rfl⟩⟩ := Table.mem_updateWhere.1 hq
    · exact (ht r hr e he).congr rfl rfl rfl
    · exact ht q hr e he

/-- **Reachable rows track their snapshots.** -/
theorem tracked_of_run {E : Externals} {ops : List Operation} {db : Database}
    (h : Runs.Run (Runs.ofExec (Operation.run E)) .empty ops db) : db.Sound ∧ db.Tracked :=
  h.invariant (I := fun db => db.Sound ∧ db.Tracked)
    ⟨Database.sound_empty, List.forall_mem_nil _⟩ fun _ _ _ hw hrun =>
      have heffect := effect_of_run hw.1 hrun
      ⟨sound_of_effect hw.1 heffect, tracked_of_effect hw.1 hw.2 heffect⟩

end PubkyLocks
