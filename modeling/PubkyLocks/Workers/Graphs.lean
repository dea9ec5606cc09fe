/-
  The graph workers (`locks-server/src/graph_worker.rs`) on the database of the
  service.

  A worker claims a task, calls the verifier for the predicates that are due,
  records the answers in the copy its claim returned, and writes the result
  under its lease and the revision of its copy.  Other workers, requests and
  deletions commit in between, and a worker may stop at any point.
-/
import PubkyLocks.Store.Lifecycles
import PubkyLocks.Tasks.GraphDecisions

namespace PubkyLocks

open Checks GraphTaskSnapshotV1 PubkyLocks.Graph TaskRow

/-! ## Workers -/

/-- `ClaimedGraphTask`: a lease and the task as the claim returned it. -/
structure GraphClaim where
  lease : Lease
  task : GraphTaskRecord
deriving DecidableEq

/-- The end of `run_once` for a claimed task that is not being published: the
    worker computes its action from its copy and writes it. -/
def GraphClaim.write (c : GraphClaim) (db : Database) (input : GraphWorkerInput)
    (publicationToken : Uuid) (dbNow : Timestamp) : Option Database :=
  match graphWorkerAction c.task.snapshot input with
  | .ok (.persist next) =>
    db.issue (Graph.persist db c.lease c.task.evaluatorRevision next publicationToken dbNow)
  | .ok (.schedule next now due) =>
    db.issue (Graph.scheduleRetry db c.lease c.task.evaluatorRevision next now due dbNow)
  | .error _ => none

/-- The database with its graph workers: the claims they hold or have lost, and
    the answers the verifier has given them. -/
structure GraphService where
  db : Database
  claims : List GraphClaim
  reports : List VerifierReport

inductive GraphEvent where
  | transaction (op : Operation)
  | claim (l : Lease) (now claimExpiresAt dbNow : Timestamp)
  | work (c : GraphClaim) (input : GraphWorkerInput) (publicationToken : Uuid) (dbNow : Timestamp)

/-- The task and the snapshot of a write that only a graph worker issues. -/
def Operation.graphNext? : Operation → Option (TaskId × GraphTaskSnapshotV1)
  | statement (.graphPersist l _ next _ _) | statement (.graphRetry l _ next _ _ _) =>
    some (l.taskId, next)
  | _ => none

namespace GraphService

def init : GraphService := ⟨.empty, [], []⟩

/-- The claims a worker that claimed the task of a lease holds: its row, if it
    can be decoded. -/
def claimed (db : Database) (l : Lease) : List GraphClaim :=
  ((db.task? l.taskId).bind fun r => (toGraphTask r).toOption).toList.map (⟨l, ·⟩)

def exec (E : Externals) (s : GraphService) : GraphEvent → Option GraphService
  | .transaction op =>
    if op.graphNext?.isSome then none
    else (op.run E s.db).map fun db => { s with db }
  | .claim l now claimExpiresAt dbNow =>
    (Operation.run E s.db (.statement (.graphClaim l now claimExpiresAt dbNow))).map
      fun db => { s with db, claims := claimed db l ++ s.claims }
  | .work c input publicationToken dbNow =>
    if c ∈ s.claims ∧ c.task.status ≠ .publishingEntitlement ∧ input.Answered c.task.snapshot then
      some
        { db := (c.write s.db input publicationToken dbNow).getD s.db
          claims := s.claims.erase c
          reports := c.task.snapshot.reports c.task.taskId (input.heard c.task.snapshot) ++
            s.reports }
    else none

end GraphService

/-! ## What graph rows rest on -/

/-- What a graph row rests on: its sticky evidence was reported, and its status
    is the one its root leads to, unless the deletion of its lock closed it. -/
structure GraphBacked (reports : List VerifierReport) (r : TaskRow) (s : GraphTaskSnapshotV1) :
    Prop where
  valid : s.validate = .ok ()
  reported : Reported reports r.taskId s
  published : r.status = .publishingEntitlement ∨ r.status = .completed → s.root = .satisfied
  ended : r.status = .expired ∨ r.status = .failed → r.terminalReason ≠ some .contentLockDeleted →
    s.root ≠ .pending ∧ s.root ≠ .satisfied

variable {db : Database} {op : Operation} {r q : TaskRow} {s next : GraphTaskSnapshotV1}
  {reports reports' : List VerifierReport} {dbNow : Timestamp}

theorem TaskRow.lane_eq_graph_iff : r.lane = .graph ↔ ∃ s, r.evaluator = some (.graph s) := by
  unfold lane
  split <;> simp_all

theorem Graph.keepsEvidence_of_persistChecks (he : r.evaluator = some (.graph s))
    (h : (persistChecks next dbNow r).isOk) :
    next.validate = .ok () ∧ s.KeepsEvidence next := by
  obtain ⟨t, ht, hv, -, hsame, hprog, -⟩ := persistChecks_spec h
  cases he.symm.trans (snapshot_of_toGraphTask ht).1
  refine ⟨hv, ?_⟩
  by_cases hchanged : t.snapshot = next
  · exact hchanged ▸ .refl _
  · exact .of_validate hsame.symm (hprog hchanged)

theorem Graph.root_of_outcome (s : GraphTaskSnapshotV1) (dbNow : Timestamp) :
    ((outcome s dbNow).status = .publishingEntitlement ∨
      (outcome s dbNow).status = .completed → s.root = .satisfied) ∧
    ((outcome s dbNow).status = .expired ∨ (outcome s dbNow).status = .failed →
      s.root ≠ .pending ∧ s.root ≠ .satisfied) := by
  unfold outcome
  split <;> rename_i h <;> simp [h]

/-- **A transaction** keeps the evidence of a graph snapshot, and the row stays
    backed when the snapshot it writes is reported. -/
theorem graphBacked_of_rowStep (hs : db.Sound) (hr : r ∈ db.tasks)
    (he : r.evaluator = some (.graph s)) (hb : GraphBacked reports r s)
    (hstep : RowStep db r op q) (hsub : ∀ v ∈ reports, v ∈ reports')
    (hop : ∀ id next, op.graphNext? = some (id, next) → Reported reports' id next) :
    ∃ s', q.evaluator = some (.graph s') ∧ s.KeepsEvidence s' ∧ GraphBacked reports' q s' := by
  have hid : q.taskId = r.taskId := taskId_of_identity (identity_of_rowStep hstep)
  have hlane := lane_eq_graph_iff.2 ⟨s, he⟩
  have hkept : Reported reports' q.taskId s := by
    rw [hid]
    exact hb.reported.mono hsub
  have hholds : ∀ {l : Lease} {n : ℕ} {dbNow : Timestamp}, claimed db l n dbNow r →
      q.taskId = l.taskId := by
    intro l n dbNow hcl
    obtain ⟨hl, -⟩ := claimed_iff.1 hcl
    simp only [Lease.holds, Bool.and_eq_true, beq_iff_eq] at hl
    exact hid.trans hl.1
  cases evaluatorStep_of_rowStep hs hr (by rw [hlane]; decide) hstep with
  | kept op q hk =>
    refine ⟨s, hk.evaluator.trans he, .refl s, hb.valid, hkept, fun hq => ?_, fun hq hreason => ?_⟩
    · rcases hk.status with hsame | ⟨-, hopen⟩ | ⟨hpub, -⟩
      · exact hb.published (by rwa [← hsame])
      · exfalso
        rcases hq with hq | hq <;> simp [Deletion.open_, hq] at hopen
      · exact hb.published (.inl hpub)
    · rw [hk.reason] at hreason
      rcases hk.status with hsame | ⟨-, hopen⟩ | ⟨-, hdone⟩
      · exact hb.ended (by rwa [← hsame]) hreason
      · exfalso
        rcases hq with hq | hq <;> simp [Deletion.open_, hq] at hopen
      · exfalso
        rcases hq with hq | hq <;> simp [hdone] at hq
  | graphPersisted l n next k dbNow hg =>
    simp only [persist, Bool.and_eq_true] at hg
    obtain ⟨hv, hkeeps⟩ := keepsEvidence_of_persistChecks he hg.1.2
    obtain ⟨hst, -, -, hev⟩ :=
      Evaluator.persistSet_columns (.graph next) (outcome next dbNow) k dbNow r
    obtain ⟨hpub, hend⟩ := root_of_outcome next dbNow
    rw [← hst] at hpub hend
    have hrep := hop l.taskId next rfl
    rw [← hholds hg.1.1] at hrep
    exact ⟨next, hev, hkeeps, hv, hrep, hpub, fun hq _ => hend hq⟩
  | graphScheduled l n next now due dbNow hg =>
    simp only [scheduleRetry, Bool.and_eq_true] at hg
    obtain ⟨t, ht, hv, hsame, hprog, -⟩ := scheduleChecks_spec hg.2
    cases he.symm.trans (snapshot_of_toGraphTask ht).1
    have hrep := hop l.taskId next rfl
    rw [← hholds hg.1] at hrep
    refine ⟨next, rfl, .of_validate hsame.symm hprog, hv, hrep, ?_, ?_⟩
    · rintro (hq | hq) <;> cases hq
    · rintro (hq | hq) <;> cases hq
  | paymentPersisted l n input k dbNow next now hact hg =>
    simp only [Payment.persist, Bool.and_eq_true] at hg
    exact absurd (hlane.symm.trans (Payment.lane_of_persistChecks hg.1.2)) (by decide)
  | paymentScheduled l n input dbNow next now due hact hg =>
    simp only [Payment.scheduleRetry, Bool.and_eq_true] at hg
    exact absurd (hlane.symm.trans (Payment.lane_of_scheduleChecks hg.2)) (by decide)
  | closed l now hg =>
    have hev : ((Deletion.expireUnresolved db l.jobId now).set r).evaluator = some (.graph s) := by
      simp [Deletion.expireUnresolved, he, Deletion.closeSnapshot]
    refine ⟨s, hev, .refl s, hb.valid, hkept, ?_, fun _ hreason => absurd rfl hreason⟩
    rintro (hq | hq) <;> cases hq

theorem reported_of_unobserved {id : TaskId}
    (h : ∀ p ∈ s.predicates, p.firstTrueObservation = none) : Reported reports id s := by
  intro p hp hfirst
  rw [h p hp] at hfirst
  cases hfirst

theorem graphBacked_of_newRow {a : Admission} (hn : a.NewRow q) (hadm : Admitted db q)
    (he : q.evaluator = some (.graph s)) : GraphBacked reports q s := by
  have hpristine := hadm.pristine
  simp only [Pristine, he] at hpristine
  obtain ⟨hq, hv, -⟩ := hpristine
  have hstatus : q.status = .pending := by
    rw [hq]
    rfl
  have hunobserved : ∀ p ∈ s.predicates, p.firstTrueObservation = none := by
    cases a with
    | insertGraphTask t =>
      obtain ⟨hnew, rfl⟩ := hn
      cases he
      obtain ⟨_, hnew⟩ := isOk_iff.1 hnew
      simp only [validateNewTask, seq_eq_ok, mapError_eq_ok,
        validatePristineAdmission, refuse_eq_ok] at hnew
      obtain ⟨-, -, hpred⟩ := hnew
      intro p hp
      by_contra hfirst
      refine hpred (Bool.or_eq_true _ _ ▸ .inr (List.any_eq_true.2 ⟨p, hp, ?_⟩))
      simp [Option.isSome_iff_ne_none.2 hfirst]
    | acceptAndInsertGraphTask attempt taskId reader dbNow =>
      obtain ⟨t, ht, rfl⟩ := hn
      cases he
      obtain ⟨s, hs, rfl⟩ := map_eq_ok.1 ht
      obtain ⟨-, -, -, -, -, -, hpred⟩ := new_spec hs
      intro p hp
      rw [hpred] at hp
      obtain ⟨predicate, -, rfl⟩ := List.mem_map.1 hp
      rfl
    | insertVerificationTask t => cases hn; cases he
    | insertInvoicePendingTask t intent dbNow => cases hn; cases he
    | admitPaymentTask request dbNow => obtain ⟨p, -, rfl⟩ := hn; cases he
    | startOrRotate _ _ => exact hn.elim
  refine ⟨hv, reported_of_unobserved hunobserved, ?_, ?_⟩
  · rw [hstatus]
    rintro (hq | hq) <;> cases hq
  · rw [hstatus]
    rintro (hq | hq) <;> cases hq

/-! ## Runs -/

namespace GraphService

/-- Claims and rows rest on what the verifier reported. -/
structure Inv (s : GraphService) : Prop where
  sound : s.db.Sound
  copies : ∀ c ∈ s.claims, c.task.taskId = c.lease.taskId ∧
    Reported s.reports c.task.taskId c.task.snapshot
  backed : ∀ r ∈ s.db.tasks, ∀ p, r.evaluator = some (.graph p) → GraphBacked s.reports r p

/-- What an event does: a transaction on the tables, with a reported snapshot if
    it writes one, or nothing; new claims are decoded rows. -/
structure Step (E : Externals) (ev : GraphEvent) (s s' : GraphService) : Prop where
  tables : s'.db = s.db ∨ ∃ op : Operation, op.run E s.db = some s'.db ∧
    (∀ id next, op.graphNext? = some (id, next) → Reported s'.reports id next) ∧
    ∀ a, op = .admission a → ev = .transaction (.admission a)
  reports : ∀ v ∈ s.reports, v ∈ s'.reports
  claims : ∀ c ∈ s'.claims, c ∈ s.claims ∨
    ∃ r ∈ s'.db.tasks, r.taskId = c.lease.taskId ∧ toGraphTask r = .ok c.task

section
variable {E : Externals} {s s' : GraphService} {ev : GraphEvent}

theorem mem_claimed {db : Database} {l : Lease} {c : GraphClaim} (h : c ∈ claimed db l) :
    ∃ r ∈ db.tasks, r.taskId = c.lease.taskId ∧ toGraphTask r = .ok c.task := by
  obtain ⟨t, ht, rfl⟩ := List.mem_map.1 h
  exact Database.exists_of_decoded (Option.mem_toList.1 ht)

/-- **Events**, inverted. -/
theorem step_of_exec (hi : s.Inv) (h : s.exec E ev = some s') : Step E ev s s' := by
  cases ev with
  | transaction op =>
    simp only [exec] at h
    split at h
    · cases h
    · rename_i hop
      obtain ⟨w, hw, rfl⟩ := Option.map_eq_some_iff.1 h
      refine ⟨.inr ⟨op, hw, fun id next hnext => ?_, fun a ha => ha ▸ rfl⟩, fun _ hv => hv,
        fun _ hc => .inl hc⟩
      rw [hnext] at hop
      exact absurd rfl hop
  | claim l now e dbNow =>
    obtain ⟨w, hw, rfl⟩ := Option.map_eq_some_iff.1 h
    refine ⟨.inr ⟨_, hw, (by rintro _ _ ⟨⟩), (by rintro _ ⟨⟩)⟩, fun _ hv => hv, fun c hc => ?_⟩
    rcases List.mem_append.1 hc with hnew | hold
    · exact .inr (mem_claimed hnew)
    · exact .inl hold
  | work c input k dbNow =>
    simp only [exec] at h
    split at h
    · rename_i hpre
      obtain ⟨hc, -, -⟩ := hpre
      cases h
      refine ⟨?_, fun v hv => List.mem_append_right _ hv, fun d hd => .inl (List.mem_of_mem_erase hd)⟩
      obtain ⟨hid, hrep⟩ := hi.copies c hc
      cases hw : c.write s.db input k dbNow with
      | none => exact .inl rfl
      | some db =>
        unfold GraphClaim.write at hw
        split at hw
        · rename_i next hact
          have hnext := graphWorkerAction_reported hrep hact
          have hrun : (TaskStatement.graphPersist c.lease c.task.evaluatorRevision next k dbNow).run
              s.db = some db := run_of_issue rfl rfl (fun _ _ => rfl) (fun _ _ _ => rfl) hw
          refine .inr ⟨.statement _, hrun, ?_, (by rintro _ ⟨⟩)⟩
          rintro id next' ⟨⟩
          exact hid ▸ hnext
        · rename_i next now due hact
          have hnext := graphWorkerAction_reported hrep hact
          have hrun : (TaskStatement.graphRetry c.lease c.task.evaluatorRevision next now due
              dbNow).run s.db = some db :=
            run_of_issue rfl rfl (fun _ _ => rfl) (fun _ _ _ => rfl) hw
          refine .inr ⟨.statement _, hrun, ?_, (by rintro _ ⟨⟩)⟩
          rintro id next' ⟨⟩
          exact hid ▸ hnext
        · cases hw
    · cases h

theorem Step.row_cases (hi : s.Inv) (h : Step E ev s s') {q : TaskRow} {p' : GraphTaskSnapshotV1}
    (hq : q ∈ s'.db.tasks) (he : q.evaluator = some (.graph p')) :
    GraphBacked s'.reports q p' ∧
      ((∃ r ∈ s.db.tasks, r.taskId = q.taskId ∧
          ∃ p, r.evaluator = some (.graph p) ∧ p.KeepsEvidence p') ∨
        ∃ a, ev = .transaction (.admission a) ∧ a.NewRow q) := by
  rcases h.tables with hw | ⟨op, hop, hnext, hev⟩
  · rw [hw] at hq
    have hb := hi.backed q hq p' he
    exact ⟨⟨hb.valid, hb.reported.mono h.reports, hb.published, hb.ended⟩,
      .inl ⟨q, hq, rfl, p', he, .refl p'⟩⟩
  · rcases rowStep_of_run hi.sound hop hq with ⟨r, hr, hstep⟩ | ⟨a, rfl, hnew, hadm⟩
    · have hlane : r.lane = .graph :=
        (lane_of_identity (identity_of_rowStep hstep)).symm.trans
          (lane_eq_graph_iff.2 ⟨p', he⟩)
      obtain ⟨p, hp⟩ := lane_eq_graph_iff.1 hlane
      obtain ⟨p₁, he₁, hkeeps, hb⟩ := graphBacked_of_rowStep hi.sound hr hp (hi.backed r hr p hp)
        hstep h.reports hnext
      cases he₁.symm.trans he
      exact ⟨hb, .inl ⟨r, hr, (taskId_of_identity (identity_of_rowStep hstep)).symm, p, hp,
        hkeeps⟩⟩
    · exact ⟨graphBacked_of_newRow hnew hadm he, .inr ⟨a, hev a rfl, hnew⟩⟩

/-- **Step.** -/
theorem Step.inv (hi : s.Inv) (h : Step E ev s s') : s'.Inv where
  sound := by
    rcases h.tables with hw | ⟨op, hop, -⟩
    · exact hw ▸ hi.sound
    · exact sound_of_effect hi.sound (effect_of_run hi.sound hop)
  copies := by
    intro c hc
    rcases h.claims c hc with hold | ⟨r, hr, hid, ht⟩
    · obtain ⟨hid, hrep⟩ := hi.copies c hold
      exact ⟨hid, hrep.mono h.reports⟩
    · obtain ⟨he, htid⟩ := snapshot_of_toGraphTask ht
      exact ⟨htid.trans hid, htid ▸ (h.row_cases hi hr he).1.reported⟩
  backed := fun q hq p' he => (h.row_cases hi hq he).1

theorem inv_init : init.Inv :=
  ⟨Database.sound_empty, List.forall_mem_nil _,
    List.forall_mem_nil _⟩

variable {events : List GraphEvent}

/-- **Run.** -/
theorem inv_of_run (h : Runs.Run (Runs.ofExec (exec E)) s events s') (hi : s.Inv) : s'.Inv :=
  h.invariant (I := Inv) hi fun _ _ _ hi hstep => (step_of_exec hi hstep).inv hi

theorem admitted_of_run (h : Runs.Run (Runs.ofExec (exec E)) init events s) :
    ∀ r ∈ s.db.tasks, ∀ p, r.evaluator = some (.graph p) →
      ∃ a r₀ p₀, .transaction (.admission a) ∈ events ∧ a.NewRow r₀ ∧ r₀.taskId = r.taskId ∧
        r₀.evaluator = some (.graph p₀) ∧ p₀.KeepsEvidence p := by
  apply h.restrict_mem.invariant_under inv_init fun _ _ _ hi hs => (step_of_exec hi hs.1).inv hi
  · exact List.forall_mem_nil _
  rintro s ev s' hi hold ⟨hstep, hmem⟩ q hq p' he'
  rcases ((step_of_exec hi hstep).row_cases hi hq he').2 with
    ⟨r, hr, hid, p, hp, hkeeps⟩ | ⟨a, rfl, hnew⟩
  · obtain ⟨a, r₀, p₀, ha, hnew, hid₀, hp₀, hkeeps₀⟩ := hold r hr p hp
    exact ⟨a, r₀, p₀, ha, hnew, hid₀.trans hid, hp₀, hkeeps₀.trans hkeeps⟩
  · exact ⟨a, q, p', hmem, hnew, rfl, he', .refl p'⟩

theorem keepsEvidence_of_run (h : Runs.Run (Runs.ofExec (exec E)) s events s') (hi : s.Inv)
    {r : TaskRow} (hr : r ∈ s.db.tasks) {p : GraphTaskSnapshotV1}
    (he : r.evaluator = some (.graph p)) {q : TaskRow} (hq : q ∈ s'.db.tasks)
    (hid : q.taskId = r.taskId) : ∃ p', q.evaluator = some (.graph p') ∧ p.KeepsEvidence p' := by
  have hkept : ∃ q ∈ s'.db.tasks, q.taskId = r.taskId ∧
      ∃ p', q.evaluator = some (.graph p') ∧ p.KeepsEvidence p' := by
    apply h.invariant_under hi fun _ _ _ hi hstep => (step_of_exec hi hstep).inv hi
    · exact ⟨r, hr, rfl, p, he, .refl p⟩
    rintro t ev t' hi ⟨q, hq, hqid, p', hp', hkeeps⟩ hstep
    have hst := step_of_exec hi hstep
    rcases hst.tables with hw | ⟨op, hop, hnext, -⟩
    · exact ⟨q, hw ▸ hq, hqid, p', hp', hkeeps⟩
    · have heff := effect_of_run hi.sound hop
      obtain ⟨q', hq', hqid'⟩ := exists_row_of_effect heff hq
      obtain ⟨p₁, hp₁, hkeeps₁, -⟩ := graphBacked_of_rowStep hi.sound hq hp' (hi.backed q hq p' hp')
        (rowStep_of_taskId hi.sound heff hq hq' hqid') hst.reports hnext
      exact ⟨q', hq', hqid'.trans hqid, p₁, hp₁, hkeeps.trans hkeeps₁⟩
  obtain ⟨q', hq', hqid', p', hp', hkeeps⟩ := hkept
  rw [List.inj_on_of_nodup_map (inv_of_run h hi).sound.taskIds hq hq' (hid.trans hqid'.symm)]
  exact ⟨p', hp', hkeeps⟩

end

end GraphService

/-- **The graph lane is sound.**  Whatever the verifier answers and however
    workers, crashes and other requests interleave, a graph task is published or
    completed only if the verifier reported the condition of its lock to be true
    within the window of the task; and it ends otherwise by evaluation only if
    the observations stored with it, in the terminal write and in every state
    before it, do not meet the condition. -/
theorem graph_sound {E : Externals} {events : List GraphEvent}
    {s : GraphService} (h : Runs.Run (Runs.ofExec (GraphService.exec E)) .init events s)
    {r : TaskRow} (hr : r ∈ s.db.tasks) {p : GraphTaskSnapshotV1}
    (he : r.evaluator = some (.graph p)) :
    (∃ a r₀ p₀, .transaction (.admission a) ∈ events ∧ a.NewRow r₀ ∧ r₀.taskId = r.taskId ∧
      r₀.evaluator = some (.graph p₀) ∧ p.binding = p₀.binding) ∧
    (r.status = .publishingEntitlement ∨ r.status = .completed →
      p.Condition fun predicate =>
        ∃ v ∈ s.reports, v.Confirms r.taskId p predicate.predicate) ∧
    ∀ events' s', Runs.Run (Runs.ofExec (GraphService.exec E)) s events' s' →
      ∀ q ∈ s'.db.tasks, q.taskId = r.taskId →
        q.status = .expired ∨ q.status = .failed →
        q.terminalReason ≠ some .contentLockDeleted →
        (¬ p.Condition fun predicate => predicate.firstTrueObservation.isSome) ∧
          ∃ p', q.evaluator = some (.graph p') ∧ p'.binding = p.binding ∧
            ¬ p'.Condition fun predicate => predicate.firstTrueObservation.isSome := by
  have hi := GraphService.inv_of_run h GraphService.inv_init
  have hcondition : ∀ {p : GraphTaskSnapshotV1}, p.validate = .ok () → p.root ≠ .pending →
      ((p.Condition fun predicate => predicate.firstTrueObservation.isSome) ↔
        p.root = .satisfied) := by
    intro p hv hp
    rw [← condition_iff hv]
    have hroot := (valid_of_validate hv).root.resolve_left hp
    rw [hroot]
  refine ⟨?_, fun hpub => ?_, fun events' s' h' q hq hid hend hreason => ?_⟩
  · obtain ⟨a, r₀, p₀, ha, hnew, hid, hp₀, hkeeps⟩ := GraphService.admitted_of_run h r hr p he
    exact ⟨a, r₀, p₀, ha, hnew, hid, hp₀, hkeeps.binding⟩
  · have hb := hi.backed r hr p he
    have hroot := hb.published hpub
    have hmet := (hcondition hb.valid (by rw [hroot]; decide)).2 hroot
    exact hmet.imp hb.reported
  · have hi' := GraphService.inv_of_run h' hi
    obtain ⟨p', hp', hkeeps⟩ := GraphService.keepsEvidence_of_run h' hi hr he hq hid
    have hb' := hi'.backed q hq p' hp'
    obtain ⟨hpending, hsatisfied⟩ := hb'.ended hend hreason
    have hunmet := fun hc => hsatisfied ((hcondition hb'.valid hpending).1 hc)
    exact ⟨fun hc => hunmet (hkeeps.condition hc), p', hp', hkeeps.binding, hunmet⟩

/-! ## A followed creator -/

/-- A worker claims the task and the verifier confirms its one predicate. -/
def followedRun : List GraphEvent :=
  let lease : Lease := ⟨⟨⟨1⟩⟩, "worker", ⟨2⟩⟩
  [.transaction (.admission (.insertGraphTask
      ⟨⟨⟨1⟩⟩, admittedGraphSnapshot, 0, .pending, none, none, none⟩)),
    .claim lease 0 (Duration.seconds 60) 0,
    .work ⟨lease, ⟨⟨⟨1⟩⟩, admittedGraphSnapshot, 0, .inProgress, none, none, none⟩⟩
      ⟨0, [⟨0, .valid true "nexus" 200, Duration.seconds 10, 0⟩], Duration.seconds 11⟩ ⟨3⟩
      (Duration.seconds 11)]

theorem followed_task_published : let E := Externals.constant (.replicate 7)
    ∃ s r p, Runs.execList (GraphService.exec E) .init followedRun = some s ∧
      r ∈ s.db.tasks ∧ r.evaluator = some (.graph p) ∧
      r.status = .publishingEntitlement ∧
      p.Condition fun predicate =>
        ∃ v ∈ s.reports, v.Confirms r.taskId p predicate.predicate := by
  intro E
  have h : (Runs.execList (GraphService.exec E) .init followedRun).isSome := by decide +kernel
  refine ⟨_, _, _, (Option.some_get h).symm, List.mem_cons_self, rfl, rfl, ?_⟩
  exact (graph_sound (Runs.run_of_execList (GraphService.exec E) (Option.some_get h).symm)
    List.mem_cons_self rfl).2.1 (.inl rfl)

end PubkyLocks
