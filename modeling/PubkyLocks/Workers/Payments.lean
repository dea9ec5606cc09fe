/-
  The payment workers (`locks-server/src/payment_worker.rs`) on the database of
  the service.

  A worker claims a task, works on the copy its claim returned, and writes what
  it computed under its lease and the revision of its copy.  Between any two of
  these steps other workers, requests and deletions commit; a worker that stops
  or crashes never writes.
-/
import PubkyLocks.Store.Lifecycles
import PubkyLocks.Tasks.PaymentEvidence

namespace PubkyLocks

open PaymentTaskSnapshotV1 Payment TaskStatement TaskUpdate TaskRow

/-! ## Workers -/

/-- `ClaimedPaymentTask`: a lease and the task as the claim returned it. -/
structure PaymentClaim where
  lease : Lease
  task : PaymentTaskRecord
deriving DecidableEq

namespace PaymentClaim

/-- The end of `run_once` for a claimed task that is not being published: the
    worker computes its action from its copy and writes it. -/
def write (c : PaymentClaim) (db : Database) (input : PaymentWorkerInput) (publicationToken : Uuid)
    (dbNow : Timestamp) : Option Database :=
  match paymentWorkerAction c.task.snapshot input with
  | .ok (.persist next _) =>
    db.issue (Payment.persist db c.lease c.task.evaluatorRevision next publicationToken dbNow)
  | .ok (.schedule next now due) =>
    db.issue (Payment.scheduleRetry db c.lease c.task.evaluatorRevision next now due dbNow)
  | .error _ => none

def copy (c : PaymentClaim) : SnapshotCopy :=
  ⟨c.lease.taskId, c.task.evaluatorRevision, .payment c.task.snapshot⟩

end PaymentClaim

/-- The database with its payment workers: the claims they hold or have lost,
    and the provider statuses they have applied to tasks. -/
structure PaymentService where
  db : Database
  claims : List PaymentClaim
  applied : List (TaskId × PaymentProviderStatus)

inductive PaymentEvent where
  | transaction (op : Operation)
  | claim (l : Lease) (now claimExpiresAt dbNow : Timestamp)
  | work (c : PaymentClaim) (input : PaymentWorkerInput) (publicationToken : Uuid)
      (dbNow : Timestamp)

def PaymentEvent.Admits (ev : PaymentEvent) (taskId : TaskId) (s : PaymentTaskSnapshotV1) : Prop :=
  ∃ q dbNow, ev = .transaction (.admission (.admitPaymentTask q dbNow)) ∧ q.taskId = taskId ∧
    new q.submittedProofBundle q.lockHash q.payment dbNow
      q.verificationWindowSeconds = .ok s

def Operation.byPaymentWorker : Operation → Bool
  | statement (.paymentPersist ..) | statement (.paymentRetry ..) => true
  | _ => false

namespace PaymentService

def init : PaymentService := ⟨.empty, [], []⟩

/-- The claims a worker that claimed the task of a lease holds: its row, if it
    can be decoded. -/
def claimed (db : Database) (l : Lease) : List PaymentClaim :=
  ((db.task? l.taskId).bind fun r => (toPaymentTask r).toOption).toList.map (⟨l, ·⟩)

def exec (E : Externals) (s : PaymentService) : PaymentEvent → Option PaymentService
  | .transaction op =>
    if op.byPaymentWorker then none
    else (op.run E s.db).map fun db => { s with db }
  | .claim l now claimExpiresAt dbNow =>
    (Operation.run E s.db (.statement (.paymentClaim l now claimExpiresAt dbNow))).map
      fun db => { s with db, claims := claimed db l ++ s.claims }
  | .work c input publicationToken dbNow =>
    if c ∈ s.claims ∧ c.task.status ≠ .publishingEntitlement then
      some
        { db := (c.write s.db input publicationToken dbNow).getD s.db
          claims := s.claims.erase c
          applied := (appliedStatus? c.task.snapshot input).toList.map (c.task.taskId, ·) ++
            s.applied }
    else none

end PaymentService

/-! ## The workers refine the statements -/

variable {db db' : Database} {c : PaymentClaim} {input : PaymentWorkerInput} {dbNow : Timestamp}
  {r : TaskRow}

section
variable (hc : c.copy.Current db) (hr : r ∈ db.tasks) (h : Payment.claimed db c.lease
  c.task.evaluatorRevision dbNow r)
include hc hr h

theorem PaymentClaim.snapshot_of_claimed : r.evaluator = some (.payment c.task.snapshot) := by
  obtain ⟨hl, -, hn, -⟩ := claimed_iff.1 h
  simp only [Lease.holds, Bool.and_eq_true, beq_iff_eq] at hl
  exact (hc r hr hl.1).2.2 hn

theorem PaymentClaim.workerAction_of_claimed : workerAction input r =
      (paymentWorkerAction c.task.snapshot input).toOption := by
  rw [workerAction, PaymentClaim.snapshot_of_claimed hc hr h]

end

/-- **Refinement.**  What a worker computes from a current copy and writes is
    what the statement of the lane computes from the stored row. -/
theorem PaymentClaim.write_eq_run {publicationToken : Uuid} (hc : c.copy.Current db)
    (h : c.write db input publicationToken dbNow = some db') :
    (paymentPersist c.lease c.task.evaluatorRevision input publicationToken
        dbNow).run db = some db' ∨
      (paymentRetry c.lease c.task.evaluatorRevision input dbNow).run db =
        some db' := by
  unfold PaymentClaim.write at h
  split at h
  · rename_i next now hact
    refine .inl (run_of_issue rfl rfl (fun r hr => ?_) (fun r hr hg => ?_) h)
    · simp only [update, ofRow]
      by_cases hcl : claimed db c.lease c.task.evaluatorRevision dbNow r
      · rw [PaymentClaim.workerAction_of_claimed hc hr hcl, hact]
        rfl
      · simp only [Bool.not_eq_true] at hcl
        split <;> simp [persist, skip, hcl]
    · simp only [persist, Bool.and_eq_true] at hg
      simp only [update, ofRow]
      rw [PaymentClaim.workerAction_of_claimed hc hr hg.1.1, hact]
      rfl
  · rename_i next now due hact
    refine .inr (run_of_issue rfl rfl (fun r hr => ?_) (fun r hr hg => ?_) h)
    · simp only [update, ofRow]
      by_cases hcl : claimed db c.lease c.task.evaluatorRevision dbNow r
      · rw [PaymentClaim.workerAction_of_claimed hc hr hcl, hact]
        rfl
      · simp only [Bool.not_eq_true] at hcl
        split <;> simp [scheduleRetry, skip, hcl]
    · simp only [scheduleRetry, Bool.and_eq_true] at hg
      simp only [update, ofRow]
      rw [PaymentClaim.workerAction_of_claimed hc hr hg.1, hact]
      rfl
  · cases h

/-! ## What payment rows rest on -/

def Operation.Applies (db : Database) (r : TaskRow) (status : PaymentProviderStatus) :
    Operation → Prop
  | .statement (.paymentPersist l n input _ dbNow) | .statement (.paymentRetry l n input dbNow) =>
    Payment.claimed db l n dbNow r ∧
      ∃ p, r.evaluator = some (.payment p) ∧ appliedStatus? p input = some status
  | _ => False

/-- What a payment row rests on: the status it stores was applied to it, and it
    is published only when its root is satisfied, which takes evidence. -/
structure Backed (applied : List (TaskId × PaymentProviderStatus)) (r : TaskRow)
    (p : PaymentTaskSnapshotV1) : Prop where
  status : ∀ status, p.providerStatus = some status → (r.taskId, status) ∈ applied
  evidenced : p.Evidenced
  published : r.status = .publishingEntitlement ∨ r.status = .completed → p.root = .satisfied

variable {op : Operation} {q : TaskRow} {p next : PaymentTaskSnapshotV1}
  {applied applied' : List (TaskId × PaymentProviderStatus)} {action : PaymentWorkerAction}

theorem backed_of_action (hb : Backed applied r p) (hid : q.taskId = r.taskId)
    (hsub : ∀ x ∈ applied, x ∈ applied')
    (hnew : ∀ status, appliedStatus? p input = some status → (r.taskId, status) ∈ applied')
    (ha : paymentWorkerAction p input = .ok action)
    (hpub : q.status = .publishingEntitlement ∨ q.status = .completed →
      action.snapshot.root = .satisfied) : Backed applied' q action.snapshot := by
  obtain ⟨he, hfrom⟩ := paymentWorkerAction_evidence ha hb.evidenced
  refine ⟨fun status hst => ?_, he, hpub⟩
  rw [hid]
  rcases hfrom with hold | ⟨st, happ, hst'⟩
  · exact hsub _ (hb.status status (hold.symm.trans hst))
  · cases hst'.symm.trans hst
    exact hnew _ happ

theorem Payment.satisfied_of_outcome {dbNow : Timestamp}
    (h : (Payment.outcome next dbNow).status = .publishingEntitlement ∨
      (Payment.outcome next dbNow).status = .completed) : next.root = .satisfied := by
  unfold outcome at h
  split at h
  · simp at h
  · assumption
  · simp at h
  · simp at h

theorem TaskRow.lane_eq_payment_iff : r.lane = .payment ↔ ∃ p, r.evaluator = some (.payment p) := by
  unfold lane
  split <;> simp_all

/-- **A transaction** makes progress on a payment snapshot, and the row stays
    backed when what the transaction applies is recorded. -/
theorem backed_of_rowStep (hs : db.Sound) (hr : r ∈ db.tasks)
    (he : r.evaluator = some (.payment p)) (hb : Backed applied r p) (hstep : RowStep db r op q)
    (hsub : ∀ x ∈ applied, x ∈ applied')
    (hop : ∀ status, op.Applies db r status → (r.taskId, status) ∈ applied') :
    ∃ p', q.evaluator = some (.payment p') ∧ p.Progress p' ∧ Backed applied' q p' := by
  have hid : q.taskId = r.taskId := taskId_of_identity (identity_of_rowStep hstep)
  have hlane := lane_eq_payment_iff.2 ⟨p, he⟩
  have hstatus : ∀ status, p.providerStatus = some status → (q.taskId, status) ∈ applied' := by
    intro status hst
    rw [hid]
    exact hsub _ (hb.status status hst)
  cases evaluatorStep_of_rowStep hs hr (by rw [hlane]; decide) hstep with
  | kept op q hk =>
    refine ⟨p, hk.evaluator.trans he, .refl p, hstatus, hb.evidenced, fun hq => ?_⟩
    rcases hk.status with hsame | ⟨-, hopen⟩ | ⟨hpub, -⟩
    · exact hb.published (by rwa [← hsame])
    · exfalso
      rcases hq with hq | hq <;> simp [Deletion.open_, hq] at hopen
    · exact hb.published (.inl hpub)
  | graphPersisted l n next k dbNow hg =>
    simp only [Graph.persist, Bool.and_eq_true] at hg
    exact absurd (hlane.symm.trans (Graph.lane_of_persistChecks hg.1.2)) (by decide)
  | graphScheduled l n next now due dbNow hg =>
    simp only [Graph.scheduleRetry, Bool.and_eq_true] at hg
    exact absurd (hlane.symm.trans (Graph.lane_of_scheduleChecks hg.2)) (by decide)
  | paymentPersisted l n input k dbNow next now hact hg =>
    simp only [persist, Bool.and_eq_true] at hg
    obtain ⟨t, ht, hprog⟩ := persistChecks_spec hg.1.2
    cases he.symm.trans (snapshot_of_toPaymentTask ht)
    have ha := (workerAction_eq_some he).1 hact
    obtain ⟨hst, -, -, hev⟩ :=
      Evaluator.persistSet_columns (.payment next) (outcome next dbNow) k dbNow r
    refine ⟨next, hev, (progress_of_validate hprog).2, ?_⟩
    refine backed_of_action hb hid hsub (fun status happ => hop status ⟨hg.1.1, _, he, happ⟩) ha ?_
    intro hq
    have hout : (outcome next dbNow).status = .publishingEntitlement ∨
        (outcome next dbNow).status = .completed := by
      rw [← hst]
      exact hq
    exact satisfied_of_outcome hout
  | paymentScheduled l n input dbNow next now due hact hg =>
    simp only [scheduleRetry, Bool.and_eq_true] at hg
    obtain ⟨t, ht, hprog⟩ := scheduleChecks_spec hg.2
    cases he.symm.trans (snapshot_of_toPaymentTask ht)
    have ha := (workerAction_eq_some he).1 hact
    refine ⟨next, rfl, (progress_of_validate hprog).2, ?_⟩
    refine backed_of_action hb hid hsub (fun status happ => hop status ⟨hg.1, _, he, happ⟩) ha ?_
    rintro (hq | hq) <;> cases hq
  | closed l now hg =>
    have hev : ((Deletion.expireUnresolved db l.jobId now).set r).evaluator =
        some (.payment { p with root := .expired .contentLockDeleted }) := by
      simp [Deletion.expireUnresolved, he, Deletion.closeSnapshot]
    refine ⟨_, hev, ⟨rfl, fun _ => rfl, fun _ => rfl⟩, hstatus,
      evidenced_of_ne (by simp), ?_⟩
    rintro (hq | hq) <;> cases hq

/-! ## Runs -/

namespace PaymentService

/-- Claims are copies of their tasks, and payment rows are backed by what the
    workers applied. -/
structure Inv (s : PaymentService) : Prop where
  sound : s.db.Sound
  copies : ∀ c ∈ s.claims, c.task.taskId = c.lease.taskId ∧ c.copy.Current s.db ∧
    ∃ r ∈ s.db.tasks, r.taskId = c.lease.taskId
  backed : ∀ r ∈ s.db.tasks, ∀ p, r.evaluator = some (.payment p) → Backed s.applied r p

/-- What an event does: a transaction on the tables, whose applied statuses are
    recorded, or nothing; new claims are decoded rows. -/
structure Step (E : Externals) (ev : PaymentEvent) (s s' : PaymentService) : Prop where
  tables : s'.db = s.db ∨ ∃ op : Operation, op.run E s.db = some s'.db ∧
    (∀ r ∈ s.db.tasks, ∀ status, op.Applies s.db r status →
      (r.taskId, status) ∈ s'.applied) ∧
    ∀ a, op = .admission a → ev = .transaction (.admission a)
  applied : ∀ x ∈ s.applied, x ∈ s'.applied
  claims : ∀ c ∈ s'.claims, c ∈ s.claims ∨
    ∃ r ∈ s'.db.tasks, r.taskId = c.lease.taskId ∧ toPaymentTask r = .ok c.task

variable {E : Externals} {s s' : PaymentService} {ev : PaymentEvent}

theorem mem_claimed {db : Database} {l : Lease} {c : PaymentClaim} (h : c ∈ claimed db l) :
    ∃ r ∈ db.tasks, r.taskId = c.lease.taskId ∧ toPaymentTask r = .ok c.task := by
  obtain ⟨t, ht, rfl⟩ := List.mem_map.1 h
  exact Database.exists_of_decoded (Option.mem_toList.1 ht)

theorem applied_of_claim {c : PaymentClaim} {input : PaymentWorkerInput} {dbNow : Timestamp}
    {r : TaskRow} {status : PaymentProviderStatus} (hi : s.Inv) (hc : c ∈ s.claims)
    (hr : r ∈ s.db.tasks)
    (h : Payment.claimed s.db c.lease c.task.evaluatorRevision dbNow r ∧
      ∃ p, r.evaluator = some (.payment p) ∧ appliedStatus? p input = some status) :
    (r.taskId, status) ∈
      (appliedStatus? c.task.snapshot input).toList.map (c.task.taskId, ·) ++ s.applied := by
  obtain ⟨hcl, p, he, happ⟩ := h
  obtain ⟨hid, hcur, -⟩ := hi.copies c hc
  cases he.symm.trans (PaymentClaim.snapshot_of_claimed hcur hr hcl)
  obtain ⟨hl, -⟩ := claimed_iff.1 hcl
  simp only [Lease.holds, Bool.and_eq_true, beq_iff_eq] at hl
  rw [happ, hid, hl.1]
  exact List.mem_append_left _ (List.mem_map.2 ⟨status, List.mem_singleton.2 rfl, rfl⟩)

/-- **Events**, inverted. -/
theorem step_of_exec (hi : s.Inv) (h : s.exec E ev = some s') : Step E ev s s' := by
  cases ev with
  | transaction op =>
    simp only [exec] at h
    split at h
    · cases h
    · rename_i hop
      obtain ⟨w, hw, rfl⟩ := Option.map_eq_some_iff.1 h
      refine ⟨.inr ⟨op, hw, fun r _ status happ => ?_, fun a ha => ha ▸ rfl⟩, fun _ hx => hx,
        fun _ hc => .inl hc⟩
      unfold Operation.Applies at happ
      split at happ
      · exact absurd rfl hop
      · exact absurd rfl hop
      · exact happ.elim
  | claim l now e dbNow =>
    obtain ⟨w, hw, rfl⟩ := Option.map_eq_some_iff.1 h
    refine ⟨.inr ⟨_, hw, fun _ _ _ happ => happ.elim, fun a ha => by cases ha⟩, fun _ hx => hx,
      fun c hc => ?_⟩
    rcases List.mem_append.1 hc with hnew | hold
    · exact .inr (mem_claimed hnew)
    · exact .inl hold
  | work c input k dbNow =>
    simp only [exec] at h
    split at h
    · rename_i hpre
      obtain ⟨hc, -⟩ := hpre
      cases h
      refine ⟨?_, fun x hx => List.mem_append_right _ hx, fun d hd => .inl (List.mem_of_mem_erase hd)⟩
      cases hw : c.write s.db input k dbNow with
      | none => exact .inl rfl
      | some db =>
        rcases PaymentClaim.write_eq_run (hi.copies c hc).2.1 hw with hrun | hrun
        · exact .inr ⟨.statement _, hrun, fun r hr status happ => applied_of_claim hi hc hr happ,
            fun a ha => by cases ha⟩
        · exact .inr ⟨.statement _, hrun, fun r hr status happ => applied_of_claim hi hc hr happ,
            fun a ha => by cases ha⟩
    · cases h

theorem Step.row_cases (hi : s.Inv) (h : Step E ev s s') {q : TaskRow} {p' : PaymentTaskSnapshotV1}
    (hq : q ∈ s'.db.tasks) (he : q.evaluator = some (.payment p')) :
    Backed s'.applied q p' ∧
      ((∃ r ∈ s.db.tasks, r.taskId = q.taskId ∧
          ∃ p, r.evaluator = some (.payment p) ∧ p.Progress p') ∨ ev.Admits q.taskId p') := by
  rcases h.tables with hw | ⟨op, hop, happ, hev⟩
  · rw [hw] at hq
    have hb := hi.backed q hq p' he
    exact ⟨⟨fun st hst => h.applied _ (hb.status st hst), hb.evidenced, hb.published⟩,
      .inl ⟨q, hq, rfl, p', he, .refl p'⟩⟩
  · rcases rowStep_of_run hi.sound hop hq with ⟨r, hr, hstep⟩ | ⟨a, rfl, hnew, -⟩
    · have hlane : r.lane = .payment :=
        (lane_of_identity (identity_of_rowStep hstep)).symm.trans
          (lane_eq_payment_iff.2 ⟨p', he⟩)
      obtain ⟨p, hp⟩ := lane_eq_payment_iff.1 hlane
      obtain ⟨p₁, he₁, hprog, hb⟩ := backed_of_rowStep hi.sound hr hp (hi.backed r hr p hp) hstep
        h.applied (happ r hr)
      cases he₁.symm.trans he
      exact ⟨hb, .inl ⟨r, hr, (taskId_of_identity (identity_of_rowStep hstep)).symm, p, hp,
        hprog⟩⟩
    · cases a with
      | admitPaymentTask request dbNow =>
        obtain ⟨s₀, hs₀, rfl⟩ := hnew
        cases he
        obtain ⟨-, -, -, hroot, hstatus, -⟩ := new_spec hs₀
        refine ⟨⟨fun st hst => ?_, evidenced_of_ne (by rw [hroot]; decide),
          ?_⟩, .inr ⟨request, dbNow, hev _ rfl, rfl, hs₀⟩⟩
        · rw [hstatus] at hst
          cases hst
        · rintro (hs | hs) <;> cases hs
      | insertVerificationTask t => cases hnew; cases he
      | insertInvoicePendingTask t intent dbNow => cases hnew; cases he
      | insertGraphTask t => obtain ⟨-, rfl⟩ := hnew; cases he
      | startOrRotate _ _ => exact hnew.elim
      | acceptAndInsertGraphTask _ _ _ _ => obtain ⟨t, -, rfl⟩ := hnew; cases he

theorem Step.sound (hi : s.Inv) (h : Step E ev s s') : s'.db.Sound := by
  rcases h.tables with hw | ⟨op, hop, -⟩
  · exact hw ▸ hi.sound
  · exact sound_of_effect hi.sound (effect_of_run hi.sound hop)

/-- **Step.** -/
theorem Step.inv (hi : s.Inv) (h : Step E ev s s') : s'.Inv where
  sound := h.sound hi
  copies := by
    intro c hc
    rcases h.claims c hc with hold | ⟨r, hr, hid, ht⟩
    · obtain ⟨hid, hcur, hrow⟩ := hi.copies c hold
      rcases h.tables with hw | ⟨op, hop, -⟩
      · exact hw ▸ ⟨hid, hcur, hrow⟩
      · have heff := effect_of_run hi.sound hop
        obtain ⟨r, hr, hrid⟩ := hrow
        obtain ⟨q, hq, hqid⟩ := exists_row_of_effect heff hr
        exact ⟨hid, SnapshotCopy.current_of_effect hi.sound heff hcur ⟨r, hr, hrid⟩, q, hq, hqid.trans hrid⟩
    · obtain ⟨htid, hrev⟩ := columns_of_toPaymentTask ht
      have hcur := SnapshotCopy.current_of_row (h.sound hi) hr (snapshot_of_toPaymentTask ht)
      rw [hid, ← hrev] at hcur
      exact ⟨htid.trans hid, hcur, r, hr, hid⟩
  backed := fun q hq p' he => (h.row_cases hi hq he).1

theorem inv_init : init.Inv :=
  ⟨Database.sound_empty, List.forall_mem_nil _,
    List.forall_mem_nil _⟩

variable {events events' : List PaymentEvent}

/-- **Run.** -/
theorem inv_of_run (h : Runs.Run (Runs.ofExec (exec E)) s events s') (hi : s.Inv) : s'.Inv :=
  h.invariant (I := Inv) hi fun _ _ _ hi hstep => (step_of_exec hi hstep).inv hi

theorem admitted_of_run (h : Runs.Run (Runs.ofExec (exec E)) init events s) :
    ∀ r ∈ s.db.tasks, ∀ p, r.evaluator = some (.payment p) →
      ∃ ev ∈ events, ∃ s₀, ev.Admits r.taskId s₀ ∧ s₀.Progress p := by
  apply h.restrict_mem.invariant_under inv_init fun _ _ _ hi hs => (step_of_exec hi hs.1).inv hi
  · exact List.forall_mem_nil _
  rintro s ev s' hi hold ⟨hstep, hmem⟩ q hq p' he'
  rcases ((step_of_exec hi hstep).row_cases hi hq he').2 with ⟨r, hr, hid, p, hp, hprog⟩ | hadm
  · obtain ⟨ev₀, hev₀, s₀, hadm, hprog₀⟩ := hold r hr p hp
    exact ⟨ev₀, hev₀, s₀, hid ▸ hadm, hprog₀.trans hprog⟩
  · exact ⟨ev, hmem, p', hadm, .refl p'⟩

theorem progress_of_run (h : Runs.Run (Runs.ofExec (exec E)) s events s') (hi : s.Inv) {r : TaskRow}
    (hr : r ∈ s.db.tasks) {p : PaymentTaskSnapshotV1}
    (he : r.evaluator = some (.payment p)) {q : TaskRow} (hq : q ∈ s'.db.tasks)
    (hid : q.taskId = r.taskId) : ∃ p', q.evaluator = some (.payment p') ∧ p.Progress p' := by
  have hkept : ∃ q ∈ s'.db.tasks, q.taskId = r.taskId ∧
      ∃ p', q.evaluator = some (.payment p') ∧ p.Progress p' := by
    apply h.invariant_under hi fun _ _ _ hi hstep => (step_of_exec hi hstep).inv hi
    · exact ⟨r, hr, rfl, p, he, .refl p⟩
    rintro t ev t' hi ⟨q, hq, hqid, p', hp', hprog⟩ hstep
    have hst := step_of_exec hi hstep
    rcases hst.tables with hw | ⟨op, hop, happ, -⟩
    · exact ⟨q, hw ▸ hq, hqid, p', hp', hprog⟩
    · have heff := effect_of_run hi.sound hop
      obtain ⟨q', hq', hqid'⟩ := exists_row_of_effect heff hq
      obtain ⟨p₁, hp₁, hprog₁, -⟩ := backed_of_rowStep hi.sound hq hp' (hi.backed q hq p' hp')
        (rowStep_of_taskId hi.sound heff hq hq' hqid') hst.applied (happ q hq)
      exact ⟨q', hq', hqid'.trans hqid, p₁, hp₁, hprog.trans hprog₁⟩
  obtain ⟨q', hq', hqid', p', hp', hprog⟩ := hkept
  rw [List.inj_on_of_nodup_map (inv_of_run h hi).sound.taskIds hq hq' (hid.trans hqid'.symm)]
  exact ⟨p', hp', hprog⟩

end PaymentService

/-- **The payment lane is sound.**  Whatever the provider answers and however
    workers, crashes and other requests interleave, a payment task is published
    or completed only if a status that was applied to it carries the evidence
    its admission asks for; and the evidence, the invoice and the admission
    binding of a stored snapshot are those of every later one. -/
theorem payment_sound {E : Externals} {events : List PaymentEvent}
    {s : PaymentService}
    (h : Runs.Run (Runs.ofExec (PaymentService.exec E)) .init events s) {r : TaskRow}
    (hr : r ∈ s.db.tasks) {p : PaymentTaskSnapshotV1}
    (he : r.evaluator = some (.payment p)) :
    (∃ q dbNow s₀, .transaction (.admission (.admitPaymentTask q dbNow)) ∈ events ∧
      q.taskId = r.taskId ∧ PaymentTaskSnapshotV1.new q.submittedProofBundle q.lockHash q.payment
        dbNow q.verificationWindowSeconds = .ok s₀ ∧ p.binding = s₀.binding ∧
      p.payment.minimumConfirmations = q.payment.minimumConfirmations) ∧
    (r.status = .publishingEntitlement ∨ r.status = .completed →
      ∃ status first, (r.taskId, status) ∈ s.applied ∧ status.Satisfies first p ∧
        p.firstThreshold = some first) ∧
    ∀ events' s', Runs.Run (Runs.ofExec (PaymentService.exec E)) s events' s' →
      ∀ q ∈ s'.db.tasks, q.taskId = r.taskId →
        ∃ p', q.evaluator = some (.payment p') ∧ p'.binding = p.binding ∧
          (p.invoice ≠ .pending → p'.invoice = p.invoice) ∧
          (p.firstThreshold.isSome → p'.firstThreshold = p.firstThreshold) := by
  have hi := PaymentService.inv_of_run h PaymentService.inv_init
  refine ⟨?_, fun hpub => ?_, fun events' s' h' q hq hid => ?_⟩
  · obtain ⟨_, hev, s₀, ⟨q, dbNow, rfl, hid, hs₀⟩, hprog⟩ :=
      PaymentService.admitted_of_run h r hr p he
    refine ⟨q, dbNow, s₀, hev, hid, hs₀, hprog.binding, ?_⟩
    obtain ⟨-, -, -, -, -, hmin⟩ := new_spec hs₀
    have hterms : p.payment = s₀.payment := congrArg (fun b => b.2.2.2.2.2.2.2.1) hprog.binding
    rw [hterms, hmin]
  · have hb := hi.backed r hr p he
    obtain ⟨status, first, hst, hsat⟩ := hb.evidenced (hb.published hpub)
    refine ⟨status, first, hb.status status hst, hsat, ?_⟩
    rw [firstThreshold, hst]
    exact hsat.evidence
  · obtain ⟨p', hp', hprog⟩ := PaymentService.progress_of_run h' hi hr he hq hid
    exact ⟨p', hp', hprog.binding, hprog.invoice, hprog.evidence⟩

/-! ## A paid task -/

/-- A worker creates the invoice, another one sees it paid. -/
def paidRun : List PaymentEvent :=
  let first : Lease := ⟨⟨⟨1⟩⟩, "worker", ⟨2⟩⟩
  let second : Lease := ⟨⟨⟨1⟩⟩, "other", ⟨3⟩⟩
  let created : PaymentTaskSnapshotV1 :=
    { admittedPaymentSnapshot with
      invoice := .created (Duration.seconds 1) (Duration.seconds 300) }
  [.transaction (.admission (.admitPaymentTask
      ⟨⟨⟨1⟩⟩, admittedPaymentSnapshot.submittedProofBundle, .replicate 7,
        ⟨⟨"creator"⟩, "1000", "BTC", 1⟩, 600⟩ 0)),
    .claim first 0 (Duration.seconds 60) 0,
    .work ⟨first, ⟨⟨⟨1⟩⟩, admittedPaymentSnapshot, 0, .inProgress, none, none, none⟩⟩
      ⟨0, .ok ⟨Duration.seconds 1, Duration.seconds 300, Duration.seconds 600⟩, .ok paidStatus,
        Duration.seconds 1⟩ ⟨4⟩ (Duration.seconds 1),
    .claim second (Duration.seconds 5) (Duration.seconds 60) (Duration.seconds 5),
    .work ⟨second, ⟨⟨⟨1⟩⟩, created, 1, .inProgress, none, none, none⟩⟩
      ⟨Duration.seconds 5, .ok ⟨Duration.seconds 1, Duration.seconds 300, Duration.seconds 600⟩,
        .ok paidStatus, Duration.seconds 6⟩ ⟨5⟩ (Duration.seconds 6)]

/-- The payment is published on the status the second worker applied. -/
theorem paid_task_published : let E := Externals.constant (.replicate 7)
    ∃ s r p, Runs.execList (PaymentService.exec E) .init paidRun = some s ∧
      r ∈ s.db.tasks ∧ r.evaluator = some (.payment p) ∧
      r.status = .publishingEntitlement ∧
      ∃ status first, (r.taskId, status) ∈ s.applied ∧ status.Satisfies first p ∧
        p.firstThreshold = some first := by
  intro E
  have h : (Runs.execList (PaymentService.exec E) .init paidRun).isSome := by decide +kernel
  refine ⟨_, _, _, (Option.some_get h).symm, List.mem_cons_self, rfl, rfl, ?_⟩
  exact (payment_sound (Runs.run_of_execList (PaymentService.exec E) (Option.some_get h).symm)
    List.mem_cons_self rfl).2.1 (.inl rfl)

end PubkyLocks
