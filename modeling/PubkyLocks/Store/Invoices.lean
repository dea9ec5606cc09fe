/-
  Invoice admissions under every transaction of the service.

  A version-1 task that awaits its invoice is scheduled or claimed, never both
  and never neither, until the invoice is there or the admission fails.  The
  cutoff of a deletion writes the same columns and keeps them; the transactions
  that would end such a task without ending its admission are refused by the
  CHECK of the table.
-/
import PubkyLocks.Store.RowSteps

namespace PubkyLocks

open TaskStatement Invoice

/-! ## Shape and steps -/

def TaskRow.ScheduledOrClaimed (r : TaskRow) : Prop :=
  (r.nextAttemptAt.isSome ∧ r.claimsNull) ∨ (r.nextAttemptAt.isNone ∧ r.claimsSet)

/-- A task that has been admitted with an invoice intent. -/
structure TaskRow.InvoiceShape (r : TaskRow) : Prop where
  lane : r.lane = .v1
  deadline : r.admissionDeadlineAt.isSome
  awaiting : r.invoiceAdmissionPhase = .invoicePending → r.status = .pending ∧
    r.ScheduledOrClaimed ∧ ∀ t ∈ r.nextAttemptAt, ∀ d ∈ r.admissionDeadlineAt, t ≤ d
  window : r.invoiceAdmissionPhase = .ready → ∃ created deadline,
    r.invoiceCreatedAt = some created ∧ r.paymentDeadline = some deadline ∧ created < deadline

/-- What a transaction may do to an invoice admission. -/
structure TaskRow.InvoiceStep (r q : TaskRow) : Prop where
  intent : q.invoiceAdmissionIntent = r.invoiceAdmissionIntent
  deadline : q.admissionDeadlineAt = r.admissionDeadlineAt
  phase : q.invoiceAdmissionPhase = r.invoiceAdmissionPhase ∨
    r.invoiceAdmissionPhase = .invoicePending ∧
      (q.invoiceAdmissionPhase = .ready ∨ q.invoiceAdmissionPhase = .failed)
  window : r.invoiceAdmissionPhase = .ready →
    q.invoiceCreatedAt = r.invoiceCreatedAt ∧ q.paymentDeadline = r.paymentDeadline

structure TaskRow.SameInvoice (r q : TaskRow) : Prop where
  phase : q.invoiceAdmissionPhase = r.invoiceAdmissionPhase
  intent : q.invoiceAdmissionIntent = r.invoiceAdmissionIntent
  deadline : q.admissionDeadlineAt = r.admissionDeadlineAt
  created : q.invoiceCreatedAt = r.invoiceCreatedAt
  payment : q.paymentDeadline = r.paymentDeadline

variable {r q : TaskRow}

theorem TaskRow.SameInvoice.step (h : r.SameInvoice q) : r.InvoiceStep q :=
  ⟨h.intent, h.deadline, .inl h.phase, fun _ => ⟨h.created, h.payment⟩⟩

theorem TaskRow.status_of_awaiting (hc : q.checks)
    (hp : q.invoiceAdmissionPhase = .invoicePending) : q.status = .pending := by
  simp only [TaskRow.checks, TaskRow.invoiceCheck, hp, Bool.and_eq_true, beq_iff_eq] at hc
  exact hc.1.2.2

theorem TaskRow.InvoiceShape.of_same (hr : r.InvoiceShape) (h : r.SameInvoice q)
    (hlane : q.lane = r.lane) (hp : q.invoiceAdmissionPhase ≠ .invoicePending) :
    q.InvoiceShape where
  lane := hlane.trans hr.lane
  deadline := h.deadline ▸ hr.deadline
  awaiting ha := absurd ha hp
  window ha := by
    rw [h.created, h.payment]
    exact hr.window (h.phase.symm.trans ha)

/-! ## Statements -/

/-- The statements of the version-1 lane that leave the admission alone. -/
def TaskStatement.keepsInvoice : TaskStatement → Bool
  | v1Claim .. | v1Retry .. | v1Persist .. | drainBegin .. | drainComplete .. | drainExpire .. =>
    true
  | _ => false

theorem sameInvoice_retainClaims (r : TaskRow) (b : Bool) : r.SameInvoice (r.retainClaims b) := by
  cases b <;> exact ⟨rfl, rfl, rfl, rfl, rfl⟩

variable {db db' : Database} {op : Operation}

theorem sameInvoice_of_statement {st : TaskStatement} (hst : st.keepsInvoice)
    (hg : (st.update db).guard r) : r.SameInvoice ((st.update db).set r) := by
  cases st with
  | v1Claim l now t dbNow => exact ⟨rfl, rfl, rfl, rfl, rfl⟩
  | v1Retry l now t dbNow => exact ⟨rfl, rfl, rfl, rfl, rfl⟩
  | v1Persist l claimed c dbNow =>
    simp only [update] at hg ⊢
    split at hg
    · rename_i task _
      have h := sameInvoice_retainClaims r (task.status == .publishingEntitlement)
      exact ⟨h.phase, h.intent, h.deadline, h.created, h.payment⟩
    · cases hg
  | drainBegin l id e k now => exact ⟨rfl, rfl, rfl, rfl, rfl⟩
  | drainComplete l id k now => exact ⟨rfl, rfl, rfl, rfl, rfl⟩
  | drainExpire l id status n now =>
    simp only [update] at hg ⊢
    split at hg
    · exact ⟨rfl, rfl, rfl, rfl, rfl⟩
    · cases hg
  | _ => cases hst

theorem not_awaiting_of_statement {st : TaskStatement} (hst : st.keepsInvoice)
    (hg : (st.update db).guard r) (hc : ((st.update db).set r).checks)
    (hstatus : r.invoiceAdmissionPhase = .invoicePending → r.status = .pending) :
    r.invoiceAdmissionPhase ≠ .invoicePending := by
  intro hp
  have hsame := sameInvoice_of_statement hst hg
  have hset : ((st.update db).set r).status = .pending :=
    TaskRow.status_of_awaiting hc (hsame.phase.trans hp)
  have hr := hstatus hp
  cases st with
  | v1Claim l now t dbNow =>
    simp only [update, V1.claimNext, Bool.and_eq_true, beq_iff_eq, hp] at hg
    exact absurd hg.1.1.1.2 (by decide)
  | v1Retry l now t dbNow =>
    simp only [update, V1.scheduleRetry, Bool.and_eq_true, beq_iff_eq, hr] at hg
    exact absurd hg.1.1.2 (by decide)
  | v1Persist l claimed c dbNow =>
    simp only [update] at hg
    split at hg
    · rename_i task _
      simp only [V1.persistTransition, Bool.and_eq_true, beq_iff_eq, hr] at hg
      have hexp := hg.1.1.2
      cases hs : task.status <;> rw [hs] at hexp <;> cases hexp
    · cases hg
  | drainBegin l id e k now => cases hset
  | drainComplete l id k now => cases hset
  | drainExpire l id status n now =>
    simp only [update] at hg hset
    split at hg
    · rename_i heq
      rw [heq] at hset
      cases hset
    · cases hg
  | _ => cases hst

theorem invoice_of_statement {st : TaskStatement} (hlane : st.lane = some .v1)
    (hst : st.keepsInvoice = false) (hg : (st.update db).guard r) (hr : r.InvoiceShape) :
    r.InvoiceStep ((st.update db).set r) ∧ ((st.update db).set r).InvoiceShape := by
  cases st with
  | invoiceClaim l ttl now =>
    simp only [update, claimNext, Bool.and_eq_true, awaiting_iff] at hg
    obtain ⟨⟨⟨-, hphase, hstatus⟩, -⟩, -⟩ := hg
    have hsame : r.SameInvoice (r.setClaim l.workerId l.claimToken (now + ttl)) :=
      ⟨rfl, rfl, rfl, rfl, rfl⟩
    refine ⟨hsame.step, hr.lane, hr.deadline,
      fun _ => ⟨hstatus, .inr ⟨rfl, rfl⟩, by rintro _ ⟨⟩⟩, ?_⟩
    intro hready
    have hready : r.invoiceAdmissionPhase = .ready := hready
    rw [hphase] at hready
    cases hready
  | invoiceReady l created deadline now =>
    simp only [update, markReady, Bool.and_eq_true, awaiting_iff,
      decide_eq_true_eq] at hg
    obtain ⟨⟨hlt, -⟩, hphase, -⟩ := hg
    refine ⟨⟨rfl, rfl, .inr ⟨hphase, .inl rfl⟩, fun hready => ?_⟩, hr.lane, hr.deadline,
      by rintro ⟨⟩, fun _ => ⟨created, deadline, rfl, rfl, hlt⟩⟩
    rw [hphase] at hready
    cases hready
  | invoiceRetry l retryAfter now =>
    simp only [update, scheduleRetry, Bool.and_eq_true,
      awaiting_iff] at hg
    obtain ⟨⟨-, hphase, hstatus⟩, -⟩ := hg
    have hsame : r.SameInvoice ((scheduleRetry l retryAfter now).set r) :=
      ⟨rfl, rfl, rfl, rfl, rfl⟩
    refine ⟨hsame.step, hr.lane, hr.deadline, fun _ => ⟨hstatus, .inl ⟨rfl, rfl⟩, ?_⟩, ?_⟩
    · rintro t ht d hd
      have hd : r.admissionDeadlineAt = some d := hd
      have ht : some ((r.admissionDeadlineAt.map (min (now + retryAfter))).getD
        (now + retryAfter)) = some t := ht
      rw [hd] at ht
      cases ht
      exact min_le_right _ _
    · intro hready
      have hready : r.invoiceAdmissionPhase = .ready := hready
      rw [hphase] at hready
      cases hready
  | invoiceFail l message now =>
    simp only [update, markFailed, Bool.and_eq_true,
      awaiting_iff] at hg
    obtain ⟨-, hphase, -⟩ := hg
    refine ⟨⟨rfl, rfl, .inr ⟨hphase, .inr rfl⟩, fun hready => ?_⟩, hr.lane, hr.deadline,
      by rintro ⟨⟩, by rintro ⟨⟩⟩
    rw [hphase] at hready
    cases hready
  | _ =>
    first
    | simp [keepsInvoice] at hst; done
    | simp [lane] at hlane

theorem invoice_of_freeze (hr : r.InvoiceShape) (jobId : Uuid) (c : CreatorPubky) (l : LockId) :
    r.InvoiceStep ((Deletion.freeze jobId c l).set r) ∧
      ((Deletion.freeze jobId c l).set r).InvoiceShape := by
  have hsame : r.SameInvoice ((Deletion.freeze jobId c l).set r) := ⟨rfl, rfl, rfl, rfl, rfl⟩
  refine ⟨hsame.step, ?_⟩
  by_cases hp : r.invoiceAdmissionPhase = .invoicePending
  · obtain ⟨hstatus, hone, hbound⟩ := hr.awaiting hp
    refine ⟨hr.lane, hr.deadline, fun _ => ⟨?_, ?_, ?_⟩, fun hready => ?_⟩
    · simp [Deletion.freeze, Deletion.open_, hstatus]
    · simpa [TaskRow.ScheduledOrClaimed, TaskRow.claimsNull, TaskRow.claimsSet, Deletion.freeze,
        Deletion.keepIfInvoicePending, hp] using hone
    · simpa [Deletion.freeze, Deletion.keepIfInvoicePending, hp] using hbound
    · have hready : r.invoiceAdmissionPhase = .ready := hready
      rw [hp] at hready
      cases hready
  · exact hr.of_same hsame rfl hp

/-- **One row.**  A transaction takes the admission of a task one step and keeps
    its shape. -/
theorem invoiceStep_of_rowStep (hs : db.Sound) (hr : r ∈ db.tasks) (hshape : r.InvoiceShape)
    (h : RowStep db r op q) (hc : q.checks) : r.InvoiceStep q ∧ q.InvoiceShape := by
  have hlane := TaskRow.lane_of_identity (identity_of_rowStep h)
  cases h with
  | kept => exact ⟨⟨rfl, rfl, .inl rfl, fun _ => ⟨rfl, rfl⟩⟩, hshape⟩
  | statement st hst hg =>
    cases hkeep : st.keepsInvoice with
    | true =>
      have hsame := sameInvoice_of_statement hkeep hg
      refine ⟨hsame.step, hshape.of_same hsame hlane ?_⟩
      rw [hsame.phase]
      exact not_awaiting_of_statement hkeep hg hc fun hp => (hshape.awaiting hp).1
    | false =>
      have hv1 := lane_of_guard hs hr hst hg
      rw [hshape.lane] at hv1
      exact invoice_of_statement hv1 hkeep hg hshape
  | frozen job seen t _ _ => exact invoice_of_freeze hshape job.jobId job.creator job.lockId
  | expired l now hg =>
    have hsame : r.SameInvoice ((Deletion.expireUnresolved db l.jobId now).set r) :=
      ⟨rfl, rfl, rfl, rfl, rfl⟩
    refine ⟨hsame.step, hshape.of_same hsame hlane fun hp => ?_⟩
    cases TaskRow.status_of_awaiting hc hp
  | released l now =>
    have hsame : r.SameInvoice { r with deletionJobId := none } := ⟨rfl, rfl, rfl, rfl, rfl⟩
    exact ⟨hsame.step, hshape.lane, hshape.deadline, hshape.awaiting, hshape.window⟩

theorem intent_of_statement {st : TaskStatement} (hg : (st.update db).guard r) :
    ((st.update db).set r).invoiceAdmissionIntent = r.invoiceAdmissionIntent := by
  cases st with
  | v1Persist l claimed c dbNow => exact (sameInvoice_of_statement rfl hg).intent
  | drainExpire l id status n now => exact (sameInvoice_of_statement rfl hg).intent
  | graphPersist l n next k dbNow => exact (sameInvoice_retainClaims r _).intent
  | paymentPersist l n input k dbNow =>
    simp only [update, TaskUpdate.ofRow] at hg ⊢
    split at hg
    · exact (sameInvoice_retainClaims r _).intent
    · cases hg
  | paymentRetry l n input dbNow =>
    simp only [update, TaskUpdate.ofRow] at hg ⊢
    split at hg
    · rfl
    · cases hg
  | expireUnresolved l now =>
    simp only [update]
    split <;> rfl
  | _ => rfl

theorem intent_of_rowStep (h : RowStep db r op q) :
    q.invoiceAdmissionIntent = r.invoiceAdmissionIntent := by
  cases h with
  | statement st _ hg => exact intent_of_statement hg
  | _ => rfl

/-! ## Runs -/

structure Database.InvoicesSound (db : Database) : Prop where
  sound : db.Sound
  shape : ∀ r ∈ db.tasks, r.invoiceAdmissionIntent.isSome → r.InvoiceShape

theorem invoiceShape_of_newRow {a : Admission} (hnew : a.NewRow r)
    (hchecks : ∀ task intent t, a = .insertInvoicePendingTask task intent t →
      (validateInvoiceAdmissionInputs task intent).isOk)
    (hi : r.invoiceAdmissionIntent.isSome) : r.InvoiceShape := by
  cases a with
  | insertInvoicePendingTask task intent t =>
    subst hnew
    obtain ⟨_, hvalid⟩ := Checks.isOk_iff.1 (hchecks task intent t rfl)
    simp only [validateInvoiceAdmissionInputs, Checks.refuse_eq_ok, not_or, not_not] at hvalid
    refine ⟨rfl, rfl, fun _ => ⟨hvalid.2.1, .inl ⟨rfl, rfl⟩, ?_⟩, nofun⟩
    rintro s ⟨⟩ d ⟨⟩
    have hwindow : (0 : ℤ) ≤ INVOICE_ADMISSION_WINDOW := by decide
    exact Int.le_add_of_nonneg_right hwindow
  | insertVerificationTask task => subst hnew; cases hi
  | insertGraphTask task =>
    obtain ⟨-, rfl⟩ := hnew
    cases hi
  | admitPaymentTask q now =>
    obtain ⟨s, -, rfl⟩ := hnew
    cases hi
  | startOrRotate q now => exact hnew.elim
  | acceptAndInsertGraphTask attempt taskId reader now =>
    obtain ⟨t, -, rfl⟩ := hnew
    cases hi

theorem invoicesSound_of_run {E : Externals} (hs : db.InvoicesSound)
    (h : op.run E db = some db') : db'.InvoicesSound := by
  have heff := effect_of_run hs.sound h
  have hsound := sound_of_effect hs.sound heff
  refine ⟨hsound, fun q hq hi => ?_⟩
  rcases rowStep_of_run hs.sound h hq with ⟨r, hr, hstep⟩ | ⟨a, rfl, hnew, -⟩
  · rw [intent_of_rowStep hstep] at hi
    exact (invoiceStep_of_rowStep hs.sound hr (hs.shape r hr hi) hstep (hsound.checks q hq)).2
  · refine invoiceShape_of_newRow hnew (fun task intent t ha => ?_) hi
    subst ha
    obtain ⟨hchecks, -⟩ := Transactions.Program.run_eq_some.1 h
    exact hchecks _ List.mem_cons_self

theorem v1Claim_keeps_unready {E : Externals} {l : Lease} {now claimExpiresAt dbNow : Timestamp}
    (h : (Operation.statement (.v1Claim l now claimExpiresAt dbNow)).run E db = some db')
    (hr : r ∈ db.tasks) (hp : r.invoiceAdmissionPhase ≠ .ready) : r ∈ db'.tasks := by
  simp only [Operation.run, run] at h
  split at h
  · split at h
    · rename_i hupd
      obtain ⟨-, rfl⟩ := Database.updateTasks_eq_some.1 hupd
      cases h
      refine Table.mem_updateWhere.2 ⟨r, hr, .inr ⟨?_, rfl⟩⟩
      rw [← Bool.not_eq_true]
      intro hg
      simp only [update, V1.claimNext, Bool.and_eq_true, beq_iff_eq] at hg
      exact hp hg.1.1.1.2
    · cases h
  · cases h

/-- **Invoice admissions.**  In every state the service reaches, a task with an
    invoice intent has the shape of its phase.  An admission inserts it awaiting
    its invoice; every transaction keeps its intent and its deadline, ends the
    wait at most once, and then keeps phase and window; and no claim of the
    version-1 lane takes it before it is ready. -/
theorem invoice_lifecycle (E : Externals) (ops : List Operation) (db : Database)
    (hrun : Runs.Run (Runs.ofExec (Operation.run E)) .empty ops db) :
    (∀ r ∈ db.tasks, r.invoiceAdmissionIntent.isSome → r.InvoiceShape) ∧
    ∀ (op : Operation) db', op.run E db = some db' →
      (∀ task intent t, op = .admission (.insertInvoicePendingTask task intent t) →
        ∃ r, db'.tasks = r :: db.tasks ∧ r.taskId = task.taskId ∧
          r.invoiceAdmissionIntent = some intent ∧ r.invoiceAdmissionPhase = .invoicePending) ∧
      (∀ r ∈ db.tasks, r.invoiceAdmissionIntent.isSome →
        ∃ q ∈ db'.tasks, q.taskId = r.taskId ∧ r.InvoiceStep q) ∧
      (∀ l now claimExpiresAt dbNow, op = .statement (.v1Claim l now claimExpiresAt dbNow) →
        ∀ r ∈ db.tasks, r.invoiceAdmissionPhase ≠ .ready → r ∈ db'.tasks) := by
  have hinv : db.InvoicesSound :=
    hrun.invariant (I := Database.InvoicesSound)
      ⟨Database.sound_empty, List.forall_mem_nil _⟩
      fun _ _ _ hs hstep => invoicesSound_of_run hs hstep
  refine ⟨hinv.shape, fun op db' hop => ⟨?_, fun r hr hi => ?_, ?_⟩⟩
  · rintro task intent t rfl
    obtain ⟨-, hw⟩ := Transactions.Program.run_eq_some.1 hop
    obtain ⟨-, -, rfl⟩ := Database.insertTask_eq_some.1 hw
    exact ⟨_, rfl, rfl, rfl, rfl⟩
  · have heff := effect_of_run hinv.sound hop
    obtain ⟨q, hq, hid⟩ := exists_row_of_effect heff hr
    have hstep := rowStep_of_taskId hinv.sound heff hr hq hid
    have hc := (sound_of_effect hinv.sound heff).checks q hq
    exact ⟨q, hq, hid, (invoiceStep_of_rowStep hinv.sound hr (hinv.shape r hr hi) hstep hc).1⟩
  · rintro l now claimExpiresAt dbNow rfl r hr hp
    exact v1Claim_keeps_unready hop hr hp

/-- The submission of a reader who pays with Paykit. -/
def paykitTask : VerificationTaskRecord where
  taskId := ⟨⟨1⟩⟩
  creator := ⟨"creator"⟩
  submittedProofBundle :=
    ⟨1, ⟨"bundle"⟩, .of ⟨"creator"⟩ (LockId.fromHash (.replicate 7)), some ⟨"reader"⟩, none,
      [⟨"payment", .paykitPayment, .null⟩]⟩
  status := .pending
  submittedAt := 0
  startedAt := none
  completedAt := none
  failureMessage := none
  terminalReason := none
  entitlementToPublish := none

/-- Its invoice is claimed, retried, claimed again after a minute and ready. -/
def invoiceOperations : List Operation :=
  let intent : InvoiceAdmissionIntentV1 :=
    ⟨1, ⟨"creator"⟩, ⟨"bundle"⟩, .of ⟨"creator"⟩ (LockId.fromHash (.replicate 7)), ⟨"reader"⟩, 60⟩
  let l₁ : Lease := ⟨⟨⟨1⟩⟩, "worker", ⟨1⟩⟩
  let l₂ : Lease := ⟨⟨⟨1⟩⟩, "worker", ⟨2⟩⟩
  [.admission (.insertInvoicePendingTask paykitTask intent 0),
    .statement (.invoiceClaim l₁ (Duration.seconds 30) 0),
    .statement (.invoiceRetry l₁ (Duration.seconds 60) 1),
    .statement (.invoiceClaim l₂ (Duration.seconds 30) (Duration.seconds 60 + 1)),
    .statement (.invoiceReady l₂ 5 (Duration.seconds 600) (Duration.seconds 61))]

theorem invoice_ready : let E := Externals.constant (.replicate 7)
    ∃ db, Runs.execList (Operation.run E) .empty invoiceOperations = some db ∧
      (∃ r ∈ db.tasks, r.invoiceAdmissionPhase = .ready ∧ r.invoiceAdmissionIntent.isSome) ∧
      ∀ r ∈ db.tasks, r.invoiceAdmissionIntent.isSome → r.InvoiceShape := by
  intro E
  have h : (Runs.execList (Operation.run E) .empty invoiceOperations).any fun db =>
      db.tasks.any fun r => r.invoiceAdmissionPhase == .ready && r.invoiceAdmissionIntent.isSome := by
    decide +kernel
  obtain ⟨db, hdb, hany⟩ := (Option.any_eq_true _ _).1 h
  obtain ⟨r, hr, hready⟩ := List.any_eq_true.1 hany
  rw [Bool.and_eq_true, beq_iff_eq] at hready
  have hlife := invoice_lifecycle E invoiceOperations db (Runs.run_of_execList _ hdb)
  exact ⟨db, hdb, ⟨r, hr, hready⟩, hlife.1⟩

end PubkyLocks
