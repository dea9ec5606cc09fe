/-
  Submissions are idempotent, whatever runs beside them.

  A task is never removed and keeps its id, its handle and its submitted bundle.
  A call answers with a task it has inserted or has read, and compares the
  bundle of a task it has read with its own, unless the task is the one it has
  inserted; so the answers to one handle are all the same task.

  The comparison is with the bundle as sent, and the row has it as JSONB gives it
  back.  A bundle that JSONB changes is in conflict with its own task.
-/
import PubkyLocks.Submissions.SubmitProofBundle

namespace PubkyLocks

open Database TaskRow Transaction SubmitCall

open Transactions (Open)

/-! ## Reads -/

structure Database.HoldsAs (db : Database) (id : TaskId) (bundle : SubmittedProofBundle)
    (r : TaskRow) : Prop where
  mem : r ∈ db.tasks
  taskId : r.taskId = id
  submitted : r.submittedProofBundle = .v1 bundle
  creator : r.creator = bundle.pubkyLockResource.creator
  bundleId : r.bundleId = bundle.bundleId
  lane : r.lane = .v1

/-- The table has a row of the task. -/
def Database.Holds (db : Database) (id : TaskId) (bundle : SubmittedProofBundle) : Prop :=
  ∃ r, db.HoldsAs id bundle r

variable {db db' : Database} {r : TaskRow} {t : VerificationTaskRecord}
  {bundle : SubmittedProofBundle} {id : TaskId}

theorem Database.holdsAs_of_read (hr : r ∈ db.tasks) (hv : r.isV1) (h : r.toRecord = .ok t) :
    db.HoldsAs t.taskId t.submittedProofBundle r := by
  have hread := readAs_of_toRecord h
  exact ⟨hr, hread.taskId, hread.submitted, hread.creator, hread.bundleId, isV1_iff.1 hv⟩

theorem Database.holds_of_getByHandle {c : CreatorPubky} {b : BundleId}
    (h : db.getVerificationTaskByHandle c b = .ok (some t)) :
    ∃ r, db.HoldsAs t.taskId t.submittedProofBundle r ∧ r.creator = c ∧ r.bundleId = b := by
  unfold getVerificationTaskByHandle at h
  split at h
  · cases h
  · rename_i r hr
    obtain ⟨t', ht, heq⟩ := Checks.map_eq_ok.1 h
    cases heq
    obtain ⟨hmem, hc, hb⟩ := mem_tasksOf.1 (List.mem_of_find?_eq_some hr)
    exact ⟨r, holdsAs_of_read hmem (List.find?_some hr) ht, hc, hb⟩

theorem Database.holds_of_findExisting (h : db.findExisting bundle = .ok (some t)) :
    db.Holds t.taskId bundle ∧ t.submittedProofBundle = bundle := by
  obtain ⟨existing, hget, h⟩ := Checks.bind_eq_ok.1 h
  cases existing with
  | none => cases h
  | some existing =>
    simp only [exactly] at h
    split at h
    · rename_i hsame
      cases h
      obtain rfl := eq_of_beq hsame
      obtain ⟨r, hr, -⟩ := holds_of_getByHandle hget
      exact ⟨⟨r, hr⟩, rfl⟩
    · cases h

theorem Database.holds_of_getTask (h : db.getVerificationTask id = .ok (some t)) :
    db.Holds id t.submittedProofBundle ∧ t.taskId = id := by
  unfold getVerificationTask at h
  split at h
  · cases h
  · rename_i r hr
    obtain ⟨t', ht, heq⟩ := Checks.map_eq_ok.1 h
    cases heq
    have hfound := List.find?_some hr
    rw [Bool.and_eq_true, beq_iff_eq] at hfound
    have hheld := holdsAs_of_read (List.mem_of_find?_eq_some hr) hfound.2 ht
    have hid : t.taskId = id := hheld.taskId.symm.trans hfound.1
    exact ⟨⟨r, hid ▸ hheld⟩, hid⟩

theorem Database.Holds.bundle_eq (hs : db.Sound) {b : SubmittedProofBundle}
    (h : db.Holds id bundle) (h' : db.Holds id b) : b = bundle := by
  obtain ⟨r, hr⟩ := h
  obtain ⟨q, hq⟩ := h'
  have heq : q = r :=
    List.inj_on_of_nodup_map hs.taskIds hq.mem hr.mem (hq.taskId.trans hr.taskId.symm)
  subst heq
  exact SubmittedProofBundlePayload.v1.inj (hq.submitted.symm.trans hr.submitted)

theorem Database.eq_of_handle (hu : db.HandlesUnique) {r q : TaskRow} (hr : r ∈ db.tasks)
    (hq : q ∈ db.tasks) (hc : q.creator = r.creator) (hb : q.bundleId = r.bundleId) : q = r :=
  List.inj_on_of_nodup_map hu hq hr (Prod.ext hc hb)

theorem Database.tasksOf_eq_singleton (hu : db.HandlesUnique) {c : CreatorPubky} {b : BundleId}
    (hr : r ∈ db.tasksOf c b) : db.tasksOf c b = [r] := by
  have hnodup : (db.tasksOf c b).Nodup := (List.Nodup.of_map _ hu).filter _
  have hall : ∀ q ∈ db.tasksOf c b, q = r := by
    intro q hq
    obtain ⟨hr, hrc, hrb⟩ := mem_tasksOf.1 hr
    obtain ⟨hq, hqc, hqb⟩ := mem_tasksOf.1 hq
    exact eq_of_handle hu hr hq (hqc.trans hrc.symm) (hqb.trans hrb.symm)
  rw [List.eq_replicate_of_mem hall] at hnodup ⊢
  have hle := List.nodup_replicate.1 hnodup
  have hpos := List.length_pos_of_mem hr
  obtain hlen : (db.tasksOf c b).length = 1 := by omega
  rw [hlen]
  rfl

/-! ## Stores -/

/-- The rows keep their identities. -/
def TaskStore.Keeps (s s' : TaskStore) : Prop :=
  ∀ r ∈ s.db.tasks, ∃ q ∈ s'.db.tasks, q.identity = r.identity

theorem Database.HoldsAs.kept (h : db.HoldsAs id bundle r) {q : TaskRow} (hq : q ∈ db'.tasks)
    (hid : q.identity = r.identity) : db'.HoldsAs id bundle q where
  mem := hq
  taskId := (taskId_of_identity hid).trans h.taskId
  submitted := (submitted_of_identity hid).trans h.submitted
  creator := (creator_of_identity hid).trans h.creator
  bundleId := (bundleId_of_identity hid).trans h.bundleId
  lane := (lane_of_identity hid).trans h.lane

variable {E : Externals} {s s' : TaskStore}

theorem Database.Holds.kept (h : s.db.Holds id bundle) (hk : s.Keeps s') :
    s'.db.Holds id bundle := by
  obtain ⟨r, hr⟩ := h
  obtain ⟨q, hq, hid⟩ := hk r hr.mem
  exact ⟨q, hr.kept hq hid⟩

theorem TaskStore.keeps_of_eq (h : s'.db = s.db) : s.Keeps s' :=
  fun r hr => ⟨r, h ▸ hr, rfl⟩

/-- **One event** keeps the rows. -/
theorem TaskStore.keeps_exec (h : CutoffInvariant E s) {e : Transactions.Event Transaction}
    (hstep : Transactions.exec (program E) s e = some s') : s.Keeps s' := by
  obtain ⟨-, hdb | ⟨t, -, -, -, heffect⟩⟩ := consistent_exec h.consistent hstep
  · exact keeps_of_eq hdb
  · intro r hr
    rcases rows_of_effect heffect with hrows | ⟨a, q, -, -, htasks⟩
    · obtain ⟨q, hq, hrow⟩ := Table.exists_of_forall₂ hrows hr
      exact ⟨q, hq, identity_of_rowStep hrow⟩
    · exact ⟨r, htasks ▸ List.mem_cons_of_mem q hr, rfl⟩

theorem cutoffInvariant_ended (h : CutoffInvariant E s) (id : ℕ) :
    CutoffInvariant E (ended s id) := by
  cases hfree : s.free id with
  | true =>
    have hsame : s.without id = s.active := List.filter_eq_self.2 (List.all_eq_true.1 hfree)
    rw [ended, hsame]
    exact h
  | false =>
    refine cutoffInvariant_exec (e := .abort id) h ?_
    simp [Transactions.exec, hfree, ended]

inductive StoreStep (E : Externals) (s : TaskStore) : TaskStore → Prop
  | read : StoreStep E s s
  | event (e : Transactions.Event Transaction) {s' : TaskStore}
      (h : Transactions.exec (program E) s e = some s') : StoreStep E s s'
  | ended (id : ℕ) : StoreStep E s (ended s id)

theorem StoreStep.keeps (hs : CutoffInvariant E s) (h : StoreStep E s s') :
    CutoffInvariant E s' ∧ s.Keeps s' := by
  cases h with
  | read => exact ⟨hs, TaskStore.keeps_of_eq rfl⟩
  | event e h => exact ⟨cutoffInvariant_exec hs h, TaskStore.keeps_exec hs h⟩
  | ended id => exact ⟨cutoffInvariant_ended hs id, TaskStore.keeps_of_eq rfl⟩

/-! ## Calls -/

/-- A bundle that a call was given or has read: as it was sent, or as its row gives
    it back. -/
def SubmittedProofBundle.Gives (E : Externals) (bundle b : SubmittedProofBundle) : Prop :=
  b = bundle ∨ b = bundle.readBack E

theorem SubmittedProofBundle.Gives.eq {b : SubmittedProofBundle} (h : bundle.Gives E b)
    (hstored : bundle.readBack E = bundle) : b = bundle :=
  h.elim id fun h => h.trans hstored

theorem SubmittedProofBundle.Gives.creator_eq {b : SubmittedProofBundle} (h : bundle.Gives E b) :
    b.pubkyLockResource.creator = bundle.pubkyLockResource.creator := by
  rcases h with rfl | rfl <;> rfl

theorem SubmittedProofBundle.Gives.bundleId_eq {b : SubmittedProofBundle} (h : bundle.Gives E b) :
    b.bundleId = bundle.bundleId := by
  rcases h with rfl | rfl <;> rfl

/-- What a call knows of the tables where it stands. -/
def SubmitCall.Knows (E : Externals) (db : Database) : SubmitCall → Prop
  | submit _ _ | preparing _ _ | rereading _ | returned _ (.error _) => True
  | admitting task _ _ => task.creator = task.submittedProofBundle.pubkyLockResource.creator
  | comparing _ _ _ existing => db.Holds existing.taskId existing.submittedProofBundle
  | readingBack bundle _ inserted => inserted = true → ∃ id, db.Holds id (bundle.readBack E)
  | readingAdmission bundle _ same existing | readingTask bundle _ same existing _ =>
    db.Holds existing.taskId existing.submittedProofBundle ∧
      (same = true → bundle.Gives E existing.submittedProofBundle)
  | returned bundle (.ok task) =>
    (∃ b, bundle.Gives E b ∧ db.Holds task.taskId b) ∧ bundle.Gives E task.submittedProofBundle

namespace SubmitCall

variable {call next : SubmitCall} {task existing : VerificationTaskRecord} {i : SubmitInput}
  {intent : InvoiceAdmissionIntentV1}

theorem Knows.kept (h : call.Knows E s.db) (hk : s.Keeps s') : call.Knows E s'.db := by
  cases call with
  | comparing => exact Holds.kept h hk
  | readingBack bundle intent inserted =>
    intro hi
    obtain ⟨id, hid⟩ := h hi
    exact ⟨id, hid.kept hk⟩
  | readingAdmission => exact ⟨h.1.kept hk, h.2⟩
  | readingTask => exact ⟨h.1.kept hk, h.2⟩
  | returned bundle result =>
    cases result with
    | error e => trivial
    | ok task =>
      obtain ⟨⟨b, hb, hholds⟩, htask⟩ := h
      exact ⟨⟨b, hb, hholds.kept hk⟩, htask⟩
  | _ => exact h

theorem label_of_submission? {t : Transaction} {intent : Option InvoiceAdmissionIntentV1}
    (h : t.submission? = some (task, intent)) :
    (t = .admission (.insertVerificationTask task) ∧ intent = none) ∨
      ∃ i dbNow, t = .admission (.insertInvoicePendingTask task i dbNow) ∧ intent = some i := by
  unfold submission? at h
  split at h
  · cases h
    exact .inl ⟨rfl, rfl⟩
  · cases h
    exact .inr ⟨_, _, rfl, rfl⟩
  · cases h

theorem open?_eq_some {intent : Option InvoiceAdmissionIntentV1} {id : ℕ} {t : Open Transaction}
    (h : open? s task intent id = some t) :
    t ∈ s.active ∧ t.id = id ∧ t.label.submission? = some (task, intent) := by
  obtain ⟨hfind, hlabel⟩ := Option.filter_eq_some_iff.1 h
  refine ⟨List.mem_of_find?_eq_some hfind, ?_, eq_of_beq hlabel⟩
  simpa using List.find?_some hfind

theorem holds_of_commit {intent : Option InvoiceAdmissionIntentV1} {id : ℕ} {t : Open Transaction}
    (hs : CutoffInvariant E s) (ht : open? s (task.stored E) intent id = some t)
    (hcreator : task.creator = task.submittedProofBundle.pubkyLockResource.creator)
    (h : Transactions.exec (program E) s (.commit id) = some s') :
    s'.db.Holds task.taskId (task.submittedProofBundle.readBack E) := by
  obtain ⟨hmem, hid, hlabel⟩ := open?_eq_some ht
  rcases Transactions.exec_cases h with ⟨_, _, he, -⟩ | ⟨_, _, _, he, -⟩ |
    ⟨t', ht', he, -, hw, -⟩ | ⟨_, he, -⟩
  · cases he
  · cases he
  · -- transactions are told apart by their ids
    have hsame : t' = t := by
      by_contra hne
      exact (hs.consistent.locks.apart ht' hmem hne).1
        ((Transactions.Event.commit.inj he).symm.trans hid.symm)
    subst hsame
    rcases label_of_submission? hlabel with ⟨hl, -⟩ | ⟨intent, dbNow, hl, -⟩
    all_goals
      simp only [program, hl, write, Admission.write] at hw
      obtain ⟨-, -, htasks⟩ := insertTask_eq_some.1 hw
      rw [htasks]
      exact ⟨_, ⟨List.mem_cons_self, rfl, rfl, hcreator, rfl, rfl⟩⟩
  · cases he

theorem knows_of_refusedVerification {id k : ℕ}
    (h : refusedVerification s task id k = some (next, s')) :
    StoreStep E s s' ∧ next.Knows E s'.db := by
  simp only [refusedVerification] at h
  split at h
  · cases h
    exact ⟨.ended id, trivial⟩
  · cases h
    exact ⟨.ended id, trivial⟩
  · split at h
    · cases h
      exact ⟨.ended id, trivial⟩
    · cases h
      exact ⟨.ended id, trivial⟩
  · cases h
    exact ⟨.ended id, trivial⟩
  · cases h

theorem knows_of_refusedInvoice {id k : ℕ}
    (h : refusedInvoice s task intent id k = some (next, s')) :
    StoreStep E s s' ∧ next.Knows E s'.db := by
  simp only [refusedInvoice] at h
  split at h
  · cases h
    exact ⟨.ended id, trivial⟩
  · split at h
    · cases h
    · rename_i existing hget
      cases h
      obtain ⟨r, hr, -⟩ := holds_of_getByHandle hget
      exact ⟨.read, r, hr⟩
    · cases h
      exact ⟨.ended id, trivial⟩
  · cases h
    exact ⟨.ended id, trivial⟩
  · cases h

theorem knows_of_onTransaction {intent : Option InvoiceAdmissionIntentV1} {id : ℕ}
    (hs : CutoffInvariant E s)
    (hcreator : task.creator = task.submittedProofBundle.pubkyLockResource.creator)
    (h : onTransaction E s task intent id = some (next, s')) :
    StoreStep E s s' ∧ next.Knows E s'.db := by
  unfold onTransaction at h
  split at h
  · cases h
  · rename_i t ht
    split at h
    · split at h
      · rename_i hcheck
        cases h
        exact ⟨.event _ hcheck, hcreator⟩
      · split at h
        · exact knows_of_refusedVerification h
        · exact knows_of_refusedInvoice h
    · split at h
      · rename_i hcommit
        cases h
        have hholds := holds_of_commit hs ht hcreator hcommit
        refine ⟨.event _ hcommit, ?_⟩
        cases intent with
        | none => exact ⟨⟨_, .inr rfl, hholds⟩, .inl rfl⟩
        | some i => exact fun _ => ⟨_, hholds⟩
      · cases h
        refine ⟨.ended id, ?_⟩
        cases intent with
        | none => trivial
        | some i => exact fun hi => absurd hi Bool.false_ne_true

theorem knows_of_onPreparing {mode : SubmitMode} (h : onPreparing E s mode bundle i =
    some (next, s')) : StoreStep E s s' ∧ next.Knows E s'.db := by
  simp only [onPreparing] at h
  split at h
  · cases h
    exact ⟨.read, trivial⟩
  · split at h
    · cases h
      exact ⟨.read, trivial⟩
    · obtain ⟨s₁, hbegin, heq⟩ := Option.map_eq_some_iff.1 h
      cases heq
      exact ⟨.event _ hbegin, rfl⟩

theorem knows_of_onComparing {id : ℕ}
    (hholds : s.db.Holds existing.taskId existing.submittedProofBundle)
    (h : onComparing s bundle intent id existing = (next, s')) :
    StoreStep E s s' ∧ next.Knows E s'.db := by
  simp only [onComparing] at h
  split at h
  · cases h
    exact ⟨.ended id, trivial⟩
  · rename_i hsame
    rw [not_or, not_not] at hsame
    cases h
    exact ⟨.ended id, hholds, fun _ => .inl hsame.1⟩

theorem knows_of_findExisting {missing : SubmitCall} (hmissing : missing.Knows E s.db) :
    (onFound bundle (fun task => .returned bundle (.ok task)) missing
      (s.db.findExisting bundle)).Knows E s.db := by
  cases hfind : s.db.findExisting bundle with
  | error e => trivial
  | ok found =>
    cases found with
    | none => exact hmissing
    | some task =>
      obtain ⟨hholds, hsame⟩ := holds_of_findExisting hfind
      exact ⟨⟨bundle, .inl rfl, hholds⟩, .inl hsame⟩

/-- The call after its insert has read the task of its handle: if it is the one that
    was inserted, it has the bundle of the call as its row gives it back. -/
theorem knows_of_readBack (hs : CutoffInvariant E s) {inserted : Bool}
    (hown : inserted = true → ∃ id, s.db.Holds id (bundle.readBack E)) :
    (onFound bundle (fun task => .readingAdmission bundle intent inserted task)
      (failed bundle (.duplicateRecord "verification_task"))
      (s.db.getVerificationTaskByHandle bundle.pubkyLockResource.creator
        bundle.bundleId)).Knows E s.db := by
  cases hget : s.db.getVerificationTaskByHandle bundle.pubkyLockResource.creator
      bundle.bundleId with
  | error e => trivial
  | ok found =>
    cases found with
    | none => trivial
    | some task =>
      obtain ⟨r, hr, hc, hb⟩ := holds_of_getByHandle hget
      refine ⟨⟨r, hr⟩, fun hi => ?_⟩
      obtain ⟨id, q, hq⟩ := hown hi
      have hsame : q = r := eq_of_handle hs.unique hr.mem hq.mem
        (hq.creator.trans hc.symm) (hq.bundleId.trans hb.symm)
      subst hsame
      exact .inr (SubmittedProofBundlePayload.v1.inj (hr.submitted.symm.trans hq.submitted))

theorem knows_of_answer (hs : CutoffInvariant E s) {same : Bool}
    {metadata : InvoiceAdmissionMetadata} {admission : InvoiceAdmissionRecord}
    (hholds : s.db.Holds existing.taskId existing.submittedProofBundle)
    (hsame : same = true → bundle.Gives E existing.submittedProofBundle)
    (h : s.db.getVerificationTask existing.taskId >>= metadata.record = .ok admission) :
    (answer bundle intent same existing admission).Knows E s.db := by
  obtain ⟨found, hget, hrecord⟩ := Checks.bind_eq_ok.1 h
  unfold answer
  split
  · trivial
  · rename_i hcompared
    have hbundle : bundle.Gives E existing.submittedProofBundle := by
      cases same with
      | true => exact hsame rfl
      | false =>
        refine .inl ?_
        by_contra hne
        exact hcompared ⟨rfl, .inl hne⟩
    cases found with
    | none => cases hrecord
    | some task =>
      have htask : admission.task = task := by
        simp only [InvoiceAdmissionMetadata.record] at hrecord
        split at hrecord
        · cases hrecord
        · cases hrecord
          rfl
      obtain ⟨hheld, hid⟩ := holds_of_getTask hget
      have heq := hholds.bundle_eq hs.consistent.sound hheld
      refine ⟨⟨_, hbundle, ?_⟩, ?_⟩
      · rw [htask, hid]
        exact hholds
      · rw [htask, heq]
        exact hbundle

/-- **One step** of a call: what it does to the store, and what the call knows
    then. -/
theorem knows_of_step (hs : CutoffInvariant E s) (hknows : call.Knows E s.db)
    (h : call.step E i s = some (next, s')) : StoreStep E s s' ∧ next.Knows E s'.db := by
  cases call with
  | submit mode bundle =>
    cases h
    exact ⟨.read, knows_of_findExisting trivial⟩
  | preparing mode bundle => exact knows_of_onPreparing h
  | admitting task intent id => exact knows_of_onTransaction hs hknows h
  | comparing bundle intent id existing =>
    exact knows_of_onComparing hknows (Option.some.inj h)
  | rereading bundle =>
    cases h
    exact ⟨.read, knows_of_findExisting trivial⟩
  | readingBack bundle intent inserted =>
    cases h
    exact ⟨.read, knows_of_readBack hs hknows⟩
  | readingAdmission bundle intent same existing =>
    simp only [step] at h
    split at h
    · cases h
      exact ⟨.read, trivial⟩
    · cases h
      exact ⟨.read, hknows⟩
  | readingTask bundle intent same existing metadata =>
    simp only [step] at h
    split at h
    · cases h
      exact ⟨.read, trivial⟩
    · rename_i admission hread
      cases h
      exact ⟨.read, knows_of_answer hs hknows.1 hknows.2 hread⟩
  | returned bundle result => cases h

end SubmitCall

/-- **Rely and guarantee.**  The store stays consistent, calls know what they have
    read, and the rows keep their identities. -/
theorem submit_guarantees (E : Externals) :
    Calls.Guarantees (submitService E) (CutoffInvariant E) (fun s call => call.Knows E s.db)
      TaskStore.Keeps where
  start := by
    intro s call hstart
    cases call with
    | submit => trivial
    | _ => cases hstart
  step := by
    intro s t call next i hs hknows hstep
    obtain ⟨hstore, hnext⟩ := knows_of_step hs hknows hstep
    obtain ⟨ht, hkept⟩ := hstore.keeps hs
    exact ⟨ht, hnext, hkept⟩
  other := fun hs hexec => ⟨cutoffInvariant_exec hs hexec, TaskStore.keeps_exec hs hexec⟩
  stable := fun hk hknows => hknows.kept hk

/-! ## Runs -/

theorem keeps_of_run {s t : Calls.State TaskStore SubmitCall}
    {events : List (Calls.Event SubmitCall SubmitInput (Transactions.Event Transaction))}
    (h : (submitService E).Run s events t) (hs : CutoffInvariant E s.store)
    (hknows : ∀ call ∈ s.calls, call.Knows E s.store.db) : s.store.Keeps t.store := by
  induction h with
  | nil => exact TaskStore.keeps_of_eq rfl
  | @snoc m t events e hrun hstep ih =>
    obtain ⟨hm, hcalls⟩ := (submit_guarantees E).of_run hrun hs hknows
    have hlast : m.store.Keeps t.store := by
      rcases Calls.exec_cases hstep with ⟨call, -, -, rfl⟩ |
        ⟨n, input, call, next, store, -, hn, hcall, rfl⟩ | ⟨o, store, -, hother, rfl⟩
      · exact TaskStore.keeps_of_eq rfl
      · exact ((submit_guarantees E).step hm (hcalls call (List.mem_of_getElem? hn)) hcall).2.2
      · exact ((submit_guarantees E).other hm hother).2
    intro r hr
    obtain ⟨q, hq, hqr⟩ := ih r hr
    obtain ⟨p, hp, hpq⟩ := hlast q hq
    exact ⟨p, hp, hpq.trans hqr⟩

/-- **Submissions are idempotent.**  In every interleaving of submissions with each
    other and with the transactions of the service: the tasks of a handle that are
    ever stored are one task, and it stays; a call that succeeds answers with the
    task of its handle, which was submitted with the bundle of the call if JSONB
    gives that back as it was sent; no call with another bundle succeeds; and a
    submission of the bundle of a stored task is answered with the task at once,
    whether or not its lock is deleted. -/
theorem submissions_idempotent (E : Externals) {s t : Calls.State TaskStore SubmitCall}
    {events later : List (Calls.Event SubmitCall SubmitInput (Transactions.Event Transaction))}
    (h : (submitService E).Run submitInit events s) (h' : (submitService E).Run s later t) :
    (∀ c b, (t.store.db.tasksOf c b).length ≤ 1 ∧
      ∀ r ∈ s.store.db.tasksOf c b, ∃ q, t.store.db.tasksOf c b = [q] ∧
        q.identity = r.identity) ∧
    (∀ bundle task, .returned bundle (.ok task) ∈ t.calls →
      ∃ r, t.store.db.tasksOf bundle.pubkyLockResource.creator bundle.bundleId = [r] ∧
        r.taskId = task.taskId ∧ (bundle.readBack E = bundle →
          task.submittedProofBundle = bundle ∧ r.submittedProofBundle = .v1 bundle)) ∧
    (∀ bundle, bundle.readBack E = bundle →
      ∀ r ∈ t.store.db.tasksOf bundle.pubkyLockResource.creator bundle.bundleId,
      r.submittedProofBundle ≠ .v1 bundle → ∀ task, .returned bundle (.ok task) ∉ t.calls) ∧
    ∀ r ∈ t.store.db.tasks, r.lane = .v1 → ∃ bundle task, r.submittedProofBundle = .v1 bundle ∧
      task.taskId = r.taskId ∧ ∀ mode input, (submitService E).step (.submit mode bundle) input
        t.store = some (.returned bundle (.ok task), t.store) := by
  have hinit : ∀ call ∈ submitInit.calls, call.Knows E submitInit.store.db :=
    (List.forall_mem_nil _)
  obtain ⟨hs, hsknows⟩ := (submit_guarantees E).of_run h cutoffInvariant_init hinit
  obtain ⟨ht, htknows⟩ := (submit_guarantees E).of_run h' hs hsknows
  have hkept := keeps_of_run h' hs hsknows
  have hanswer : ∀ bundle task, .returned bundle (.ok task) ∈ t.calls →
      ∃ r, t.store.db.tasksOf bundle.pubkyLockResource.creator bundle.bundleId = [r] ∧
        r.taskId = task.taskId ∧ (bundle.readBack E = bundle →
          task.submittedProofBundle = bundle ∧ r.submittedProofBundle = .v1 bundle) := by
    intro bundle task hcall
    obtain ⟨⟨b, hb, r, hr⟩, htask⟩ := htknows _ hcall
    have hmem := mem_tasksOf.2 ⟨hr.mem, hr.creator.trans hb.creator_eq,
      hr.bundleId.trans hb.bundleId_eq⟩
    refine ⟨r, tasksOf_eq_singleton ht.unique hmem, hr.taskId, fun hstored => ?_⟩
    exact ⟨htask.eq hstored, hb.eq hstored ▸ hr.submitted⟩
  refine ⟨fun c b => ⟨?_, fun r hr => ?_⟩, hanswer, fun bundle hstored r hr hne task hcall => ?_,
    fun r hr hlane => ?_⟩
  · cases htasks : t.store.db.tasksOf c b with
    | nil => exact Nat.zero_le 1
    | cons q rest =>
      have hq : q ∈ t.store.db.tasksOf c b := htasks ▸ List.mem_cons_self
      rw [← htasks, tasksOf_eq_singleton ht.unique hq]
      exact le_rfl
  · obtain ⟨hr, hc, hb⟩ := mem_tasksOf.1 hr
    obtain ⟨q, hq, hid⟩ := hkept r hr
    have hmem := mem_tasksOf.2 ⟨hq, (creator_of_identity hid).trans hc,
      (bundleId_of_identity hid).trans hb⟩
    exact ⟨q, tasksOf_eq_singleton ht.unique hmem, hid⟩
  · obtain ⟨q, hq, -, hsub⟩ := hanswer bundle task hcall
    rw [hq, List.mem_singleton] at hr
    exact hne (hr ▸ (hsub hstored).2)
  · have hreplay := replays_of_readable ht.consistent.sound ht.unique hr (ht.readable r hr)
    rw [Replays, hlane] at hreplay
    obtain ⟨bundle, task, hsub, hfind, hid⟩ := hreplay
    refine ⟨bundle, task, hsub, hid, fun mode input => ?_⟩
    show some (SubmitCall.onFound bundle _ _ (t.store.db.findExisting bundle), t.store) = _
    rw [hfind]
    rfl

/-! ## Two submissions of one bundle -/

def SubmitCall.success? : SubmitCall → Option (SubmittedProofBundle × VerificationTaskRecord)
  | .returned bundle (.ok task) => some (bundle, task)
  | _ => none

theorem SubmitCall.eq_of_success? {call : SubmitCall} {bundle : SubmittedProofBundle}
    {task : VerificationTaskRecord} (h : call.success? = some (bundle, task)) :
    call = .returned bundle (.ok task) := by
  unfold success? at h
  split at h
  · cases h
    rfl
  · cases h

/-- A bundle for the lock of the run. -/
def racedBundle : SubmittedProofBundle :=
  ⟨1, ⟨"bundle"⟩, .of ⟨"creator"⟩ (LockId.fromHash (.replicate 7)), none, none,
    [⟨"criterion-1", .devStatic, .obj [("code", .str "open"), ("attempt", .int 1)]⟩]⟩

/-- Two submissions find the handle free, and the first one inserts its task; then
    the lock is deleted, and the bundle is submitted once more. -/
def racedSubmissions :
    List (Calls.Event SubmitCall SubmitInput (Transactions.Event Transaction)) :=
  let first : SubmitInput := ⟨1, ⟨⟨1⟩⟩, 0, 0⟩
  let second : SubmitInput := ⟨2, ⟨⟨2⟩⟩, 0, 0⟩
  let job : DeletionJob := ⟨⟨2⟩, ⟨"creator"⟩, LockId.fromHash (.replicate 7),
    staticLock ⟨"creator"⟩, 0, .queued, .withdraw, 0, none, none, none, none, none, none⟩
  [.begin (.submit .verification racedBundle), .begin (.submit .verification racedBundle),
    .step 0 first, .step 1 second] ++
  List.replicate 7 (.step 0 first) ++ List.replicate 6 (.step 1 second) ++
  [.other (.begin 3 (.insertJob job [⟨⟨2⟩, ⟨⟨1⟩⟩, .pending, false, none⟩] 0))] ++
  List.replicate 5 (.other (.check 3)) ++
  [.other (.commit 3), .begin (.submit (.invoicePending 0) racedBundle), .step 2 second]

/-- All three are answered with the task of the first. -/
theorem raced_submissions : let E := Externals.constant (.replicate 7)
    let task := pendingTask racedBundle ⟨⟨1⟩⟩ 0
    ∃ s : Calls.State TaskStore SubmitCall,
      (submitService E).Run submitInit racedSubmissions s ∧ s.store.db.jobs.length = 1 ∧
      (∀ n < 3, ∃ call, s.calls[n]? = some call ∧ call.success? = some (racedBundle, task)) ∧
      ∃ r, s.store.db.tasksOf ⟨"creator"⟩ ⟨"bundle"⟩ = [r] ∧ r.taskId = ⟨⟨1⟩⟩ ∧
        r.submittedProofBundle = .v1 racedBundle := by
  intro E task
  have hrun : (Runs.execList (submitService E).exec submitInit racedSubmissions).any fun s =>
      s.store.db.jobs.length = 1 ∧
        ∀ n < 3, (s.calls[n]?.bind (·.success?)) = some (racedBundle, task) := by
    decide +kernel
  obtain ⟨s, hexec, hcalls⟩ := (Option.any_eq_true _ _).1 hrun
  obtain ⟨hjobs, hcalls⟩ := of_decide_eq_true hcalls
  have hcalls : ∀ n < 3, ∃ call, s.calls[n]? = some call ∧
      call.success? = some (racedBundle, task) :=
    fun n hn => Option.bind_eq_some_iff.1 (hcalls n hn)
  have hs := Runs.run_of_execList _ hexec
  obtain ⟨call, hcall, hsuccess⟩ := hcalls 0 (by decide)
  have hmem := List.mem_of_getElem? hcall
  rw [SubmitCall.eq_of_success? hsuccess] at hmem
  obtain ⟨r, hr, hid, hsub⟩ := (submissions_idempotent E hs (.nil s)).2.1 racedBundle task hmem
  exact ⟨s, hs, hjobs, hcalls, r, hr, hid, (hsub rfl).2⟩

/-- JSONB gives the payload `1e16` back as an integer, and the task is in conflict with
    a replay of its own bundle. -/
example : let E := { Externals.constant (.replicate 7) with
      jsonb := fun v => if v = .real "1e16" then .int (10 ^ 16) else v }
    let bundle := { racedBundle with proofs := [⟨"criterion-1", .devStatic, .real "1e16"⟩] }
    let input : SubmitInput := ⟨1, ⟨⟨1⟩⟩, 0, 0⟩
    let events := .begin (.submit .verification bundle) :: List.replicate 8 (.step 0 input) ++
      [.begin (.submit .verification bundle), .step 1 input]
    (Runs.execList (submitService E).exec submitInit events).any fun s =>
      s.calls.map (·.success?) = [some (bundle, pendingTask bundle ⟨⟨1⟩⟩ 0), none] := by
  decide +kernel

end PubkyLocks
