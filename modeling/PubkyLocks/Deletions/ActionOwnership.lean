/-
  The ownership of the external actions of a deletion
  (`infrastructure/postgres/content_lock_deletion_action_ownership.rs`) and the
  executor of the graceful phases
  (`application/use_cases/execute_content_lock_deletion_phase.rs`).

  A session takes the advisory lock of a job, checks in a second statement that
  the action it asks for is still the one to take, and then acts: the executor
  of a graceful phase ends with `advance_phase`.  Between these steps every
  transaction of the service may commit, a force deletion of the lock too.
-/
import PubkyLocks.Store.Jobs

namespace PubkyLocks

/-! ## Actions -/

/-- What a session asks for: `try_acquire` with its claim,
    `try_acquire_synchronous_force` or `try_acquire_graceful_withdrawal`. -/
inductive ActionRequest where
  | claimed (l : JobLease) (expectedPhase : ContentLockDeletionPhase) (force : Bool)
  | synchronousForce (jobId : Uuid)
  | gracefulWithdrawal (jobId : Uuid)
deriving DecidableEq

namespace ActionRequest

def jobId : ActionRequest → Uuid
  | claimed l _ _ => l.jobId
  | synchronousForce id | gracefulWithdrawal id => id

/-- The check of a request after its lock. -/
def live (db : Database) (now : Timestamp) : ActionRequest → Bool
  | claimed l expectedPhase force =>
    (db.ownedJob? l now).any fun j =>
      j.phase == expectedPhase && j.forceRequestedAt.isSome == force
  | synchronousForce id =>
    (db.job? id).any fun j => j.state.isTerminal && db.receipts.any fun f =>
      f.creator == j.creator && f.lockId == j.lockId && f.completedAt.isNone
  | gracefulWithdrawal id =>
    (db.job? id).any fun j =>
      !j.state.isTerminal && j.phase == .withdraw && j.forceRequestedAt.isNone

end ActionRequest

/-- The phase `execute_guarded_with_evidence` advances to when the actions of the
    claimed phase are done; it defers the last one. -/
def executorNext : ContentLockDeletionPhase → Option ContentLockDeletionPhase
  | .withdraw => some .startPaymentDrain
  | .startPaymentDrain => some .drainPayments
  | .drainPayments => some .drainExistingCredentials
  | .drainExistingCredentials => some .issueFinalCredentials
  | .issueFinalCredentials => some .drainFinalReads
  | .drainFinalReads => some .deleteContent
  | .deleteContent => some .deleteTombstone
  | .deleteTombstone => some .purgeOperationalState
  | .purgeOperationalState => none

/-- A session that has the lock of an action; `acquired` once its check has
    passed. -/
structure ActionSession where
  session : ℕ
  request : ActionRequest
  acquired : Bool
deriving DecidableEq

/-- The tables, the job claim tokens issued so far and the sessions. -/
structure ActionWorld where
  db : Database
  issued : List Uuid
  sessions : List ActionSession
deriving DecidableEq

/-- A transaction of the service, or a step of a session: it tries for the lock,
    makes its check, advances the phase as the graceful executor does, or gives
    the lock back, on `release` or with its connection. -/
inductive ActionEvent where
  | transaction (op : Operation)
  | tryLock (session : ℕ) (request : ActionRequest)
  | check (session : ℕ) (now : Timestamp)
  | advance (session : ℕ) (obligationsMet : Bool) (now : Timestamp)
  | release (session : ℕ)

namespace ActionWorld

def init : ActionWorld := ⟨.empty, [], []⟩

def session? (s : ActionWorld) (n : ℕ) : Option ActionSession :=
  s.sessions.find? (·.session == n)

/-- The lease and the phase with which a session acts as graceful executor. -/
def gracefulClaim? (s : ActionWorld) (n : ℕ) : Option (JobLease × ContentLockDeletionPhase) :=
  (s.session? n).bind fun a =>
    match a.request with
    | .claimed l phase false => if a.acquired then some (l, phase) else none
    | _ => none

/-- A transaction; a claim of a job draws a token that has not been issued. -/
def transaction (E : Externals) (s : ActionWorld) (op : Operation) : Option ActionWorld :=
  if op.claimsJob?.all (· ∉ s.issued) then
    (op.run E s.db).map fun db => { s with db, issued := op.claimsJob?.toList ++ s.issued }
  else none

/-- One step; `actionLockKey` is the key of the advisory lock of a job. -/
def step (E : Externals) (actionLockKey : Uuid → ℤ) (s : ActionWorld) :
    ActionEvent → Option ActionWorld
  | .transaction op => s.transaction E op
  | .tryLock n q =>
    if s.sessions.all fun a =>
        a.session != n && actionLockKey a.request.jobId != actionLockKey q.jobId then
      some { s with sessions := ⟨n, q, false⟩ :: s.sessions }
    else none
  | .check n now =>
    ((s.session? n).filter (!·.acquired)).map fun a =>
      if a.request.live s.db now then
        { s with sessions := Table.updateWhere (· == a) ({ · with acquired := true }) s.sessions }
      else { s with sessions := s.sessions.filter (· != a) }
  | .advance n obligationsMet now =>
    (s.gracefulClaim? n).bind fun (l, phase) =>
      (executorNext phase).bind fun next =>
        s.transaction E (.advancePhase l next obligationsMet now)
  | .release n => some { s with sessions := s.sessions.filter (·.session != n) }

/-! ## The invariant -/

/-- The session acts gracefully on a job only while no force deletion of it is
    requested. -/
def Graceful (s : ActionWorld) (a : ActionSession) : Prop :=
  ∀ l phase, a.request = .claimed l phase false → a.acquired →
    l.claimToken ∈ s.issued ∧
      ∀ j ∈ s.db.jobs, j.jobId = l.jobId → j.claimToken = some l.claimToken →
        j.forceRequestedAt = none

structure Inv (E : Externals) (s : ActionWorld) : Prop where
  sound : s.db.Sound
  decodes : ∀ j ∈ s.db.jobs, (rowToJob E j).isOk
  issued : ∀ j ∈ s.db.jobs, ∀ t, j.claimToken = some t → t ∈ s.issued
  graceful : ∀ a ∈ s.sessions, s.Graceful a

variable {E : Externals} {key : Uuid → ℤ} {s s' : ActionWorld} {op : Operation}
  {j : DeletionJob}

theorem transaction_cases (h : s.transaction E op = some s') :
    (∀ t, op.claimsJob? = some t → t ∉ s.issued) ∧ op.run E s.db = some s'.db ∧
      s'.issued = op.claimsJob?.toList ++ s.issued ∧ s'.sessions = s.sessions := by
  unfold transaction at h
  split at h
  · rename_i hfresh
    obtain ⟨db, hdb, rfl⟩ := Option.map_eq_some_iff.1 h
    exact ⟨fun t ht => by simpa [ht] using hfresh, hdb, rfl, rfl⟩
  · cases h

theorem inv_of_transaction (hi : s.Inv E) (h : s.transaction E op = some s') : s'.Inv E := by
  obtain ⟨hfresh, hrun, hissued, hsessions⟩ := transaction_cases h
  have hjobs := jobsEffect_of_run hi.sound hrun
  refine ⟨sound_of_effect hi.sound (effect_of_run hi.sound hrun), fun k hk => ?_, fun k hk t ht => ?_,
    fun a ha l phase hreq hacq => ?_⟩
  · rcases exists_jobStep hjobs hk with ⟨j, hj, hstep⟩ | hins
    · exact rowToJob_of_jobStep hstep (hi.decodes j hj)
    · exact rowToJob_of_inserted hins
  · rw [hissued, List.mem_append, Option.mem_toList]
    rcases exists_jobStep hjobs hk with ⟨j, hj, hstep⟩ | hins
    · rcases claimToken_of_jobStep hstep with ⟨hkept, -⟩ | hnone | hclaim
      · exact .inr (hi.issued j hj t (hkept ▸ ht))
      · rw [hnone] at ht
        cases ht
      · exact .inl (hclaim ▸ ht)
    · rw [claimToken_of_inserted hins] at ht
      cases ht
  · rw [hsessions] at ha
    obtain ⟨hold, hforce⟩ := hi.graceful a ha l phase hreq hacq
    refine ⟨by rw [hissued]; exact List.mem_append_right _ hold, fun k hk hid ht => ?_⟩
    rcases exists_jobStep hjobs hk with ⟨j, hj, hstep⟩ | hins
    · rcases claimToken_of_jobStep hstep with ⟨hkept, hkeptForce⟩ | hnone | hclaim
      · rw [hkeptForce]
        have hjid := DeletionJob.jobId_of_identity (identity_of_jobStep hstep)
        exact hforce j hj (hjid.symm.trans hid) (hkept ▸ ht)
      · rw [hnone] at ht
        cases ht
      · exact absurd hold (hfresh _ (hclaim ▸ ht))
    · rw [claimToken_of_inserted hins] at ht
      cases ht

theorem graceful_of_live {l : JobLease} {phase : ContentLockDeletionPhase} {now : Timestamp}
    (hi : s.Inv E) (h : (ActionRequest.claimed l phase false).live s.db now) :
    l.claimToken ∈ s.issued ∧ ∀ j ∈ s.db.jobs, j.jobId = l.jobId → j.forceRequestedAt = none := by
  obtain ⟨j, hown, hj⟩ := (Option.any_eq_true _ _).1 h
  obtain ⟨hfind, howned⟩ := Option.filter_eq_some_iff.1 hown
  obtain ⟨hmem, hid⟩ := Database.job?_eq_some hfind
  refine ⟨hi.issued j hmem _ (DeletionJob.running_of_owned howned).2, fun k hk hkid => ?_⟩
  rw [hi.sound.eq_of_jobId hk hmem (hkid.trans hid.symm)]
  rw [Bool.and_eq_true] at hj
  simpa using hj.2

theorem inv_of_step {e : ActionEvent} (hi : s.Inv E) (h : s.step E key e = some s') : s'.Inv E := by
  -- a step of a session other than its advance leaves the tables as they are
  have hsub : ∀ sessions : List ActionSession, (∀ a ∈ sessions, s.Graceful a) →
      Inv E { s with sessions } := fun _ hg => ⟨hi.sound, hi.decodes, hi.issued, hg⟩
  cases e with
  | transaction op => exact inv_of_transaction hi h
  | tryLock n q =>
    simp only [step] at h
    split at h
    · cases h
      refine hsub _ (List.forall_mem_cons.2 ⟨?_, hi.graceful⟩)
      intro l phase _ hacq
      cases hacq
    · cases h
  | check n now =>
    obtain ⟨a, -, rfl⟩ := Option.map_eq_some_iff.1 h
    split
    · rename_i hlive
      refine hsub _ (Table.forall_mem_updateWhere hi.graceful ?_ fun _ _ hg _ => hg)
      intro b hb _ hba l phase hreq _
      rw [beq_iff_eq] at hba
      subst hba
      have hreq : b.request = .claimed l phase false := hreq
      rw [hreq] at hlive
      obtain ⟨hold, hforce⟩ := graceful_of_live hi hlive
      exact ⟨hold, fun j hj hid _ => hforce j hj hid⟩
    · exact hsub _ fun b hb => hi.graceful b (List.mem_of_mem_filter hb)
  | advance n ok now =>
    obtain ⟨⟨l, phase⟩, -, h⟩ := Option.bind_eq_some_iff.1 h
    obtain ⟨next, -, h⟩ := Option.bind_eq_some_iff.1 h
    exact inv_of_transaction hi h
  | release n =>
    cases h
    exact hsub _ fun b hb => hi.graceful b (List.mem_of_mem_filter hb)

theorem inv_of_run {events : List ActionEvent}
    (hrun : Runs.Run (Runs.ofExec (step E key)) init events s) : s.Inv E :=
  hrun.invariant (I := Inv E)
    ⟨Database.sound_empty, List.forall_mem_nil _,
      List.forall_mem_nil _, List.forall_mem_nil _⟩
    fun _ _ _ hi hstep => inv_of_step hi hstep

theorem unforced_of_advance {n : ℕ} {ok : Bool} {now : Timestamp} {l : JobLease}
    {phase : ContentLockDeletionPhase} (hi : s.Inv E) (hl : s.gracefulClaim? n = some (l, phase))
    (h : s.step E key (.advance n ok now) = some s') (hj : j ∈ s.db.jobs)
    (hid : j.jobId = l.jobId) : j.forceRequestedAt = none := by
  have hclaim := hl
  obtain ⟨a, ha, hreq⟩ := Option.bind_eq_some_iff.1 hl
  simp only [step, hclaim, Option.bind_some] at h
  obtain ⟨next, -, h⟩ := Option.bind_eq_some_iff.1 h
  obtain ⟨-, hrun, -, -⟩ := transaction_cases h
  have htoken : j.claimToken = some l.claimToken := by
    simp only [Operation.run, Deletion.advancePhase] at hrun
    split at hrun
    · cases hrun
    · rename_i k hown
      obtain ⟨hfind, howned⟩ := Option.filter_eq_some_iff.1 hown
      obtain ⟨hmem, hkid⟩ := Database.job?_eq_some hfind
      rw [hi.sound.eq_of_jobId hj hmem (hid.trans hkid.symm)]
      exact (DeletionJob.running_of_owned howned).2
  split at hreq
  · rename_i l' phase' hrequest
    split at hreq
    · rename_i hacq
      cases hreq
      have hmem : a ∈ s.sessions := List.mem_of_find?_eq_some ha
      exact (hi.graceful a hmem l phase hrequest hacq).2 j hj hid htoken
    · cases hreq
  · cases hreq

end ActionWorld

/-- **Deletion jobs.**  In every state the service reaches, every job passes the
    checks of its decoder.  A transaction leaves the identity of a job as it was,
    moves its phase to the successor at most and keeps a force request; under a
    lease it only changes the job held under it; and an executor that owns the
    action of a graceful phase advances no job whose force deletion is
    requested. -/
theorem deletion_jobs (E : Externals) (actionLockKey : Uuid → ℤ) (events : List ActionEvent)
    (s : ActionWorld)
    (hrun : Runs.Run (Runs.ofExec (ActionWorld.step E actionLockKey)) .init events s) :
    (∀ j ∈ s.db.jobs, (rowToJob E j).isOk) ∧
    (∀ (op : Operation) db', op.run E s.db = some db' →
      (∀ k ∈ db'.jobs,
        (∃ j ∈ s.db.jobs, k.identity = j.identity ∧
          (k.phase = j.phase ∨ j.phase.permits k.phase) ∧
          (j.forceRequestedAt.isSome → k.forceRequestedAt = j.forceRequestedAt)) ∨
        (∀ j ∈ s.db.jobs, j.jobId ≠ k.jobId) ∧
          ∃ job seen t, op = .insertJob job seen t ∧ k = job.stored t) ∧
      (∀ l now, op.jobLease? = some (l, now) → ∀ j ∈ s.db.jobs, j ∉ db'.jobs →
        j.jobId = l.jobId ∧ j.owned l.workerId l.claimToken now)) ∧
    (∀ n l phase, s.gracefulClaim? n = some (l, phase) →
      ∀ ok now s', s.step E actionLockKey (.advance n ok now) = some s' →
        ∀ j ∈ s.db.jobs, j.jobId = l.jobId → j.forceRequestedAt = none) := by
  have hi := ActionWorld.inv_of_run hrun
  refine ⟨hi.decodes, fun op db' hop => ⟨fun k hk => ?_, ?_⟩, ?_⟩
  · rcases exists_jobStep (jobsEffect_of_run hi.sound hop) hk with
      ⟨j, hj, hstep⟩ | hins
    · exact .inl ⟨j, hj, identity_of_jobStep hstep, phase_of_jobStep hstep,
        force_of_jobStep hstep⟩
    · exact .inr ⟨hins.fresh, hins.insert⟩
  · intro l now hl j hj hne
    exact owned_of_changed hi.sound hop hl hj hne
  · intro n l phase hl ok now s' hstep j hj hid
    exact ActionWorld.unforced_of_advance hi hl hstep hj hid

/-- The graceful deletion of a lock, as it is inserted. -/
def staticDeletion : DeletionJob :=
  ⟨⟨2⟩, ⟨"creator"⟩, LockId.fromHash (.replicate 7), staticLock ⟨"creator"⟩, 0, .queued, .withdraw,
    0, none, none, none, none, none, none⟩

/-- A worker claims the deletion and owns its action. -/
def withdrawing : List ActionEvent :=
  let l : JobLease := ⟨⟨2⟩, "worker", ⟨3⟩⟩
  [.transaction (.insertJob staticDeletion (fun _ => .pending) 0),
    .transaction (.claimNextJob l (Duration.seconds 60) 0),
    .tryLock 1 (.claimed l .withdraw false), .check 1 5]

theorem withdrawal_advances : let E := Externals.constant (.replicate 7)
    let key : Uuid → ℤ := fun id => id.bits
    ∃ s s', Runs.execList (ActionWorld.step E key) .init withdrawing = some s ∧
      s.step E key (.advance 1 true 6) = some s' ∧ (∀ j ∈ s.db.jobs, (rowToJob E j).isOk) ∧
      (∃ k ∈ s'.db.jobs, k.phase = .startPaymentDrain ∧ ∃ j ∈ s.db.jobs, k.identity = j.identity ∧
        (k.phase = j.phase ∨ j.phase.permits k.phase)) ∧
      (∀ j ∈ s.db.jobs, j ∉ s'.db.jobs → j.jobId = ⟨2⟩ ∧ j.owned "worker" ⟨3⟩ 6) ∧
      ∀ j ∈ s.db.jobs, j.jobId = ⟨2⟩ → j.forceRequestedAt = none := by
  intro E key
  have h : (Runs.execList (ActionWorld.step E key) .init withdrawing).any fun s =>
      s.gracefulClaim? 1 == some (⟨⟨2⟩, "worker", ⟨3⟩⟩, .withdraw) &&
        (s.step E key (.advance 1 true 6)).any fun s' =>
          s'.db.jobs.any fun k => k.phase == .startPaymentDrain := by
    decide +kernel
  obtain ⟨s, hs, h⟩ := (Option.any_eq_true _ _).1 h
  rw [Bool.and_eq_true, beq_iff_eq] at h
  obtain ⟨s', hs', hphase⟩ := (Option.any_eq_true _ _).1 h.2
  obtain ⟨k, hk, hphase⟩ := List.any_eq_true.1 hphase
  obtain ⟨hdecodes, hstep, hgraceful⟩ :=
    deletion_jobs E key withdrawing s (Runs.run_of_execList _ hs)
  have hadvance := hs'
  simp only [ActionWorld.step, h.1, Option.bind_some, executorNext] at hadvance
  obtain ⟨-, hrun, -, -⟩ := ActionWorld.transaction_cases hadvance
  obtain ⟨hjobs, hlease⟩ := hstep _ _ hrun
  refine ⟨s, s', hs, hs', hdecodes, ⟨k, hk, beq_iff_eq.1 hphase, ?_⟩, hlease _ 6 rfl,
    hgraceful 1 _ _ h.1 true 6 s' hs'⟩
  rcases hjobs k hk with ⟨j, hj, hid, hpermits, -⟩ | ⟨-, _, _, _, hop, -⟩
  · exact ⟨j, hj, hid, hpermits⟩
  · cases hop

end PubkyLocks
