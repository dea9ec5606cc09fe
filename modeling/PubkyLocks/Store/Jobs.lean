/-
  What a transaction does to one row of `content_lock_deletion_jobs`.
-/
import PubkyLocks.Store.RowSteps

namespace PubkyLocks

open Deletion DeletionJob Database Checks

/-! ## The decoder -/

def DeletionJob.hasActiveLease (j : DeletionJob) : Except ApplicationError Bool :=
  match j.claimedBy.isSome, j.claimToken.isSome, j.claimExpiresAt.isSome with
  | false, false, false => .ok false
  | true, true, true => .ok true
  | _, _, _ => .error (.invalidContentLockDeletionState "deletion lease fields are inconsistent")

def rowToJob (E : Externals) (j : DeletionJob) : Except ApplicationError DeletionJob := do
  let hasActiveLease ← j.hasActiveLease
  j.validateFrozenIdentity E
  j.validateState hasActiveLease
  pure j

/-- The columns of a job that are written once, at the insert. -/
def DeletionJob.identity (j : DeletionJob) :=
  (j.jobId, j.creator, j.lockId, j.frozenContentLock, j.deletionStartedAt)

variable {E : Externals} {db db' : Database} {j k : DeletionJob} {op : Operation}

theorem DeletionJob.jobId_of_identity (h : k.identity = j.identity) : k.jobId = j.jobId :=
  congrArg (·.1) h

theorem rowToJob_isOk_iff : (rowToJob E j).isOk ↔
    ∃ lease, j.hasActiveLease = .ok lease ∧ j.validateFrozenIdentity E = .ok () ∧
      j.validateState lease = .ok () := by
  rw [isOk_iff, rowToJob]
  constructor
  · rintro ⟨a, h⟩
    obtain ⟨lease, hl, h⟩ := bind_eq_ok.1 h
    obtain ⟨_, hf, h⟩ := bind_eq_ok.1 h
    obtain ⟨_, hv, -⟩ := bind_eq_ok.1 h
    exact ⟨lease, hl, hf, hv⟩
  · rintro ⟨lease, hl, hf, hv⟩
    refine ⟨j, bind_eq_ok.2 ⟨lease, hl, ?_⟩⟩
    refine bind_eq_ok.2 ⟨(), hf, bind_eq_ok.2 ⟨(), hv, rfl⟩⟩

theorem validateFrozenIdentity_of_identity (h : k.identity = j.identity) :
    k.validateFrozenIdentity E = j.validateFrozenIdentity E := by
  simp only [identity, Prod.mk.injEq] at h
  obtain ⟨-, hc, hl, hf, -⟩ := h
  simp only [validateFrozenIdentity, hc, hl, hf]

/-! ## Steps of a job -/

inductive JobStep (j : DeletionJob) : Operation → DeletionJob → Prop
  | kept (op : Operation) : JobStep j op j
  | claimed (l : JobLease) (ttl : Duration) (now : Timestamp) : j.jobId = l.jobId →
      j.claimable now → JobStep j (.claimNextJob l ttl now) (j.claim l (now + ttl))
  | retried (l : JobLease) (d : Duration) (now : Timestamp) : j.jobId = l.jobId →
      j.owned l.workerId l.claimToken now →
      JobStep j (.scheduleJobRetry l d now) (j.requeue (some (now + d)))
  | deferred (l : JobLease) (d : Duration) (now : Timestamp) : j.jobId = l.jobId →
      j.owned l.workerId l.claimToken now →
      JobStep j (.deferJob l d now)
        { j.requeue (some (now + d)) with attemptCount := j.attemptCount - 1 }
  | advanced (l : JobLease) (next : ContentLockDeletionPhase) (ok : Bool) (now : Timestamp) :
      j.jobId = l.jobId → j.owned l.workerId l.claimToken now → j.phase.permits next →
      JobStep j (.advancePhase l next ok now) { j.restart with phase := next }
  | finished (l : JobLease) (code : Option ContentLockDeletionFailureCode) (ok : Bool)
      (now : Timestamp) : j.jobId = l.jobId → j.owned l.workerId l.claimToken now →
      JobStep j (.finish l code ok now) (j.close code)
  | withdrawalFailed (code : ContentLockDeletionFailureCode) : ¬ j.state.isTerminal →
      JobStep j (.failGracefulWithdrawal j.jobId code) (j.close (some code))
  | resumed : j.state = .failed → JobStep j (.resumeFailedJob j.creator j.lockId) j.restart
  | resumedByForce (manifest : Option ContentLock) (now : Timestamp) : j.state = .failed →
      JobStep j (.prepareForceDeletion j.creator j.lockId manifest now) j.restart
  | escalated (manifest : Option ContentLock) (now : Timestamp) : ¬ j.state.isTerminal →
      JobStep j (.prepareForceDeletion j.creator j.lockId manifest now)
        { j.restart with forceRequestedAt := some (j.forceRequestedAt.getD now) }

structure JobInserted (E : Externals) (db : Database) (op : Operation) (k : DeletionJob) :
    Prop where
  insert : ∃ job seen t, op = .insertJob job seen t ∧ k = job.stored t
  fresh : ∀ j ∈ db.jobs, j.jobId ≠ k.jobId
  identity : k.validateFrozenIdentity E = .ok ()
  state : k.validateState false = .ok ()

/-- What a transaction does to the table of jobs. -/
inductive JobsEffect (E : Externals) (db : Database) (op : Operation) : List DeletionJob → Prop
  | steps (jobs : List DeletionJob) : List.Forall₂ (fun j k => JobStep j op k) db.jobs jobs →
      JobsEffect E db op jobs
  | inserted (k : DeletionJob) : JobInserted E db op k → JobsEffect E db op (k :: db.jobs)
  | forceCompleted (l : JobLease) (now : Timestamp) (j : DeletionJob) :
      op = .completeForceDeletion l now → db.ownedJob? l now = some j →
      JobsEffect E db op (db.jobs.filter fun k => k.jobId != l.jobId)

theorem JobsEffect.same : JobsEffect E db op db.jobs :=
  .steps _ (List.forall₂_same.2 fun _ _ => .kept op)

variable {f : DeletionJob → DeletionJob} {l : LockId} {now : Timestamp} {c : CreatorPubky}
  {m : Option ContentLock}

theorem jobsEffect_of_id (hs : db.Sound) {id : Uuid}
    (hj : db.job? id = some j) (hstep : JobStep j op (f j)) :
    JobsEffect E db op (updateJob db id f).jobs := by
  obtain ⟨hmem, hid⟩ := job?_eq_some hj
  refine .steps _ (Table.forall₂_updateWhere (fun k hk hp => ?_) fun _ _ _ => .kept op)
  rw [hs.eq_of_jobId hk hmem ((beq_iff_eq.1 hp).trans hid.symm)]
  exact hstep

theorem jobsEffect_of_owned (hs : db.Sound) {l : JobLease} (hj : db.ownedJob? l now = some j)
    (hstep : j.jobId = l.jobId → j.owned l.workerId l.claimToken now → JobStep j op (f j)) :
    JobsEffect E db op (updateJob db l.jobId f).jobs := by
  obtain ⟨hfind, hown⟩ := Option.filter_eq_some_iff.1 hj
  exact jobsEffect_of_id hs hfind (hstep (job?_eq_some hfind).2 hown)

theorem Database.jobFor?_eq_some (h : db.jobFor? c l = some j) :
    j ∈ db.jobs ∧ j.creator = c ∧ j.lockId = l := by
  refine ⟨List.mem_of_find?_eq_some h, ?_⟩
  simpa using List.find?_some h

theorem jobsEffect_of_lock (hs : db.Sound) (hj : db.jobFor? c l = some j)
    (hstep : j.creator = c → j.lockId = l → JobStep j op (f j)) :
    JobsEffect E db op (updateJobFor db c l f).jobs := by
  obtain ⟨hmem, hc, hl⟩ := jobFor?_eq_some hj
  refine .steps _ (Table.forall₂_updateWhere (fun k hk hp => ?_) fun _ _ _ => .kept op)
  simp only [Bool.and_eq_true, beq_iff_eq] at hp
  rw [hs.eq_of_lock hk hmem (hp.1.trans hc.symm) (hp.2.trans hl.symm)]
  exact hstep hc hl

theorem jobsEffect_of_insertJob {job : DeletionJob} {seen : TaskId → VerificationTaskStatus}
    {t : Timestamp} (h : insertJob E db job seen t = some db') :
    JobsEffect E db (.insertJob job seen t) db'.jobs := by
  unfold insertJob at h
  split at h
  · rename_i hc
    simp only [Bool.and_eq_true] at hc
    obtain ⟨⟨⟨⟨⟨hidentity, hstate⟩, -⟩, -⟩, -⟩, hkey⟩ := hc
    obtain ⟨_, hidentity⟩ := isOk_iff.1 hidentity
    obtain ⟨_, hstate⟩ := isOk_iff.1 hstate
    obtain ⟨-, rfl⟩ := updateTasks_eq_some.1 h
    refine .inserted _ ⟨⟨job, seen, t, rfl, rfl⟩, fun j hj => ?_, hidentity, hstate⟩
    have hk := List.all_eq_true.1 hkey j hj
    rw [Bool.and_eq_true, bne_iff_ne] at hk
    exact hk.1
  · cases h

theorem jobFor?_of_forcePreparation {p : ForcePreparation} (h : forcePreparation db c l m = p)
    (hp : p = .resumed ∨ p = .escalated) :
    ∃ j, db.jobFor? c l = some j ∧ (p = .resumed → j.state = .failed) ∧
      (p = .escalated → ¬ j.state.isTerminal) := by
  have hother : ∀ q, q = p → q ≠ .resumed → q ≠ .escalated → False := by
    rintro q rfl hr he
    exact hp.elim hr he
  unfold forcePreparation at h
  split at h
  · exact (hother _ h nofun nofun).elim
  split at h
  · exact (hother _ h nofun nofun).elim
  unfold jobForcePreparation at h
  split at h
  · exact (hother _ h nofun nofun).elim
  rename_i j hj
  refine ⟨j, hj, ?_⟩
  split at h
  · split at h
    · rename_i hfailed
      subst h
      exact ⟨fun _ => hfailed, nofun⟩
    · exact (hother _ h nofun nofun).elim
  · split at h
    · exact (hother _ h nofun nofun).elim
    · rename_i hopen
      subst h
      exact ⟨nofun, fun _ => hopen⟩

theorem jobsEffect_of_prepareForceDeletion (hs : db.Sound)
    (h : prepareForceDeletion db c l m now = some db') :
    JobsEffect E db (.prepareForceDeletion c l m now) db'.jobs := by
  unfold prepareForceDeletion forcePrepared at h
  split at h
  · cases h
  · cases h
    exact .same
  · rename_i hp
    obtain ⟨j, hj, hfailed, -⟩ := jobFor?_of_forcePreparation hp (.inl rfl)
    cases h
    refine jobsEffect_of_lock hs hj ?_
    rintro rfl rfl
    exact .resumedByForce m now (hfailed rfl)
  · rename_i hp
    obtain ⟨j, hj, -, hopen⟩ := jobFor?_of_forcePreparation hp (.inr rfl)
    cases h
    refine jobsEffect_of_lock hs hj ?_
    rintro rfl rfl
    exact .escalated m now (hopen rfl)
  · cases h
    exact .same

/-- **Jobs.**  On sound tables a transaction takes every job one step, inserts a
    job beside them or removes the one whose forced deletion it completes. -/
theorem jobsEffect_of_run (hs : db.Sound) (h : op.run E db = some db') :
    JobsEffect E db op db'.jobs := by
  cases op with
  | insertJob job seen t => exact jobsEffect_of_insertJob h
  | claimNextJob l ttl now =>
    simp only [Operation.run, claimNextJob] at h
    split at h
    · rename_i hc
      obtain ⟨j, hj, hclaim⟩ := (Option.any_eq_true _ _).1 hc
      cases h
      exact jobsEffect_of_id hs hj (.claimed l ttl now (job?_eq_some hj).2 hclaim)
    · cases h
  | scheduleJobRetry l d now =>
    simp only [Operation.run, scheduleJobRetry] at h
    split at h
    · rename_i hc
      obtain ⟨j, hj⟩ := Option.isSome_iff_exists.1 hc
      cases h
      exact jobsEffect_of_owned hs hj fun hid hown => .retried l d now hid hown
    · cases h
  | deferJob l d now =>
    simp only [Operation.run, deferJob] at h
    split at h
    · rename_i hc
      obtain ⟨j, hj⟩ := Option.isSome_iff_exists.1 hc
      cases h
      exact jobsEffect_of_owned hs hj fun hid hown => .deferred l d now hid hown
    · cases h
  | advancePhase l next ok now =>
    simp only [Operation.run, advancePhase] at h
    split at h
    · cases h
    · rename_i j hj
      split at h
      · cases h
      · rename_i hpermits
        simp only [Bool.or_eq_true, Bool.not_eq_true', not_or, Bool.not_eq_false] at hpermits
        split at h
        · cases h
        · split at h
          · cases h
          · cases h
            exact jobsEffect_of_owned hs hj fun hid hown =>
              .advanced l next ok now hid hown hpermits.1
  | finish l code ok now =>
    simp only [Operation.run, finish] at h
    split at h
    · cases h
    · rename_i j hj
      split at h
      · cases h
      · cases h
        exact jobsEffect_of_owned hs hj fun hid hown => .finished l code ok now hid hown
  | failGracefulWithdrawal id code =>
    simp only [Operation.run, failGracefulWithdrawal] at h
    split at h
    · rename_i hc
      obtain ⟨j, hj, hfail⟩ := (Option.any_eq_true _ _).1 hc
      simp only [Bool.and_eq_true, Bool.not_eq_true'] at hfail
      obtain ⟨-, rfl⟩ := job?_eq_some hj
      cases h
      exact jobsEffect_of_id hs hj (.withdrawalFailed code (by simp [hfail.1.1]))
    · cases h
  | resumeFailedJob c l =>
    simp only [Operation.run, resumeFailedJob] at h
    split at h
    · rename_i hc
      rw [Bool.and_eq_true] at hc
      obtain ⟨j, hj, hfailed⟩ := (Option.any_eq_true _ _).1 hc.2
      cases h
      refine jobsEffect_of_lock hs hj ?_
      rintro rfl rfl
      exact .resumed (beq_iff_eq.1 hfailed)
    · cases h
  | prepareForceDeletion c l m now => exact jobsEffect_of_prepareForceDeletion hs h
  | completeForceDeletion l now =>
    simp only [Operation.run, completeForceDeletion] at h
    split at h
    · cases h
    · rename_i j hj
      split at h
      · cases h
      · split at h
        · cases h
        · cases h
          exact .forceCompleted l now j rfl hj
  | _ =>
    rw [(Operation.tables_of_run h).1 rfl]
    exact .same

/-! ## What a step keeps -/

theorem DeletionJob.running_of_owned {worker : String} {token : Uuid}
    (h : j.owned worker token now) : j.state = .running ∧ j.claimToken = some token := by
  simp only [owned, Bool.and_eq_true, beq_iff_eq] at h
  exact ⟨h.1.1.1, h.1.2⟩

theorem identity_of_jobStep (h : JobStep j op k) : k.identity = j.identity := by
  cases h <;> rfl

theorem phase_of_jobStep (h : JobStep j op k) : k.phase = j.phase ∨ j.phase.permits k.phase := by
  cases h with
  | advanced l next ok now _ _ hpermits => exact .inr hpermits
  | _ => exact .inl rfl

theorem force_of_jobStep (h : JobStep j op k) (hj : j.forceRequestedAt.isSome) :
    k.forceRequestedAt = j.forceRequestedAt := by
  cases h with
  | escalated m now _ =>
    obtain ⟨t, ht⟩ := Option.isSome_iff_exists.1 hj
    simp [ht]
  | _ => rfl

theorem failureCode_of_open (h : (rowToJob E j).isOk) (hopen : ¬ j.state.isTerminal) :
    j.failureCode = none := by
  obtain ⟨lease, -, -, hv⟩ := rowToJob_isOk_iff.1 h
  simp only [validateState, refuse_eq_ok, Bool.not_eq_true', Bool.not_eq_false]
    at hv
  cases hstate : j.state with
  | queued =>
    rw [hstate, Bool.and_eq_true] at hv
    exact Option.isNone_iff_eq_none.1 hv.2
  | running =>
    rw [hstate, Bool.and_eq_true] at hv
    exact Option.isNone_iff_eq_none.1 hv.2
  | completed => rw [hstate] at hopen; exact absurd rfl hopen
  | failed => rw [hstate] at hopen; exact absurd rfl hopen

theorem validateState_requeue (t : Option Timestamp) (hf : j.failureCode = none) :
    (j.requeue t).validateState false = .ok () := by
  simp [validateState, requeue, hf, refuse]

/-- **Decoding.**  A job that decodes still does after a step. -/
theorem rowToJob_of_jobStep (h : JobStep j op k) (hj : (rowToJob E j).isOk) :
    (rowToJob E k).isOk := by
  have hidentity : k.validateFrozenIdentity E = .ok () := by
    rw [validateFrozenIdentity_of_identity (identity_of_jobStep h)]
    obtain ⟨-, -, hf, -⟩ := rowToJob_isOk_iff.1 hj
    exact hf
  have hrunning : ∀ {worker token now}, j.owned worker token now → j.failureCode = none := by
    intro worker token now hown
    refine failureCode_of_open hj ?_
    rw [(running_of_owned hown).1]
    decide
  cases h with
  | kept => exact hj
  | claimed l ttl now _ hclaim =>
    have hf := failureCode_of_open hj (not_terminal_of_claimable hclaim)
    refine rowToJob_isOk_iff.2 ⟨true, rfl, hidentity, ?_⟩
    simp [validateState, claim, hf, refuse]
  | retried l d now _ hown =>
    exact rowToJob_isOk_iff.2 ⟨false, rfl, hidentity, validateState_requeue _ (hrunning hown)⟩
  | deferred l d now _ hown =>
    have hv := validateState_requeue (some (now + d)) (hrunning hown)
    exact rowToJob_isOk_iff.2 ⟨false, rfl, hidentity, hv⟩
  | finished l code ok now _ hown =>
    refine rowToJob_isOk_iff.2 ⟨false, rfl, hidentity, ?_⟩
    cases code <;> rfl
  | _ => exact rowToJob_isOk_iff.2 ⟨false, rfl, hidentity, rfl⟩

theorem exists_jobStep {jobs : List DeletionJob} (h : JobsEffect E db op jobs)
    (hk : k ∈ jobs) : (∃ j ∈ db.jobs, JobStep j op k) ∨ JobInserted E db op k := by
  cases h with
  | steps jobs hsteps => exact .inl (Table.exists_of_forall₂ hsteps.flip hk)
  | inserted k' hins =>
    rcases List.mem_cons.1 hk with rfl | hk
    · exact .inr hins
    · exact .inl ⟨k, hk, .kept op⟩
  | forceCompleted l now j hop hown => exact .inl ⟨k, List.mem_of_mem_filter hk, .kept op⟩

theorem claimToken_of_inserted (h : JobInserted E db op k) : k.claimToken = none := by
  obtain ⟨⟨job, seen, t, -, rfl⟩, -⟩ := h
  rfl

theorem rowToJob_of_inserted (h : JobInserted E db op k) : (rowToJob E k).isOk := by
  obtain ⟨⟨job, seen, t, -, rfl⟩, -, hidentity, hstate⟩ := h
  exact rowToJob_isOk_iff.2 ⟨false, rfl, hidentity, hstate⟩

/-! ## Leases -/

/-- The lease and the time with which a worker acts on a claimed job. -/
def Operation.jobLease? : Operation → Option (JobLease × Timestamp)
  | scheduleJobRetry l _ now | deferJob l _ now | advancePhase l _ _ now | finish l _ _ now
  | completeForceDeletion l now => some (l, now)
  | _ => none

def Operation.claimsJob? : Operation → Option Uuid
  | claimNextJob l _ _ => some l.claimToken
  | _ => none

theorem owned_of_jobStep {l : JobLease} (hl : op.jobLease? = some (l, now))
    (h : JobStep j op k) (hne : k ≠ j) : j.jobId = l.jobId ∧ j.owned l.workerId l.claimToken now := by
  cases h with
  | kept => exact absurd rfl hne
  | retried l' d now' hid hown => cases hl; exact ⟨hid, hown⟩
  | deferred l' d now' hid hown => cases hl; exact ⟨hid, hown⟩
  | advanced l' next ok now' hid hown _ => cases hl; exact ⟨hid, hown⟩
  | finished l' code ok now' hid hown => cases hl; exact ⟨hid, hown⟩
  | _ => cases hl

theorem claimToken_of_jobStep (h : JobStep j op k) :
    (k.claimToken = j.claimToken ∧ k.forceRequestedAt = j.forceRequestedAt) ∨
      k.claimToken = none ∨ k.claimToken = op.claimsJob? := by
  cases h with
  | kept => exact .inl ⟨rfl, rfl⟩
  | claimed l ttl now _ _ => exact .inr (.inr rfl)
  | _ => exact .inr (.inl rfl)

theorem owned_of_changed {l : JobLease} (hs : db.Sound)
    (h : op.run E db = some db') (hl : op.jobLease? = some (l, now)) (hj : j ∈ db.jobs)
    (hne : j ∉ db'.jobs) : j.jobId = l.jobId ∧ j.owned l.workerId l.claimToken now := by
  have heff := jobsEffect_of_run hs h
  generalize db'.jobs = jobs at heff hne
  cases heff with
  | steps jobs hsteps =>
    obtain ⟨k, hk, hstep⟩ := Table.exists_of_forall₂ hsteps hj
    exact owned_of_jobStep hl hstep fun heq => hne (heq ▸ hk)
  | inserted k hins => exact absurd (List.mem_cons_of_mem _ hj) hne
  | forceCompleted l' now' k hop hown =>
    subst hop
    cases hl
    have hid : j.jobId = l.jobId := by
      by_contra hid
      exact hne (List.mem_filter.2 ⟨hj, bne_iff_ne.2 hid⟩)
    obtain ⟨hfind, howned⟩ := Option.filter_eq_some_iff.1 hown
    obtain ⟨hmem, hkid⟩ := job?_eq_some hfind
    rw [hs.eq_of_jobId hj hmem (hid.trans hkid.symm)]
    exact ⟨hkid, howned⟩

end PubkyLocks
