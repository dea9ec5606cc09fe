/-
  Nothing is destroyed while access is owed.
-/
import PubkyLocks.Drains.FinalCredentials

namespace PubkyLocks

open DeletionJob DrainStore

/-! ## Phases -/

def ContentLockDeletionPhase.destroys : ContentLockDeletionPhase → Bool
  | .deleteContent | .deleteTombstone | .purgeOperationalState => true
  | _ => false

/-- The phases after the issuance of final credentials. -/
def ContentLockDeletionPhase.pastIssuance : ContentLockDeletionPhase → Bool
  | .drainFinalReads => true
  | phase => phase.destroys

/-- A job that destroys, is forced or has ended. -/
def DeletionJob.accessClosed (j : DeletionJob) : Bool :=
  j.phase.destroys || j.forceRequestedAt.isSome || j.state.isTerminal

variable {p q : ContentLockDeletionPhase} {j k : DeletionJob} {o : Operation}

theorem destroys_of_permits (h : p.permits q) (hp : p.destroys) : q.destroys := by
  revert h hp
  cases p <;> cases q <;> decide

theorem pastIssuance_of_permits (h : p.permits q) (hq : q.pastIssuance) :
    p.pastIssuance ∨ (p = .issueFinalCredentials ∧ q = .drainFinalReads) := by
  revert h hq
  cases p <;> cases q <;> decide

theorem destroys_of_jobStep (h : JobStep j o k) (hj : j.phase.destroys) : k.phase.destroys := by
  rcases phase_of_jobStep h with he | hp
  · rw [he]
    exact hj
  · exact destroys_of_permits hp hj

theorem accessClosed_of_jobStep (h : JobStep j o k) (hj : j.accessClosed) :
    k.accessClosed ∨ (j.state = .failed ∧ ¬ j.phase.destroys ∧ j.forceRequestedAt = none ∧
      (o = .resumeFailedJob j.creator j.lockId ∨
        ∃ m now, o = .prepareForceDeletion j.creator j.lockId m now)) := by
  by_cases hphase : j.phase.destroys
  · left
    simp [accessClosed, destroys_of_jobStep h hphase]
  by_cases hforce : j.forceRequestedAt.isSome
  · left
    simp [accessClosed, force_of_jobStep h hforce, hforce]
  have hterminal : j.state.isTerminal := by simpa [accessClosed, hphase, hforce] using hj
  rw [Bool.not_eq_true, Option.isSome_eq_false_iff, Option.isNone_iff_eq_none] at hforce
  cases h with
  | kept => exact .inl hj
  | claimed l ttl now _ hc =>
    simp only [claimable, Bool.or_eq_true, Bool.and_eq_true, beq_iff_eq] at hc
    rcases hc with ⟨hs, -⟩ | ⟨hs, -⟩ <;> rw [hs] at hterminal <;> cases hterminal
  | retried l d now _ hown | deferred l d now _ hown | advanced l next ok now _ hown _ =>
    rw [(running_of_owned hown).1] at hterminal
    cases hterminal
  | finished l code ok now _ hown =>
    rw [(running_of_owned hown).1] at hterminal
    cases hterminal
  | withdrawalFailed code hopen => exact absurd hterminal hopen
  | resumed hfailed => exact .inr ⟨hfailed, hphase, hforce, .inl rfl⟩
  | resumedByForce m now hfailed => exact .inr ⟨hfailed, hphase, hforce, .inr ⟨m, now, rfl⟩⟩
  | escalated m now hopen => exact absurd hterminal hopen

/-! ## Eligible obligations -/

namespace DrainStore

variable {E : Externals} {deriveKey : AccessCredential → LookupKey} {s s' : DrainStore}
  {op : DrainOperation} {drawn : List Uuid}

/-- Past the issuance phase every eligible obligation has its credential. -/
def Settled (s : DrainStore) : Prop :=
  ∀ j ∈ s.db.jobs, j.phase.pastIssuance → ∀ o ∈ s.obligations, o.deletionJobId = j.jobId →
    o.finalCredentialEligibleAt.isSome → o.finalCredentialIssuedAt.isSome

variable {l : JobLease} {now : Timestamp} {db : Database} {c : DrainCredential} {key : LookupKey}

theorem ownedJob?_of_owned (hs : s.db.Sound) (hj : j ∈ s.db.jobs) (hid : j.jobId = l.jobId)
    (hown : j.owned l.workerId l.claimToken now) :
    s.db.ownedJob? l now = some j := by
  refine Option.filter_eq_some_iff.2 ⟨?_, hown⟩
  cases hfind : s.db.job? l.jobId with
  | none => exact absurd (beq_iff_eq.2 hid) (List.find?_eq_none.1 hfind j hj)
  | some k =>
    obtain ⟨hk, hkid⟩ := Database.job?_eq_some hfind
    rw [hs.eq_of_jobId hk hj (hkid.trans hid.symm)]

theorem settled_of_gate {k : DeletionJob} (hs : s.db.Sound)
    (hj : j ∈ s.db.jobs) (hgate : s.Gate o) (hstep : JobStep j o k)
    (hj' : j.phase = .issueFinalCredentials) (hk : k.phase = .drainFinalReads) :
    s.unissuedEligible j.jobId = false := by
  cases hstep with
  | advanced l next ok now hid hown _ =>
    have hready := hgate l next ok now rfl j (ownedJob?_of_owned hs hj hid hown)
    obtain rfl : next = .drainFinalReads := hk
    rw [hj', hid.symm] at hready
    simp only [checkAccessObligationsForPhase] at hready
    by_contra hn
    rw [Bool.not_eq_false] at hn
    rw [if_pos hn] at hready
    split at hready <;> cases hready
  | _ =>
    have hne : j.phase = .drainFinalReads := hk
    rw [hj'] at hne
    cases hne

theorem Settled.service (h : s.Settled) {reads : List DrainRead}
    (hs : s.db.Sound) (hsteps : s.db.Steps o db) (hgate : s.Gate o) :
    Settled { s with db, drainReads := reads } := by
  intro k hk hphase ob hob hid he
  obtain ⟨j, hj, hstep, hidentity⟩ := hsteps.job_before hk
  have hjid := jobId_of_identity hidentity
  rw [hjid] at hid
  by_cases hpast : j.phase.pastIssuance
  · exact h j hj hpast ob hob hid he
  · rcases phase_of_jobStep hstep with hsame | hp
    · rw [hsame] at hphase
      exact absurd hphase hpast
    · rcases pastIssuance_of_permits hp hphase with hpast' | ⟨hissue, hdrain⟩
      · exact absurd hpast' hpast
      · have hnone := settled_of_gate hs hj hgate hstep hissue hdrain
        have hob := List.any_eq_false.1 hnone ob hob
        by_contra hn
        rw [Bool.not_eq_true, Option.isSome_eq_false_iff] at hn
        refine hob ?_
        simp only [hid, he, hn, beq_self_eq_true, Bool.and_self]

theorem drains_of_drainComplete {db' : Database} {id : TaskId} {k : Uuid}
    (h : (Operation.statement (.drainComplete l id k now)).run E db = some db') :
    db.drains l now := by
  simp only [Operation.run, TaskStatement.run] at h
  split at h
  · rename_i hc
    rw [Bool.and_eq_true] at hc
    obtain ⟨r, -, hg⟩ := List.any_eq_true.1 hc.2
    simp only [TaskStatement.update, Drain.persistCompleted, Bool.and_eq_true] at hg
    exact hg.1.1.1.1.1.2
  · cases h

theorem phase_of_drains (hs : db.Sound)
    (h : db.drains l now) (hj : j ∈ db.jobs) (hid : j.jobId = l.jobId) :
    j.phase = .drainPayments := by
  obtain ⟨k, hk, hp⟩ := (Option.any_eq_true _ _).1 h
  obtain ⟨hmem, hkid⟩ := Database.job?_eq_some hk
  rw [hs.eq_of_jobId hj hmem (hid.trans hkid.symm)]
  exact (Database.running_of_drainClaim hp).2.1

theorem settled_empty : DrainStore.empty.Settled :=
  List.forall_mem_nil _

/-- **Obligations.**  Every transaction keeps the obligations settled. -/
theorem settled_of_effect (hc : s.Consistent E drawn) (h : s.Settled)
    (heff : DrainEffect E deriveKey s op s') : s'.Settled := by
  cases heff with
  | service op o db reads _ hdb hp hgate _ _ =>
    exact h.service hc.sound (steps_of_plain hc.sound hdb hp) hgate
  | drained l id k now db hdb =>
    intro j hj hphase o ho hid he
    have hsteps := steps_of_run hc.sound hdb (by intro _ _ _ hn; cases hn)
      (by intro _ _ hn; cases hn)
    obtain ⟨j₀, hj₀, hstep, hidentity⟩ := hsteps.job_before hj
    have hjid := jobId_of_identity hidentity
    obtain rfl : j = j₀ := by
      cases hstep
      rfl
    obtain ⟨o₀, ho₀, ⟨hg, rfl⟩ | ⟨-, rfl⟩⟩ := Table.mem_updateWhere.1 ho
    · -- the obligation is one of a job that drains payments
      rw [Bool.and_eq_true, beq_iff_eq] at hg
      have hpay := phase_of_drains hc.sound (drains_of_drainComplete hdb) hj₀
        (hid.symm.trans hg.1)
      rw [hpay] at hphase
      cases hphase
    · exact h j hj₀ hphase o ho₀ hid he
  | forceCompleted l now db hdb =>
    intro j hj hphase o ho
    rw [(tables_of_completeForceDeletion hdb).1] at hj
    exact h j (List.mem_of_mem_filter hj) hphase o (List.mem_of_mem_filter ho)
  | inserted frozen seen active credentialId t job db s₁ hnew hdb he =>
    obtain ⟨hjobs, -, hfresh, -⟩ := tables_of_insertJob hdb
    rw [(enroll_eq_some.1 he).2]
    intro j hj hphase o ho hid
    rw [hjobs] at hj
    rcases List.mem_cons.1 hj with rfl | hj
    · have hwithdraw : (job.stored t).phase = .withdraw := (new_eq_ok hnew).2.2.2
      rw [hwithdraw] at hphase
      cases hphase
    · rcases List.mem_append.1 ho with ho | ho
      · obtain ⟨r, -, rfl⟩ := List.mem_map.1 ho
        exact absurd hid.symm (hfresh j hj)
      · exact h j hj hphase o ho hid
  | issued op job bundleId candidate credentialId windows now s' _ _ _ _ _ _ hins =>
    obtain ⟨row, hrow, -⟩ := insertFinalCredential_eq_ok hins
    rw [hrow.after]
    intro j hj hphase o ho hid he
    obtain ⟨o₀, ho₀, ⟨-, rfl⟩ | ⟨-, rfl⟩⟩ := Table.mem_updateWhere.1 ho
    · rfl
    · exact h j hj hphase o ho₀ hid he
  | _ => exact h

/-! ## Closed jobs -/

section
variable (hcred : s.credentialStore.drainCredential? key = some c) (hclosed : ∀ j ∈ s.db.jobs,
  j.jobId = c.deletionJobId → j.accessClosed) (path : String)
include hcred hclosed path

theorem no_authorization
    (d : Duration) (now : Timestamp) (token : Uuid) (a : DeletionReadAuthorization) :
    (s.prepareDeletionRead key path d now token).1 ≠ .ok (some a) := by
  intro ha
  cases hp : s.credentialStore.prepareDeletionRead key path d now token with
  | mk result store =>
  have hresult : result = .ok (some a) := by
    rw [← ha]
    unfold prepareDeletionRead
    rw [hp]
  rcases CredentialStore.prepareDeletionRead_cases hp with ⟨-, hn⟩ | ⟨c', job, a', -, hauth, -⟩
  · exact hn a hresult
  · obtain rfl : c = c' := Option.some.inj (hcred.symm.trans hauth.drained)
    obtain ⟨hmem, hid, hopen, hforce, -⟩ := activeDrainJob?_eq_some hauth.active
    have hclosed := hclosed job.job hmem hid
    simp only [accessClosed, hforce, hopen, Option.isSome_none, Bool.or_false] at hclosed
    have hphase := hauth.phase
    revert hclosed hphase
    cases job.job.phase <;> cases c.kind <;> decide

theorem no_consumption
    (token : Uuid) (now : Timestamp) : (s.consumeDeletionRead key path token now).1 = false := by
  refine List.any_eq_false.2 fun r _ hr => ?_
  simp only [consumable, hcred, Option.any_some] at hr
  obtain ⟨j, hj, hr⟩ := (Option.any_eq_true _ _).1 hr
  obtain ⟨hmem, hid, hopen, hforce, -⟩ := activeDrainJob?_eq_some hj
  have hclosed := hclosed j.job hmem hid
  simp only [accessClosed, hforce, hopen, Option.isSome_none, Bool.or_false] at hclosed
  simp only [Bool.and_eq_true, Bool.or_eq_true, beq_iff_eq] at hr
  rcases hr.1.1.1.1.1.2 with hphase | hphase <;> rw [hphase] at hclosed <;> cases hclosed

end

end DrainStore

namespace DrainWorld

variable {E : Externals} {deriveKey : AccessCredential → LookupKey} {w w' : DrainWorld}
  {op : DrainOperation} {ops : List DrainOperation}

/-- The transaction resumes the job after a failure in a phase that does not
    destroy. -/
def Reopens (w : DrainWorld) (op : DrainOperation) (jobId : Uuid) : Prop :=
  ∃ j ∈ w.store.db.jobs, j.jobId = jobId ∧ j.state = .failed ∧ ¬ j.phase.destroys ∧
    (op = .service (.resumeFailedJob j.creator j.lockId) ∨
      ∃ m now, op = .service (.prepareForceDeletion j.creator j.lockId m now) ∧
        Deletion.forcePreparation w.store.db j.creator j.lockId m = .resumed)

theorem run_of_service {s s' : DrainStore} {o : Operation}
    (h : (DrainOperation.service o).run E deriveKey s = some s') : o.run E s.db = some s'.db := by
  obtain ⟨db, hdb, hafter⟩ := Option.bind_eq_some_iff.1 h
  rw [hdb, db_of_after hafter]

theorem resumed_or_kept {db db' : Database} (hs : db.Sound) {j k : DeletionJob}
    {m : Option ContentLock} {now : Timestamp}
    (h : Deletion.prepareForceDeletion db j.creator j.lockId m now = some db') (hj : j ∈ db.jobs)
    (hfailed : j.state = .failed) (hk : k ∈ db'.jobs) (hid : k.jobId = j.jobId) :
    k = j ∨ Deletion.forcePreparation db j.creator j.lockId m = .resumed := by
  unfold Deletion.prepareForceDeletion Deletion.forcePrepared at h
  split at h
  · cases h
  · cases h
    exact .inl (hs.eq_of_jobId hk hj hid)
  · rename_i hp
    exact .inr hp
  · rename_i hp
    obtain ⟨j', hj', -, hopen⟩ := jobFor?_of_forcePreparation hp (.inr rfl)
    obtain ⟨hmem, hc, hl⟩ := Database.jobFor?_eq_some hj'
    rw [hs.eq_of_lock hmem hj hc hl, hfailed] at hopen
    exact absurd rfl (hopen rfl)
  · cases h
    exact .inl (hs.eq_of_jobId hk hj hid)

def Closed (w : DrainWorld) (jobId : Uuid) : Prop :=
  jobId ∈ w.drawn ∧ ∀ j ∈ w.store.db.jobs, j.jobId = jobId → j.accessClosed

theorem closed_of_step (hw : w.Inv E) (h : Step E deriveKey w op w') {jobId : Uuid}
    (hopen : ¬ w.Reopens op jobId) (hc : w.Closed jobId) : w'.Closed jobId := by
  refine ⟨?_, fun k hk hid => ?_⟩
  · rw [h.drawn]
    exact List.mem_append_right _ hc.1
  · rcases jobStep_before hw h hk with hold | hfresh | ⟨j, hj, o, hserves, -, hstep⟩
    · exact hc.2 k hold hid
    · exact absurd (hid ▸ hc.1) hfresh
    · have hjid := jobId_of_identity (identity_of_jobStep hstep)
      rw [hjid] at hid
      rcases accessClosed_of_jobStep hstep (hc.2 j hj hid) with hk' | ⟨hfailed, hphase, -, hop⟩
      · exact hk'
      · rcases hop with rfl | ⟨m, now, rfl⟩ <;> cases hserves
        · exact absurd ⟨j, hj, hid, hfailed, hphase, .inl rfl⟩ hopen
        · rcases resumed_or_kept hw.consistent.sound (run_of_service h.run) hj hfailed hk hjid with
            rfl | hresumed
          · exact hc.2 k hj hid
          · exact absurd ⟨j, hj, hid, hfailed, hphase, .inr ⟨m, now, rfl, hresumed⟩⟩ hopen

theorem closed_of_run {jobId : Uuid} (hw : w.Inv E)
    (h : Runs.Run (Runs.restrict (system E deriveKey) fun w op => ¬ w.Reopens op jobId) w ops w')
    (hc : w.Closed jobId) : w'.Closed jobId :=
  h.invariant_under (I := Inv E) (P := (Closed · jobId)) hw
    (fun _ _ _ hinv hs => inv_of_exec hinv hs.1) hc
    fun _ _ _ hinv hc hs => closed_of_step hinv (step_of_exec hs.1) hs.2 hc

end DrainWorld

/-! ## The start of the destruction -/

namespace DrainStore

variable {E : Externals} {deriveKey : AccessCredential → LookupKey} {s s' : DrainStore}

theorem tables_of_advance {l : JobLease} {next : ContentLockDeletionPhase} {completed : Bool}
    {now : Timestamp} (h : DrainEffect E deriveKey s (.advancePhase l next completed now) s') :
    s'.credentials = s.credentials ∧ s'.drainCredentials = s.drainCredentials ∧
      s'.obligations = s.obligations ∧
      ∃ g, List.Forall₂ (ReadStep g) s.drainReads s'.drainReads := by
  cases h with
  | reads op reads hreads => exact ⟨rfl, rfl, rfl, _, hreads⟩
  | service op o db reads _ _ _ _ _ hreads => exact ⟨rfl, rfl, rfl, _, hreads⟩
  | issued op job bundleId candidate credentialId windows now s' _ hdraws => cases hdraws

theorem unconsumedRead_clearClaims (jobId : Uuid) (p : DrainRead → Bool) (id : Uuid)
    (now : Timestamp) : (s.clearClaims jobId p).unconsumedRead id now = s.unconsumedRead id now := by
  simp only [unconsumedRead, clearClaims, Table.updateWhere, List.any_map]
  congr 1
  funext d
  congr 2
  funext r
  simp only [Function.comp_apply]
  split <;> rfl

/-- What a job that starts to destroy has found: no ordinary credential runs, and
    no read of a running final credential is open. -/
theorem drained_of_gate {j k : DeletionJob} {o : Operation} {op : DrainOperation}
    (hs : s.db.Sound) (hj : j ∈ s.db.jobs) (hgate : s.Gate o) (hserves : op.Serves o)
    (hstep : JobStep j o k) (hj' : j.phase = .drainFinalReads) (hk : k.phase = .deleteContent) :
    ∃ l completed now, op = .advancePhase l .deleteContent completed now ∧
      s.ordinaryActive j.jobId now = false ∧ s.unconsumedRead j.jobId now = false := by
  cases hstep with
  | advanced l next ok now hid hown _ =>
    have hready := hgate l next ok now rfl j (ownedJob?_of_owned hs hj hid hown)
    obtain rfl : next = .deleteContent := hk
    rw [hj', ← hid] at hready
    simp only [checkAccessObligationsForPhase, hasLiveAccessObligations,
      unconsumedRead_clearClaims] at hready
    cases hserves with
    | service _ hne => exact (hne l _ ok now rfl).elim
    | advancePhase _ _ completed =>
      refine ⟨l, completed, now, rfl, ?_⟩
      split at hready
      · cases hready
      · rename_i hlive
        simp only [Bool.or_eq_true, not_or, Bool.not_eq_true] at hlive
        exact ⟨hlive.1.1, hlive.1.2⟩
  | _ =>
    have hne : j.phase = .deleteContent := hk
    rw [hj'] at hne
    cases hne

end DrainStore

namespace DrainWorld

variable {E : Externals} {deriveKey : AccessCredential → LookupKey} {w w' : DrainWorld}
  {op : DrainOperation}

theorem settled_of_drainRun {ops : List DrainOperation} {clock : Timestamp}
    (h : Runs.Run (system E deriveKey) (.init clock) ops w) : w.Inv E ∧ w.store.Settled :=
  h.invariant (I := fun w => w.Inv E ∧ w.store.Settled)
    ⟨inv_init clock, settled_empty⟩ fun _ _ _ hinv hexec =>
      ⟨inv_of_exec hinv.1 hexec, settled_of_effect hinv.1.consistent hinv.2
        (step_of_exec hexec).effect⟩

theorem gate_of_deleteContent (hw : w.Inv E) (h : Step E deriveKey w op w') {j k : DeletionJob}
    (hj : j ∈ w.store.db.jobs) (hk : k ∈ w'.store.db.jobs) (hid : k.jobId = j.jobId)
    (hj' : j.phase = .drainFinalReads) (hk' : k.phase = .deleteContent) :
    ∃ l completed now, op = .advancePhase l .deleteContent completed now ∧
      w.store.ordinaryActive j.jobId now = false ∧ w.store.unconsumedRead j.jobId now = false := by
  rcases jobStep_before hw h hk with hold | hfresh | ⟨j₀, hj₀, o, hserves, hgate, hstep⟩
  · rw [hw.consistent.sound.eq_of_jobId hold hj hid, hj'] at hk'
    cases hk'
  · exact absurd (hid ▸ hw.consistent.jobs j hj) hfresh
  · have hid₀ := jobId_of_identity (identity_of_jobStep hstep)
    obtain rfl := hw.consistent.sound.eq_of_jobId hj₀ hj (hid₀.symm.trans hid)
    exact drained_of_gate hw.consistent.sound hj hgate hserves hstep hj' hk'

theorem terminal_of_finish {l : JobLease} {code : Option ContentLockDeletionFailureCode}
    {completed : Bool} {now : Timestamp} {s s' : DrainStore}
    (h : s.finish l code completed now = some s') {k : DeletionJob} (hk : k ∈ s'.db.jobs)
    (hid : k.jobId = l.jobId) : k.state.isTerminal := by
  obtain ⟨db, hdb, rfl⟩ := Option.map_eq_some_iff.1 h
  unfold Deletion.finish at hdb
  split at hdb
  · cases hdb
  · split at hdb
    · cases hdb
    · cases hdb
      obtain ⟨j, -, ⟨-, rfl⟩ | ⟨hne, rfl⟩⟩ := Table.mem_updateWhere.1 hk
      · cases code <;> rfl
      · simp [hid] at hne

theorem forced_of_escalation {c : CreatorPubky} {l : LockId} {m : Option ContentLock}
    {now : Timestamp} {s s' : DrainStore}
    (h : (DrainOperation.service (.prepareForceDeletion c l m now)).run E deriveKey s = some s')
    (hp : Deletion.forcePreparation s.db c l m = .escalated) {k : DeletionJob}
    (hk : k ∈ s'.db.jobs) (hc : k.creator = c) (hl : k.lockId = l) :
    k.forceRequestedAt.isSome := by
  have hdb := run_of_service h
  simp only [Operation.run, Deletion.prepareForceDeletion, hp, Deletion.forcePrepared,
    Option.some.injEq] at hdb
  rw [← hdb] at hk
  obtain ⟨j, -, ⟨-, rfl⟩ | ⟨hne, rfl⟩⟩ := Table.mem_updateWhere.1 hk
  · rfl
  · simp [hc, hl] at hne

/-- **Nothing is destroyed while access is owed.**  In every run:
    * at the commit that moves a job from its final reads to the deletion of
      content, every ordinary credential it enrolled has expired, every eligible
      obligation has its final credential, and every guarded path of every
      running final credential is consumed;
    * a job that destroys, that has been forced, or that has failed or completed,
      authorizes and consumes no read, until it is resumed after a failure in an
      earlier phase. -/
theorem access_drained (E : Externals) (deriveKey : AccessCredential → LookupKey)
    (clock : Timestamp) (ops : List DrainOperation) (w : DrainWorld)
    (h : Runs.Run (system E deriveKey) (.init clock) ops w) :
    (∀ op w' j k, w.exec E deriveKey op = some w' → j ∈ w.store.db.jobs →
      k ∈ w'.store.db.jobs → k.jobId = j.jobId → j.phase = .drainFinalReads →
      k.phase = .deleteContent →
      (∀ c ∈ w'.store.credentials, c.deletionJobId = some k.jobId →
        ∃ d ∈ w'.store.drainCredentials, d.lookupKey = c.lookupKey ∧ d.deletionJobId = k.jobId ∧
          (d.kind = .ordinary → c.record.expiresAt ≤ w'.clock)) ∧
      (∀ d ∈ w'.store.drainCredentials, d.deletionJobId = k.jobId → d.kind = .ordinary →
        d.expiresAt ≤ w'.clock) ∧
      (∀ o ∈ w'.store.obligations, o.deletionJobId = k.jobId →
        o.finalCredentialEligibleAt.isSome → o.finalCredentialIssuedAt.isSome ∧
          ∃ d ∈ w'.store.drainCredentials, d.deletionJobId = k.jobId ∧
            d.bundleId = o.bundleId ∧ d.kind = .final) ∧
      (∀ d ∈ w'.store.drainCredentials, d.deletionJobId = k.jobId → d.kind = .final →
        w'.clock < d.expiresAt → ∀ path ∈ publicationGuardedPaths k.frozenContentLock,
          ∃ r ∈ w'.store.drainReads, r.credentialId = d.credentialId ∧ r.guardedPath = path ∧
            r.consumedAt.isSome)) ∧
    (∀ op w', w.exec E deriveKey op = some w' → ∀ k ∈ w'.store.db.jobs,
      (∀ l code completed now, op = .finish l code completed now → k.jobId = l.jobId →
        k.state.isTerminal) ∧
      (∀ c l m now, op = .service (.prepareForceDeletion c l m now) →
        Deletion.forcePreparation w.store.db c l m = .escalated → k.creator = c → k.lockId = l →
        k.forceRequestedAt.isSome)) ∧
    (∀ j ∈ w.store.db.jobs, j.accessClosed → ∀ ops' w',
      Runs.Run (Runs.restrict (system E deriveKey) fun w op => ¬ w.Reopens op j.jobId) w ops' w' →
      ∀ key d, w'.store.credentialStore.drainCredential? key = some d →
        d.deletionJobId = j.jobId →
        (∀ path claimDuration now token a,
          (w'.store.prepareDeletionRead key path claimDuration now token).1 ≠ .ok (some a)) ∧
        ∀ path token now, (w'.store.consumeDeletionRead key path token now).1 = false) := by
  obtain ⟨hw, hsettled⟩ := settled_of_drainRun h
  refine ⟨?_, ?_, ?_⟩
  · intro op w' j k hexec hj hk hid hj' hk'
    have hs := step_of_exec hexec
    have hw' : w'.Inv E := inv_of_exec hw hexec
    obtain ⟨l, completed, now, rfl, hordinary, hreads⟩ :=
      gate_of_deleteContent hw hs hj hk hid hj' hk'
    obtain ⟨hcreds, hdrains, hobligations, g, hsteps⟩ := tables_of_advance hs.effect
    have hclock : w'.clock = now := hs.now
    have hexpired : ∀ d ∈ w'.store.drainCredentials, d.deletionJobId = k.jobId →
        d.kind = .ordinary → d.expiresAt ≤ w'.clock := by
      intro d hd hdj hkind
      rw [hdrains] at hd
      have hd := List.any_eq_false.1 hordinary d hd
      rw [hclock]
      by_contra hlt
      refine hd ?_
      simp [hdj, hid, hkind, not_le.1 hlt]
    refine ⟨fun c hc hcj => ?_, hexpired, fun o ho hoj he => ?_, ?_⟩
    · obtain ⟨d, hd, hkey⟩ := hw'.consistent.linked.enrolled c hc k.jobId hcj
      obtain ⟨hrecord, hjob⟩ := hw'.consistent.linked.eq_of_key hc hd hkey
      have hdj : d.deletionJobId = k.jobId := Option.some.inj (hjob.symm.trans hcj)
      refine ⟨d, hd, hkey, hdj, fun hkind => ?_⟩
      rw [hrecord]
      exact hexpired d hd hdj hkind
    · have hissued : o.finalCredentialIssuedAt.isSome := by
        rw [hobligations] at ho
        exact hsettled j hj (by rw [hj']; rfl) o ho (hoj.trans hid) he
      obtain ⟨d, hd, hdj, hb, hkind⟩ := hw'.consistent.owed.issued o ho hissued
      exact ⟨hissued, d, hd, hdj.trans hoj, hb, hkind⟩
    · intro d hd hdj hkind hlt path hpath
      obtain ⟨r, hr, hrid, hrpath⟩ := (hw'.consistent.finals.final d hd hkind).reads k hk hdj.symm
        path hpath
      obtain ⟨r₀, hr₀, hstep⟩ := Table.exists_of_forall₂ hsteps.flip hr
      refine ⟨r, hr, hrid, hrpath, hstep.consumedAt ?_⟩
      rw [hdrains] at hd
      have hd := List.any_eq_false.1 hreads d hd
      by_contra hopen
      refine hd ?_
      rw [hclock] at hlt
      simp only [hdj, hid, hkind, hlt, beq_self_eq_true, decide_true, Bool.true_and]
      refine List.any_eq_true.2 ⟨r₀, hr₀, ?_⟩
      rw [← hstep.credentialId, hrid]
      simpa using hopen
  · intro op w' hexec k hk
    have hs := step_of_exec hexec
    refine ⟨?_, ?_⟩
    · rintro l code completed now rfl hid
      exact terminal_of_finish hs.run hk hid
    · rintro c l m now rfl hp hc hl
      exact forced_of_escalation hs.run hp hk hc hl
  · intro j hj hclosed ops' w' hrun key d hd hdj
    have hc : w.Closed j.jobId := by
      refine ⟨hw.consistent.jobs j hj, fun k hk hid => ?_⟩
      rw [hw.consistent.sound.eq_of_jobId hk hj hid]
      exact hclosed
    have hc' := (closed_of_run hw hrun hc).2
    rw [← hdj] at hc'
    exact ⟨no_authorization hd hc', no_consumption hd hc'⟩

/-- The reader finishes the read, and the job drains its final reads. -/
def drainedOperations : List DrainOperation :=
  finalReadOperations ++
  [.consumeDeletionRead ⟨6⟩ "/priv/app.locks/content/post.json" ⟨8⟩ 8,
    .advancePhase ⟨⟨2⟩, "worker", ⟨3⟩⟩ .drainFinalReads true 9,
    .service (.claimNextJob ⟨⟨2⟩, "worker", ⟨3⟩⟩ 60 9)]

theorem content_deleted_after_reads : let E := Externals.constant (.replicate 7)
    let deriveKey : AccessCredential → LookupKey := fun c => ⟨c.text.length⟩
    ∃ w w' k, Runs.execList (DrainWorld.exec E deriveKey) (.init 0) drainedOperations = some w ∧
      w.exec E deriveKey (.advancePhase ⟨⟨2⟩, "worker", ⟨3⟩⟩ .deleteContent true 9) = some w' ∧
      k ∈ w'.store.db.jobs ∧ k.phase = .deleteContent ∧
      ∃ d ∈ w'.store.drainCredentials, d.kind = .final ∧ w'.clock < d.expiresAt ∧
        ∀ path ∈ publicationGuardedPaths k.frozenContentLock, ∃ r ∈ w'.store.drainReads,
          r.credentialId = d.credentialId ∧ r.guardedPath = path ∧ r.consumedAt.isSome := by
  intro E deriveKey
  have h : (Runs.execList (DrainWorld.exec E deriveKey) (.init 0) drainedOperations).any fun w =>
      (w.exec E deriveKey (.advancePhase ⟨⟨2⟩, "worker", ⟨3⟩⟩ .deleteContent true 9)).any fun w' =>
        w.store.db.jobs.any fun j => w'.store.db.jobs.any fun k =>
          w'.store.drainCredentials.any fun d => k.jobId == j.jobId &&
            j.phase == .drainFinalReads && k.phase == .deleteContent &&
            d.deletionJobId == k.jobId && d.kind == .final && w'.clock < d.expiresAt := by
    decide +kernel
  obtain ⟨w, hw, h⟩ := (Option.any_eq_true _ _).1 h
  obtain ⟨w', hw', h⟩ := (Option.any_eq_true _ _).1 h
  obtain ⟨j, hj, h⟩ := List.any_eq_true.1 h
  obtain ⟨k, hk, h⟩ := List.any_eq_true.1 h
  obtain ⟨d, hd, h⟩ := List.any_eq_true.1 h
  simp only [Bool.and_eq_true, beq_iff_eq, decide_eq_true_eq] at h
  obtain ⟨⟨⟨⟨⟨hid, hj'⟩, hk'⟩, hdj⟩, hkind⟩, hlt⟩ := h
  obtain ⟨hstart, -⟩ := access_drained E deriveKey 0 drainedOperations w
    (Runs.run_of_execList _ hw)
  obtain ⟨-, -, -, hreads⟩ := hstart _ w' j k hw' hj hk hid hj' hk'
  exact ⟨w, w', k, hw, hw', hk, hk', d, hd, hkind, hlt, hreads d hd hdj hkind hlt⟩

end DrainWorld

end PubkyLocks
