/-
  A final credential that is advertised can be obtained.

  `final_credential_available` is one query; `issue_or_replay_final_credential`
  and its variant for the worker are transactions that decide for themselves.
-/
import PubkyLocks.Core.Resources
import PubkyLocks.Drains.FinalCredentials

namespace PubkyLocks

open DrainStore Database TaskRow DeletionJob

/-- The conditions on the job that both queries state. -/
def DrainStore.issuesFrom (s : DrainStore) (creator : CreatorPubky) (bundleId : BundleId)
    (j : DeletionJob) : Bool :=
  j.creator == creator && !j.state.isTerminal && j.forceRequestedAt.isNone &&
    (j.phase == .issueFinalCredentials || j.phase == .drainFinalReads) &&
    s.hasEligibleSnapshot j.jobId bundleId

/-- `final_credential_available`; a window that is not set compares as false. -/
def DrainStore.finalCredentialAvailable (s : DrainStore) (creator : CreatorPubky)
    (bundleId : BundleId) (now : Timestamp) : Bool :=
  s.db.jobs.any fun j => s.issuesFrom creator bundleId j &&
    (s.windows? j.jobId).any fun w => now < w.readDeadline &&
      ((s.finalCredential? j.jobId creator bundleId).isSome ||
        j.phase == .issueFinalCredentials && now < w.credentialIssuanceDeadline)

/-- A job is requested with a lock whose resource set is valid: the request
    checks it before `insert_job`. -/
def DrainOperation.requested (E : Externals) : DrainOperation → Bool
  | insertJob _ frozen _ _ _ _ => (frozen.validateResourceSet E).isOk
  | _ => true

/-! ## One job for a bundle -/

/-- The job has a task of its lock with the bundle. -/
def Database.Traces (db : Database) (jobId : Uuid) (bundleId : BundleId) : Prop :=
  ∃ j ∈ db.jobs, j.jobId = jobId ∧ ∃ r ∈ db.tasks, r.bundleId = bundleId ∧
    r.creator = j.creator ∧ r.resource.lockId = j.lockId

/-- A handle has one task, a snapshot row is of a task of its job's lock, and
    the frozen locks are valid. -/
structure DrainStore.Traced (E : Externals) (s : DrainStore) : Prop where
  handles : (s.db.tasks.map fun r => (r.creator, r.bundleId)).Nodup
  tasks : ∀ o ∈ s.obligations, s.db.Traces o.deletionJobId o.bundleId
  valid : ∀ j ∈ s.db.jobs, j.frozenContentLock.validateResourceSet E = .ok ()

variable {E : Externals} {deriveKey : AccessCredential → LookupKey} {s s' : DrainStore}
  {db db' : Database} {o : Operation} {op : DrainOperation} {drawn : List Uuid}
  {j k : DeletionJob} {creator : CreatorPubky} {bundleId : BundleId} {jobId : Uuid}

theorem handles_of_effect (h : Effect db o db')
    (hs : (db.tasks.map fun r => (r.creator, r.bundleId)).Nodup) :
    (db'.tasks.map fun r => (r.creator, r.bundleId)).Nodup := by
  rcases rows_of_effect h with hrows | ⟨a, q, -, hadm, htasks⟩
  · rw [Table.map_eq_of_map_eq (fun r q he => ?_) (map_identity_of_rows hrows)]
    · exact hs
    · rw [TaskRow.creator_of_identity he, bundleId_of_identity he]
  · rw [htasks]
    refine List.nodup_cons.2 ⟨fun hmem => ?_, hs⟩
    obtain ⟨r, hr, he⟩ := List.mem_map.1 hmem
    exact (hadm.fresh r hr).2 (Prod.mk.inj he)

theorem Database.Traces.of_effect (h : db.Traces jobId bundleId) (heff : Effect db o db')
    (hjob : ∀ j ∈ db.jobs, j.jobId = jobId → ∃ k ∈ db'.jobs, k.identity = j.identity) :
    db'.Traces jobId bundleId := by
  obtain ⟨j, hj, rfl, r, hr, rfl, hc, hl⟩ := h
  obtain ⟨k, hk, hkj⟩ := hjob j hj rfl
  obtain ⟨q, hq, hqr⟩ := exists_identity_of_effect heff hr
  refine ⟨k, hk, jobId_of_identity hkj, q, hq, bundleId_of_identity hqr, ?_, ?_⟩
  · rw [TaskRow.creator_of_identity hqr, hc, DeletionJob.creator_of_identity hkj]
  · rw [resource_of_identity hqr, hl]
    exact (congrArg (·.2.2.1) hkj).symm

theorem DrainStore.Traced.steps (h : s.Traced E) (heff : Effect s.db o s'.db)
    (hs : s.db.Steps o s'.db) (hrows : ∀ p ∈ s'.obligations, ∃ q ∈ s.obligations,
      q.deletionJobId = p.deletionJobId ∧ q.bundleId = p.bundleId) : s'.Traced E where
  handles := handles_of_effect heff h.handles
  tasks := by
    intro p hp
    obtain ⟨q, hq, hjob, hbundle⟩ := hrows p hp
    rw [← hjob, ← hbundle]
    refine (h.tasks q hq).of_effect heff fun j hj _ => ?_
    obtain ⟨k, hk, -, hid⟩ := hs.job_after hj
    exact ⟨k, hk, hid⟩
  valid := by
    intro k hk
    obtain ⟨j, hj, -, hkj⟩ := hs.job_before hk
    rw [frozen_of_identity hkj]
    exact h.valid j hj

/-- **One transaction** keeps the snapshot rows traced to their tasks. -/
theorem traced_of_effect (hc : s.Consistent E drawn) (h : s.Traced E)
    (heff : DrainEffect E deriveKey s op s') (hop : op.requested E) : s'.Traced E := by
  cases heff with
  | service op o db reads _ hdb hp _ _ _ =>
    exact h.steps (effect_of_run hc.sound hdb) (steps_of_plain hc.sound hdb hp)
      fun p hp => ⟨p, hp, rfl, rfl⟩
  | drained l id k now db hdb =>
    refine h.steps (effect_of_run hc.sound hdb)
      (steps_of_run hc.sound hdb (by rintro _ _ _ ⟨⟩) (by rintro _ _ ⟨⟩)) fun p hp => ?_
    obtain ⟨q, hq, ⟨-, rfl⟩ | ⟨-, rfl⟩⟩ := Table.mem_updateWhere.1 hp
    · exact ⟨q, hq, rfl, rfl⟩
    · exact ⟨p, hq, rfl, rfl⟩
  | forceCompleted l now db hdb =>
    have heff := effect_of_run hc.sound hdb
    obtain ⟨hjobs, -⟩ := tables_of_completeForceDeletion hdb
    refine ⟨handles_of_effect heff h.handles, fun p hp => ?_, fun k hk => ?_⟩
    · obtain ⟨hp, hne⟩ := List.mem_filter.1 hp
      refine (h.tasks p hp).of_effect heff fun j hj hid => ⟨j, ?_, rfl⟩
      rw [hjobs]
      exact List.mem_filter.2 ⟨hj, hid ▸ hne⟩
    · exact h.valid k (List.mem_of_mem_filter (hjobs ▸ hk))
  | inserted frozen seen active credentialId t job db s₁ hnew hdb he =>
    have heff := effect_of_run hc.sound hdb
    obtain ⟨hjobs, -⟩ := tables_of_insertJob hdb
    obtain ⟨-, rfl⟩ := enroll_eq_some.1 he
    refine ⟨handles_of_effect heff h.handles, fun p hp => ?_, fun k hk => ?_⟩
    · rcases List.mem_append.1 hp with hp | hp
      · obtain ⟨r, hr, rfl⟩ := List.mem_map.1 hp
        obtain ⟨hr, hof⟩ := List.mem_filter.1 hr
        obtain ⟨q, hq, hqr⟩ := exists_identity_of_effect heff hr
        obtain ⟨hcreator, hlock⟩ := ofLock_iff.1 hof
        refine ⟨job.stored t, hjobs ▸ List.mem_cons_self, rfl, q, hq, bundleId_of_identity hqr, ?_, ?_⟩
        · exact (TaskRow.creator_of_identity hqr).trans hcreator
        · rw [resource_of_identity hqr, hlock]
          rfl
      · refine (h.tasks p hp).of_effect heff fun j hj _ => ⟨j, ?_, rfl⟩
        rw [hjobs]
        exact List.mem_cons_of_mem _ hj
    · rcases List.mem_cons.1 (hjobs ▸ hk) with rfl | hk
      · obtain ⟨_, hvalid⟩ := Checks.isOk_iff.1 hop
        rw [← (new_eq_ok hnew).2.2.1] at hvalid
        exact hvalid
      · exact h.valid k hk
  | issued op job bundleId candidate credentialId windows now s' _ _ _ _ _ _ hins =>
    obtain ⟨row, hrow, -⟩ := insertFinalCredential_eq_ok hins
    rw [hrow.after]
    refine ⟨h.handles, fun p hp => ?_, h.valid⟩
    obtain ⟨q, hq, ⟨-, rfl⟩ | ⟨-, rfl⟩⟩ := Table.mem_updateWhere.1 hp
    · exact h.tasks q hq
    · exact h.tasks p hq
  | _ => exact ⟨h.handles, h.tasks, h.valid⟩

/-! ## The job and its credential -/

variable {job : DeletionJob} {windows : FinalAccessWindows} {now expiresAt : Timestamp}
  {candidate : AccessCredential} {credentialId : Uuid} {may : Bool}

namespace DrainStore

theorem Traced.of_eligible (h : s.Traced E) (he : s.hasEligibleSnapshot jobId bundleId) :
    s.db.Traces jobId bundleId := by
  obtain ⟨o, ho, he⟩ := List.any_eq_true.1 he
  simp only [Bool.and_eq_true, beq_iff_eq] at he
  rw [← he.1.1.1, ← he.1.1.2]
  exact h.tasks o ho

theorem Traced.job_unique (hc : s.Consistent E drawn) (h : s.Traced E) (hj : j ∈ s.db.jobs)
    (hk : k ∈ s.db.jobs) (hcreator : j.creator = k.creator)
    (hej : s.hasEligibleSnapshot j.jobId bundleId) (hek : s.hasEligibleSnapshot k.jobId bundleId) :
    j = k := by
  obtain ⟨j', hj', hid, r, hr, hrb, hrc, hrl⟩ := h.of_eligible hej
  obtain ⟨k', hk', hid', q, hq, hqb, hqc, hql⟩ := h.of_eligible hek
  obtain rfl := hc.sound.eq_of_jobId hj' hj hid
  obtain rfl := hc.sound.eq_of_jobId hk' hk hid'
  have hrq : r = q := by
    refine List.inj_on_of_nodup_map h.handles hr hq ?_
    simp only [hrc, hqc, hrb, hqb, hcreator]
  exact hc.sound.eq_of_lock hj' hk' hcreator (by rw [← hrl, ← hql, hrq])

theorem eligible_of_issuesFrom (h : s.issuesFrom creator bundleId j) :
    j.creator = creator ∧ s.hasEligibleSnapshot j.jobId bundleId := by
  simp only [issuesFrom, Bool.and_eq_true, beq_iff_eq] at h
  exact ⟨h.1.1.1.1, h.2⟩

theorem issueJob?_of_issuesFrom (hc : s.Consistent E drawn) (ht : s.Traced E)
    (hj : j ∈ s.db.jobs) (h : s.issuesFrom creator bundleId j) :
    s.issueJob? creator bundleId = some j := by
  cases hfind : s.issueJob? creator bundleId with
  | none => exact absurd h (List.find?_eq_none.1 hfind j hj)
  | some k =>
    obtain ⟨hcj, hej⟩ := eligible_of_issuesFrom h
    obtain ⟨hck, hek⟩ := eligible_of_issuesFrom (j := k) (List.find?_some hfind)
    rw [ht.job_unique hc hj (List.mem_of_find?_eq_some hfind) (hcj.trans hck.symm) hej hek]

theorem available_iff : s.finalCredentialAvailable creator bundleId now ↔
    ∃ j ∈ s.db.jobs, s.issuesFrom creator bundleId j ∧ ∃ w, s.windows? j.jobId = some w ∧
      now < w.readDeadline ∧ ((s.finalCredential? j.jobId creator bundleId).isSome ∨
        j.phase = .issueFinalCredentials ∧ now < w.credentialIssuanceDeadline) := by
  simp only [finalCredentialAvailable, List.any_eq_true, Bool.and_eq_true, Option.any_eq_true,
    Bool.or_eq_true, decide_eq_true_eq, beq_iff_eq]

theorem issueOrReplay_eq (hj : s.issueJob? creator bundleId = some job)
    (hw : s.windows? job.jobId = some windows) (hopen : now < windows.readDeadline) :
    s.issueOrReplayFinalCredential E deriveKey creator bundleId candidate credentialId now =
      s.issueFor E deriveKey job creator bundleId candidate credentialId windows.readDeadline now
        (job.phase = .issueFinalCredentials && now < windows.credentialIssuanceDeadline) := by
  unfold issueOrReplayFinalCredential
  rw [hj]
  simp only [hw]
  exact if_neg (not_le.2 hopen)

theorem issueFor_replay {d : DrainCredentialRow} {credential : AccessCredential}
    (he : s.hasEligibleSnapshot job.jobId bundleId)
    (hd : s.finalCredential? job.jobId creator bundleId = some d)
    (hb : d.encryptedBearer = some credential) :
    s.issueFor E deriveKey job creator bundleId candidate credentialId expiresAt now may =
      .ok (some ⟨credential, expiresAt⟩, s) := by
  unfold issueFor
  rw [he, hd, Option.bind_some, hb]
  rfl

theorem issueFor_insert (he : s.hasEligibleSnapshot job.jobId bundleId)
    (hnone : s.finalCredential? job.jobId creator bundleId = none)
    (hins : s.insertFinalCredential E deriveKey job creator bundleId candidate credentialId
      expiresAt now = .ok s') :
    s.issueFor E deriveKey job creator bundleId candidate credentialId expiresAt now true =
      .ok (some ⟨candidate, expiresAt⟩, s') := by
  unfold issueFor
  rw [he, hnone, hins]
  rfl

theorem Consistent.bearer (hc : s.Consistent E drawn) {d : DrainCredentialRow}
    (hd : s.finalCredential? jobId creator bundleId = some d) :
    ∃ credential, d.encryptedBearer = some credential := by
  have hfound := List.find?_some hd
  rw [Bool.and_eq_true, beq_iff_eq] at hfound
  exact Option.isSome_iff_exists.1
    (hc.finals.final d (List.mem_of_find?_eq_some hd) hfound.2).bearer

theorem insertFinalCredential_ok (hc : s.Consistent E drawn)
    (hvalid : job.frozenContentLock.validateResourceSet E = .ok ())
    (hkey : ∀ c ∈ s.credentials, c.lookupKey ≠ deriveKey candidate) (hid : credentialId ∉ drawn)
    (hnone : s.finalCredential? job.jobId creator bundleId = none) :
    ∃ s', s.insertFinalCredential E deriveKey job creator bundleId candidate credentialId expiresAt
      now = .ok s' := by
  have hpaths : (publicationGuardedPaths job.frozenContentLock).Nodup := by
    have := nodup_paths (ContentLock.apart_of_validate hvalid)
    rwa [map_path_listedResources] at this
  have hfree : ∀ e ∈ s.drainCredentials,
      e.credentialId ≠ credentialId ∧ e.lookupKey ≠ deriveKey candidate := by
    intro e he
    obtain ⟨c, hcmem, hce, -⟩ := hc.linked.drained e he
    refine ⟨fun h => hid (h ▸ hc.drains e he), ?_⟩
    rw [← hce]
    exact hkey c hcmem
  have hany : s.credentials.any (·.lookupKey == deriveKey candidate) = false := by
    simpa using hkey
  refine Checks.isOk_iff.1 ?_
  dsimp only [insertFinalCredential]
  rw [hvalid, hany, hnone, drainKeysFree_iff.2 ⟨?_, ?_⟩, decide_eq_true hpaths]
  · rfl
  · simpa using hfree
  · exact List.nodup_singleton _

end DrainStore

/-! ## Runs -/

namespace DrainWorld

variable {w : DrainWorld} {ops : List DrainOperation} {clock : Timestamp}

theorem traced_of_run (h : Runs.Run (Runs.restrict (system E deriveKey) fun _ op => op.requested E)
    (.init clock) ops w) : w.Inv E ∧ w.store.Traced E := by
  refine h.invariant (I := fun w => w.Inv E ∧ w.store.Traced E) ⟨inv_init clock, ?_⟩ ?_
  · exact ⟨List.nodup_nil, List.forall_mem_nil _,
      List.forall_mem_nil _⟩
  · rintro w op w' ⟨hinv, ht⟩ ⟨hexec, hop⟩
    exact ⟨inv_of_exec hinv hexec,
      traced_of_effect hinv.consistent ht (step_of_exec hexec).effect hop⟩

/-- **Advertised final credentials are obtainable.**  In every reachable state,
    at every time of the database:
    * a final credential is advertised if the request for it returns one, and a
      request returns it if it is advertised and the drawn candidate is new;
    * where the request of the worker returns a credential, the request of the
      viewer returns the same, whatever it draws if a bearer exists. -/
theorem advertised_obtainable (E : Externals) (deriveKey : AccessCredential → LookupKey)
    (clock : Timestamp) (ops : List DrainOperation) (w : DrainWorld)
    (h : Runs.Run (Runs.restrict (system E deriveKey) fun _ op => op.requested E) (.init clock)
      ops w) (creator : CreatorPubky) (bundleId : BundleId) (now : Timestamp)
    (candidate : AccessCredential) (credentialId : Uuid) :
    let request := w.store.issueOrReplayFinalCredential E deriveKey creator bundleId
    (∀ issued s', request candidate credentialId now = .ok (some issued, s') →
      w.store.finalCredentialAvailable creator bundleId now) ∧
    (w.store.finalCredentialAvailable creator bundleId now →
      (∀ c ∈ w.store.credentials, c.lookupKey ≠ deriveKey candidate) → credentialId ∉ w.drawn →
      ∃ issued s', request candidate credentialId now = .ok (some issued, s')) ∧
    ∀ l issued s', w.store.issueOrReplayFinalCredentialForWorker E deriveKey l creator bundleId
        candidate credentialId now = .ok (some issued, s') →
      request candidate credentialId now = .ok (some issued, s') ∧
      ((w.store.finalCredential? l.jobId creator bundleId).isSome →
        ∀ candidate' credentialId', request candidate' credentialId' now =
          .ok (some issued, w.store)) := by
  intro request
  obtain ⟨hinv, ht⟩ := traced_of_run h
  have hc := hinv.consistent
  refine ⟨fun issued s' hissue => ?_, fun havail hkey hid => ?_, fun l issued s' hworker => ?_⟩
  · rcases issueOrReplay_cases hissue with
      ⟨-, hn⟩ | ⟨job, windows, may, hjob, hissuing, hmay, hfor⟩
    · cases hn
    refine available_iff.2 ⟨job, hissuing.mem, List.find?_some hjob, windows, hissuing.set,
      hissuing.open_, ?_⟩
    rcases issueFor_cases hfor with ⟨-, hreplay⟩ | ⟨hm, -⟩
    · obtain ⟨-, -, hbearer⟩ := hreplay issued rfl
      obtain ⟨d, hd, -⟩ := Option.bind_eq_some_iff.1 hbearer
      exact .inl (Option.isSome_iff_exists.2 ⟨d, hd⟩)
    · exact .inr (hmay hm)
  · obtain ⟨job, hj, hfrom, windows, hset, hopen, hserved⟩ := available_iff.1 havail
    have heligible := (eligible_of_issuesFrom hfrom).2
    have hjob := issueJob?_of_issuesFrom hc ht hj hfrom
    simp only [request, issueOrReplay_eq hjob hset hopen]
    cases hfind : w.store.finalCredential? job.jobId creator bundleId with
    | some d =>
      obtain ⟨credential, hbearer⟩ := hc.bearer hfind
      exact ⟨_, _, issueFor_replay heligible hfind hbearer⟩
    | none =>
      rw [hfind] at hserved
      obtain ⟨hphase, hissue⟩ := hserved.resolve_left nofun
      obtain ⟨s', hins⟩ := insertFinalCredential_ok hc (ht.valid job hj) hkey hid hfind
      rw [decide_eq_true hphase, decide_eq_true hissue]
      exact ⟨_, _, issueFor_insert heligible hfind hins⟩
  · rcases issueOrReplayForWorker_cases hworker with
      ⟨-, hn⟩ | ⟨job, windows, hid, hissuing, howns, hissue, hfor⟩
    · cases hn
    obtain ⟨hrunning, hphase, hforce⟩ := running_of_drainClaim howns
    have heligible : w.store.hasEligibleSnapshot job.jobId bundleId := by
      rcases issueFor_cases hfor with ⟨-, hreplay⟩ | ⟨-, heligible, -⟩
      · exact (hreplay issued rfl).2.1
      · exact heligible
    have hfrom : w.store.issuesFrom creator bundleId job := by
      simp [issuesFrom, hissuing.own, hrunning, hphase, hforce, heligible,
        ContentLockDeletionState.isTerminal]
    have hviewer : ∀ c id, request c id now = w.store.issueFor E deriveKey job creator bundleId c
        id windows.readDeadline now true := by
      intro c id
      simp only [request, issueOrReplay_eq (issueJob?_of_issuesFrom hc ht hissuing.mem hfrom)
        hissuing.set hissuing.open_]
      rw [decide_eq_true hphase, decide_eq_true hissue]
      rfl
    refine ⟨(hviewer candidate credentialId).trans hfor, fun hsome c id => ?_⟩
    obtain ⟨d, hd⟩ := Option.isSome_iff_exists.1 hsome
    rw [← hid] at hd
    obtain ⟨credential, hbearer⟩ := hc.bearer hd
    rw [issueFor_replay heligible hd hbearer] at hfor
    cases hfor
    exact (hviewer c id).trans (issueFor_replay heligible hd hbearer)

/-- Before the reader of `finalReadOperations` has asked for the credential. -/
theorem final_credential_served : let E := Externals.constant (.replicate 7)
    let deriveKey : AccessCredential → LookupKey := fun c => ⟨c.text.length⟩
    ∃ w, Runs.Run (Runs.restrict (system E deriveKey) fun _ op => op.requested E) (.init 0)
        (finalReadOperations.take 17) w ∧
      w.store.finalCredentialAvailable ⟨"creator"⟩ ⟨"bundle"⟩ 6 ∧
      ∃ issued s', w.store.issueOrReplayFinalCredential E deriveKey ⟨"creator"⟩ ⟨"bundle"⟩
        ⟨"bearer"⟩ ⟨7⟩ 6 = .ok (some issued, s') := by
  intro E deriveKey
  have h : (Runs.execList (Runs.guarded (DrainWorld.exec E deriveKey) fun _ op => op.requested E)
      (.init 0) (finalReadOperations.take 17)).any fun w =>
        w.store.finalCredentialAvailable ⟨"creator"⟩ ⟨"bundle"⟩ 6 && w.store.credentials.isEmpty &&
          !w.drawn.contains ⟨7⟩ := by decide +kernel
  obtain ⟨w, hw, h⟩ := (Option.any_eq_true _ _).1 h
  simp only [Bool.and_eq_true, List.isEmpty_iff, Bool.not_eq_true', List.contains_eq_mem,
    decide_eq_false_iff_not] at h
  obtain ⟨⟨havail, hnone⟩, hid⟩ := h
  have hrun := Runs.run_of_guarded _ _ hw
  refine ⟨w, hrun, havail, (advertised_obtainable E deriveKey 0 _ w hrun ⟨"creator"⟩ ⟨"bundle"⟩ 6
    ⟨"bearer"⟩ ⟨7⟩).2.1 havail ?_ hid⟩
  rw [hnone]
  exact List.forall_mem_nil _

end DrainWorld

end PubkyLocks
