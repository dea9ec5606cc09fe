/-
  What holds of the access tables in every reachable state.
-/
import PubkyLocks.Drains.AccessEffects

namespace PubkyLocks

open Table Operation DeletionJob Database

/-! ## Tables of the service -/

variable {E : Externals} {db db' : Database} {o : Operation}

/-- What a plain transaction keeps of the tables of the service. -/
structure Database.Steps (db : Database) (o : Operation) (db' : Database) : Prop where
  jobs : List.Forall₂ (fun j k => JobStep j o k) db.jobs db'.jobs
  snapshots : SnapshotsKept db.snapshots db'.snapshots

theorem snapshotsKept_of_effect (h : Effect db o db')
    (hinsert : ∀ job seen t, o ≠ .insertJob job seen t)
    (hforce : ∀ l now, o ≠ .completeForceDeletion l now) :
    SnapshotsKept db.snapshots db'.snapshots := by
  cases h with
  | statement st snapshots _ hkept _ => exact hkept
  | jobInserted job seen t => exact (hinsert job seen t rfl).elim
  | jobsUpdated op p f snapshots _ hkept => exact hkept
  | expired l now snapshots _ hkept _ => exact hkept
  | forceCompleted l now => exact (hforce l now rfl).elim
  | _ => exact .refl _

theorem steps_of_run (hs : db.Sound) (h : o.run E db = some db')
    (hinsert : ∀ job seen t, o ≠ .insertJob job seen t)
    (hforce : ∀ l now, o ≠ .completeForceDeletion l now) : db.Steps o db' := by
  refine ⟨?_, snapshotsKept_of_effect (effect_of_run hs h) hinsert hforce⟩
  have hjobs := jobsEffect_of_run hs h
  generalize db'.jobs = jobs at hjobs
  cases hjobs with
  | steps _ hsteps => exact hsteps
  | inserted k hk =>
    obtain ⟨job, seen, t, rfl, -⟩ := hk.insert
    exact (hinsert job seen t rfl).elim
  | forceCompleted l now j hop _ => exact (hforce l now hop).elim

theorem steps_of_plain (hs : db.Sound) (h : o.run E db = some db') (hp : o.plain) :
    db.Steps o db' := by
  refine steps_of_run hs h ?_ ?_
  · rintro job seen t rfl
    cases hp
  · rintro l now rfl
    cases hp

namespace Database.Steps

variable (h : db.Steps o db')
include h

theorem job_before {k : DeletionJob} (hk : k ∈ db'.jobs) :
    ∃ j ∈ db.jobs, JobStep j o k ∧ k.identity = j.identity := by
  obtain ⟨j, hj, hstep⟩ := exists_of_forall₂ h.jobs.flip hk
  exact ⟨j, hj, hstep, identity_of_jobStep hstep⟩

theorem job_after {j : DeletionJob} (hj : j ∈ db.jobs) :
    ∃ k ∈ db'.jobs, JobStep j o k ∧ k.identity = j.identity := by
  obtain ⟨k, hk, hstep⟩ := exists_of_forall₂ h.jobs hj
  exact ⟨k, hk, hstep, identity_of_jobStep hstep⟩

theorem resolved {q : TaskSnapshotRow} (hq : q ∈ db.snapshots) {status : VerificationTaskStatus}
    (hr : q.resolvedStatus = some status) :
    ∃ p ∈ db'.snapshots, p.deletionJobId = q.deletionJobId ∧
      p.verificationTaskId = q.verificationTaskId ∧ p.resolvedStatus = some status := by
  obtain ⟨p, hp, hkept⟩ := exists_of_forall₂ h.snapshots hq
  refine ⟨p, hp, hkept.job, hkept.task, ?_⟩
  rw [hkept.resolved (by rw [hr]; rfl), hr]

end Database.Steps

theorem DeletionJob.creator_of_identity {j k : DeletionJob} (h : k.identity = j.identity) :
    k.creator = j.creator :=
  congrArg (·.2.1) h

theorem DeletionJob.frozen_of_identity {j k : DeletionJob} (h : k.identity = j.identity) :
    k.frozenContentLock = j.frozenContentLock :=
  congrArg (·.2.2.2.1) h

/-! ## Credentials -/

/-- The rows of both credential tables name each other. -/
structure DrainStore.Linked (s : DrainStore) : Prop where
  keys : (s.credentials.map (·.lookupKey)).Nodup
  ids : (s.drainCredentials.map (·.credentialId)).Nodup
  drained : ∀ d ∈ s.drainCredentials, ∃ c ∈ s.credentials, c.lookupKey = d.lookupKey ∧
    c.record = ⟨d.creator, d.bundleId, d.expiresAt⟩ ∧ c.deletionJobId = some d.deletionJobId
  enrolled : ∀ c ∈ s.credentials, ∀ id, c.deletionJobId = some id →
    ∃ d ∈ s.drainCredentials, d.lookupKey = c.lookupKey
  owner : ∀ d ∈ s.drainCredentials, ∃ j ∈ s.db.jobs, j.jobId = d.deletionJobId ∧
    j.creator = d.creator

namespace DrainStore

variable {s s' : DrainStore}

theorem linked_empty : DrainStore.empty.Linked where
  keys := List.nodup_nil
  ids := List.nodup_nil
  drained := List.forall_mem_nil _
  enrolled := List.forall_mem_nil _
  owner := List.forall_mem_nil _

variable {c : AccessCredentialRow} {d : DrainCredentialRow} {job : DeletionJob}
  {seen : TaskId → VerificationTaskStatus} {active : TaskId → Bool}
  {credentialId : LookupKey → Uuid} {t now : Timestamp} {jobId id : Uuid} {key : LookupKey}
  {g : Option GrantedClaim}

theorem Linked.eq_of_key (h : s.Linked)
    (hc : c ∈ s.credentials) (hd : d ∈ s.drainCredentials) (hk : d.lookupKey = c.lookupKey) :
    c.record = ⟨d.creator, d.bundleId, d.expiresAt⟩ ∧ c.deletionJobId = some d.deletionJobId := by
  obtain ⟨c', hc', hk', hrec, hjob⟩ := h.drained d hd
  rw [List.inj_on_of_nodup_map h.keys hc hc' (hk.symm.trans hk'.symm)]
  exact ⟨hrec, hjob⟩

theorem Linked.eq_of_id (h : s.Linked) {e : DrainCredentialRow} (hd : d ∈ s.drainCredentials)
    (he : e ∈ s.drainCredentials) (hid : d.credentialId = e.credentialId) : d = e :=
  List.inj_on_of_nodup_map h.ids hd he hid

theorem Linked.steps (h : s.Linked) (hs : s.db.Steps o s'.db)
    (hc : s'.credentials = s.credentials) (hd : s'.drainCredentials = s.drainCredentials) :
    s'.Linked where
  keys := hc ▸ h.keys
  ids := hd ▸ h.ids
  drained := by
    rw [hc, hd]
    exact h.drained
  enrolled := by
    rw [hc, hd]
    exact h.enrolled
  owner := by
    intro d hmem
    rw [hd] at hmem
    obtain ⟨j, hj, hid, hcreator⟩ := h.owner d hmem
    obtain ⟨k, hk, -, hidentity⟩ := hs.job_after hj
    refine ⟨k, hk, ?_, ?_⟩
    · rw [jobId_of_identity hidentity, hid]
    · rw [creator_of_identity hidentity, hcreator]

theorem drainKeysFree_iff {rows : List DrainCredentialRow} :
    s.drainKeysFree rows ↔ (∀ d ∈ rows, ∀ e ∈ s.drainCredentials,
      e.credentialId ≠ d.credentialId ∧ e.lookupKey ≠ d.lookupKey) ∧
      (rows.map (·.credentialId)).Nodup := by
  simp only [drainKeysFree, Bool.and_eq_true, List.all_eq_true, bne_iff_ne, decide_eq_true_eq]

theorem enroll_eq_some : s.enroll job seen active credentialId t = some s' ↔
      s.drainKeysFree ((s.attached job t).map (drainOf job credentialId t)) ∧
      s' = { s with
        credentials := Table.updateWhere (s.attaches job t)
          (fun c => { c with deletionJobId := some job.jobId }) s.credentials
        drainCredentials := (s.attached job t).map (drainOf job credentialId t) ++
          s.drainCredentials
        obligations := (s.db.tasks.filter (ofLock job.creator job.lockId)).map
          (obligationOf job seen active t) ++ s.obligations } := by
  unfold enroll
  dsimp only
  split
  · rename_i hfree
    rw [Option.some.injEq]
    exact ⟨fun h => ⟨hfree, h.symm⟩, fun h => h.2.symm⟩
  · rename_i hfree
    exact ⟨nofun, fun h => absurd h.1 hfree⟩

theorem creator_of_attaches (h : s.attaches job t c) : c.record.creator = job.creator := by
  rw [attaches, Bool.and_eq_true] at h
  obtain ⟨r, -, hr⟩ := List.any_eq_true.1 h.1
  simp only [Bool.and_eq_true, beq_iff_eq] at hr
  rw [← hr.1.2, (ofLock_iff.1 hr.1.1).1]

section
variable (h : s.Linked)
include h

theorem Linked.enroll (he : s.enroll job seen active credentialId t = some s')
    (hjobs : db.jobs = job.stored t :: s.db.jobs) : Linked { s' with db } := by
  obtain ⟨hfree, rfl⟩ := enroll_eq_some.1 he
  obtain ⟨hfree, hnodup⟩ := drainKeysFree_iff.1 hfree
  have hrow : ∀ c ∈ s.credentials, s.attaches job t c →
      drainOf job credentialId t c ∈ (s.attached job t).map (drainOf job credentialId t) :=
    fun c hc ha => List.mem_map_of_mem (List.mem_filter.2 ⟨hc, ha⟩)
  have hkeys : (updateWhere (s.attaches job t)
      (fun c => { c with deletionJobId := some job.jobId }) s.credentials).map (·.lookupKey) =
      s.credentials.map (·.lookupKey) := map_updateWhere fun _ _ _ => rfl
  refine ⟨hkeys ▸ h.keys, ?_, fun d hd => ?_, fun c hc id hid => ?_, fun d hd => ?_⟩
  · show ((_ ++ s.drainCredentials).map (·.credentialId)).Nodup
    rw [List.map_append]
    refine List.Nodup.append hnodup h.ids ?_
    intro id hnew hold
    obtain ⟨d, hd, rfl⟩ := List.mem_map.1 hnew
    obtain ⟨e, he, hid⟩ := List.mem_map.1 hold
    exact (hfree d hd e he).1 hid
  · rcases List.mem_append.1 hd with hd | hd
    · obtain ⟨c, hc, rfl⟩ := List.mem_map.1 hd
      obtain ⟨hc, ha⟩ := List.mem_filter.1 hc
      exact ⟨_, mem_updateWhere.2 ⟨c, hc, .inl ⟨ha, rfl⟩⟩, rfl, rfl, rfl⟩
    · obtain ⟨c, hc, hkey, hrec, hjob⟩ := h.drained d hd
      refine ⟨c, mem_updateWhere.2 ⟨c, hc, .inr ⟨?_, rfl⟩⟩, hkey, hrec, hjob⟩
      -- an enrolled key cannot be drained again
      by_contra ha
      rw [Bool.not_eq_false] at ha
      exact (hfree _ (hrow c hc ha) d hd).2 hkey.symm
  · obtain ⟨c₀, hc₀, ⟨ha, rfl⟩ | ⟨ha, rfl⟩⟩ := mem_updateWhere.1 hc
    · exact ⟨_, List.mem_append_left _ (hrow c₀ hc₀ ha), rfl⟩
    · obtain ⟨d, hd, hkey⟩ := h.enrolled c hc₀ id hid
      exact ⟨d, List.mem_append_right _ hd, hkey⟩
  · rw [hjobs]
    rcases List.mem_append.1 hd with hd | hd
    · obtain ⟨c, hc, rfl⟩ := List.mem_map.1 hd
      obtain ⟨hc, ha⟩ := List.mem_filter.1 hc
      exact ⟨_, List.mem_cons_self, rfl, (creator_of_attaches ha).symm⟩
    · obtain ⟨j, hj, hid⟩ := h.owner d hd
      exact ⟨j, List.mem_cons_of_mem _ hj, hid⟩

theorem Linked.removedWith_iff (hd : d ∈ s.drainCredentials) :
    s.removedWith jobId d ↔ d.deletionJobId = jobId := by
  rw [removedWith, Bool.or_eq_true, beq_iff_eq]
  refine or_iff_left_of_imp fun hc => ?_
  obtain ⟨c, hc, hk⟩ := List.any_eq_true.1 hc
  rw [Bool.and_eq_true, beq_iff_eq, beq_iff_eq] at hk
  have hjob := (h.eq_of_key hc hd hk.2.symm).2
  rw [hk.1] at hjob
  exact (Option.some.inj hjob).symm

theorem Linked.mem_deleteJob : d ∈ (s.deleteJob jobId).drainCredentials ↔
      d ∈ s.drainCredentials ∧ d.deletionJobId ≠ jobId := by
  refine List.mem_filter.trans ⟨fun ⟨hd, hn⟩ => ⟨hd, ?_⟩, fun ⟨hd, hn⟩ => ⟨hd, ?_⟩⟩
  · rw [Bool.not_eq_true'] at hn
    exact fun he => absurd ((h.removedWith_iff hd).2 he) (by simp [hn])
  · rw [Bool.not_eq_true', ← Bool.not_eq_true, h.removedWith_iff hd]
    exact hn

theorem Linked.deleteJob (hjobs : ∀ j ∈ s.db.jobs, j.jobId ≠ jobId → j ∈ db.jobs) :
    Linked { s.deleteJob jobId with db } := by
  have hmem : ∀ d, d ∈ (s.deleteJob jobId).drainCredentials ↔
      d ∈ s.drainCredentials ∧ d.deletionJobId ≠ jobId := fun d => h.mem_deleteJob
  refine ⟨?_, ?_, fun d hd => ?_, fun c hc id hid => ?_, fun d hd => ?_⟩
  · exact h.keys.sublist (List.Sublist.map _ List.filter_sublist)
  · exact h.ids.sublist (List.Sublist.map _ List.filter_sublist)
  · obtain ⟨hd, hne⟩ := (hmem d).1 hd
    obtain ⟨c, hc, hkey, hrec, hjob⟩ := h.drained d hd
    refine ⟨c, List.mem_filter.2 ⟨hc, ?_⟩, hkey, hrec, hjob⟩
    rw [hjob, bne_iff_ne]
    exact fun he => hne (Option.some.inj he)
  · obtain ⟨hc, hne⟩ := List.mem_filter.1 hc
    obtain ⟨d, hd, hkey⟩ := h.enrolled c hc id hid
    refine ⟨d, (hmem d).2 ⟨hd, ?_⟩, hkey⟩
    rw [bne_iff_ne, (h.eq_of_key hc hd hkey).2] at hne
    exact fun he => hne (congrArg some he)
  · obtain ⟨hd, hne⟩ := (hmem d).1 hd
    obtain ⟨j, hj, hid, hc⟩ := h.owner d hd
    exact ⟨j, hjobs j hj (hid ▸ hne), hid, hc⟩

theorem Linked.deleteCredential_eq
    (hc : s.credential? key = some c) (hnone : c.deletionJobId = none) :
    s.deleteCredential key =
      { s with credentials := s.credentials.filter (·.lookupKey != key) } := by
  have hkey : c.lookupKey = key := by simpa using List.find?_some hc
  have hd : ∀ d ∈ s.drainCredentials, d.lookupKey ≠ key := by
    intro d hd he
    have := (h.eq_of_key (List.mem_of_find?_eq_some hc) hd (he.trans hkey.symm)).2
    rw [hnone] at this
    cases this
  unfold deleteCredential
  congr 1
  · exact List.filter_eq_self.2 fun d hmem => bne_iff_ne.2 (hd d hmem)
  · refine List.filter_eq_self.2 fun r _ => ?_
    rw [Bool.not_eq_true']
    refine List.any_eq_false.2 fun d hmem hand => ?_
    rw [Bool.and_eq_true, beq_iff_eq] at hand
    exact hd d hmem hand.1

theorem Linked.insertCredential
    (hkey : ∀ c ∈ s.credentials, c.lookupKey ≠ key) (record : AccessCredentialRecord) :
    Linked { s with credentials := ⟨key, record, none⟩ :: s.credentials } where
  keys := by
    refine List.nodup_cons.2 ⟨fun hmem => ?_, h.keys⟩
    obtain ⟨c, hc, he⟩ := List.mem_map.1 hmem
    exact hkey c hc he
  ids := h.ids
  drained := fun d hd =>
    let ⟨c, hc, hrest⟩ := h.drained d hd
    ⟨c, List.mem_cons_of_mem _ hc, hrest⟩
  enrolled := by
    intro c hc id hid
    rcases List.mem_cons.1 hc with rfl | hc
    · cases hid
    · exact h.enrolled c hc id hid
  owner := h.owner

theorem Linked.deleteCredential (hc : s.credential? key = some c) (hnone : c.deletionJobId = none) :
    (s.deleteCredential key).Linked := by
  have heq := h.deleteCredential_eq hc hnone
  rw [heq]
  refine ⟨h.keys.sublist (List.Sublist.map _ List.filter_sublist), h.ids, fun d hd => ?_,
    fun c' hc' id hid => h.enrolled c' (List.mem_of_mem_filter hc') id hid, h.owner⟩
  obtain ⟨c', hc', hkey, hrec, hjob⟩ := h.drained d hd
  refine ⟨c', List.mem_filter.2 ⟨hc', bne_iff_ne.2 fun he => ?_⟩, hkey, hrec, hjob⟩
  have hck : c.lookupKey = key := by simpa using List.find?_some hc
  have := (h.eq_of_key (List.mem_of_find?_eq_some hc) hd (hkey.symm.trans (he.trans hck.symm))).2
  rw [hnone] at this
  cases this

end

structure FinalInserted (deriveKey : AccessCredential → LookupKey) (s : DrainStore)
    (job : DeletionJob) (bundleId : BundleId) (candidate : AccessCredential) (now : Timestamp)
    (row : DrainCredentialRow) (s' : DrainStore) : Prop where
  ofJob : row.deletionJobId = job.jobId
  creator : row.creator = job.creator
  bundle : row.bundleId = bundleId
  kind : row.kind = .final
  bearer : row.encryptedBearer = some candidate
  key : row.lookupKey = deriveKey candidate
  keyFree : ∀ c ∈ s.credentials, c.lookupKey ≠ row.lookupKey
  drainFree : ∀ e ∈ s.drainCredentials,
    e.credentialId ≠ row.credentialId ∧ e.lookupKey ≠ row.lookupKey
  single : s.finalCredential? job.jobId job.creator bundleId = none
  paths : (publicationGuardedPaths job.frozenContentLock).Nodup
  after : s' = { s with
    credentials :=
      ⟨row.lookupKey, ⟨row.creator, row.bundleId, row.expiresAt⟩, some job.jobId⟩ :: s.credentials
    drainCredentials := row :: s.drainCredentials
    drainReads := (publicationGuardedPaths job.frozenContentLock).map
      (⟨row.credentialId, ·, none, none, none⟩) ++ s.drainReads
    obligations := Table.updateWhere
      (fun o => o.deletionJobId == job.jobId && o.bundleId == bundleId &&
        o.finalCredentialIssuedAt.isNone)
      (fun o => { o with finalCredentialIssuedAt := some now }) s.obligations }

theorem insertFinalCredential_eq_ok {E : Externals} {deriveKey : AccessCredential → LookupKey}
    {bundleId : BundleId} {candidate : AccessCredential} {credentialId : Uuid}
    {expiresAt : Timestamp}
    (h : s.insertFinalCredential E deriveKey job job.creator bundleId candidate credentialId
      expiresAt now = .ok s') :
    ∃ row, FinalInserted deriveKey s job bundleId candidate now row s' ∧
      row.credentialId = credentialId ∧ row.expiresAt = expiresAt := by
  obtain ⟨-, h⟩ := Checks.seq_eq_ok.1 h
  obtain ⟨hkey, h⟩ := Checks.seq_eq_ok.1 h
  obtain ⟨hfree, h⟩ := Checks.seq_eq_ok.1 h
  cases h
  rw [Checks.refuse_eq_ok, Bool.not_eq_true] at hkey hfree
  simp only [Bool.or_eq_false_iff, Bool.not_eq_false', decide_eq_true_eq,
    Option.isSome_eq_false_iff, Option.isNone_iff_eq_none] at hfree
  obtain ⟨⟨hfree, hsingle⟩, hpaths⟩ := hfree
  refine ⟨_, ⟨rfl, rfl, rfl, rfl, rfl, rfl, fun c hc he => ?_,
    (drainKeysFree_iff.1 hfree).1 _ (List.mem_singleton.2 rfl), hsingle, hpaths, rfl⟩, rfl, rfl⟩
  exact List.any_eq_false.1 hkey c hc (beq_iff_eq.2 he)

variable {deriveKey : AccessCredential → LookupKey} {bundleId : BundleId}
  {candidate : AccessCredential} {row : DrainCredentialRow}

theorem Linked.issued (h : s.Linked) (hjob : job ∈ s.db.jobs)
    (hins : FinalInserted deriveKey s job bundleId candidate now row s') : s'.Linked := by
  rw [hins.after]
  refine ⟨?_, ?_, fun d hd => ?_, fun c hc id hid => ?_, fun d hd => ?_⟩
  · refine List.nodup_cons.2 ⟨fun hmem => ?_, h.keys⟩
    obtain ⟨c, hc, he⟩ := List.mem_map.1 hmem
    exact hins.keyFree c hc he
  · refine List.nodup_cons.2 ⟨fun hmem => ?_, h.ids⟩
    obtain ⟨e, he, hid⟩ := List.mem_map.1 hmem
    exact (hins.drainFree e he).1 hid
  · rcases List.mem_cons.1 hd with rfl | hd
    · exact ⟨_, List.mem_cons_self, rfl, rfl, congrArg some hins.ofJob.symm⟩
    · obtain ⟨c, hc, hrest⟩ := h.drained d hd
      exact ⟨c, List.mem_cons_of_mem _ hc, hrest⟩
  · rcases List.mem_cons.1 hc with rfl | hc
    · exact ⟨row, List.mem_cons_self, rfl⟩
    · obtain ⟨d, hd, hkey⟩ := h.enrolled c hc id hid
      exact ⟨d, List.mem_cons_of_mem _ hd, hkey⟩
  · rcases List.mem_cons.1 hd with rfl | hd
    · exact ⟨job, hjob, hins.ofJob.symm, hins.creator.symm⟩
    · exact h.owner d hd

/-! ## Obligations -/

/-- An eligible obligation is a completed task without a credential at the
    cutoff; an issued one has its final credential. -/
structure Owed (s : DrainStore) : Prop where
  inactive : ∀ o ∈ s.obligations, o.finalCredentialEligibleAt.isSome →
    o.hadActiveCredentialAtCutoff = false
  completed : ∀ o ∈ s.obligations, o.finalCredentialEligibleAt.isSome →
    ∃ q ∈ s.db.snapshots, q.deletionJobId = o.deletionJobId ∧
      q.verificationTaskId = o.verificationTaskId ∧ q.resolvedStatus = some .completed
  issued : ∀ o ∈ s.obligations, o.finalCredentialIssuedAt.isSome →
    ∃ d ∈ s.drainCredentials, d.deletionJobId = o.deletionJobId ∧ d.bundleId = o.bundleId ∧
      d.kind = .final

theorem owed_empty : DrainStore.empty.Owed :=
  ⟨List.forall_mem_nil _, List.forall_mem_nil _,
    List.forall_mem_nil _⟩

theorem Owed.steps (h : s.Owed) (hs : s.db.Steps o s'.db)
    (hd : s'.drainCredentials = s.drainCredentials) (ho : s'.obligations = s.obligations) :
    s'.Owed := by
  refine ⟨ho ▸ h.inactive, ?_, ?_⟩
  · rw [ho]
    intro o' ho' he
    obtain ⟨q, hq, hj, ht, hr⟩ := h.completed o' ho' he
    obtain ⟨p, hp, hj', ht', hr'⟩ := hs.resolved hq hr
    exact ⟨p, hp, hj'.trans hj, ht'.trans ht, hr'⟩
  · rw [ho, hd]
    exact h.issued

theorem Owed.markEligible (h : s.Owed) {l : JobLease} {id : TaskId} {k : Uuid}
    (hs : s.db.Steps (.statement (.drainComplete l id k now)) db)
    (hresolved : ∃ q ∈ db.snapshots, q.deletionJobId = l.jobId ∧ q.verificationTaskId = id ∧
      q.resolvedStatus = some .completed) : Owed { s.markEligible l id now with db } := by
  refine ⟨fun o ho he => ?_, fun o ho he => ?_, fun o ho hi => ?_⟩ <;>
    obtain ⟨o₀, ho₀, ⟨hg, rfl⟩ | ⟨-, rfl⟩⟩ := mem_updateWhere.1 ho
  · dsimp only at he ⊢
    by_contra ha
    simp [ha] at he
  · exact h.inactive o ho₀ he
  · rw [Bool.and_eq_true, beq_iff_eq, beq_iff_eq] at hg
    obtain ⟨q, hq, hj, ht, hr⟩ := hresolved
    exact ⟨q, hq, hj.trans hg.1.symm, ht.trans hg.2.symm, hr⟩
  · obtain ⟨q, hq, hj, ht, hr⟩ := h.completed o ho₀ he
    obtain ⟨p, hp, hj', ht', hr'⟩ := hs.resolved hq hr
    exact ⟨p, hp, hj'.trans hj, ht'.trans ht, hr'⟩
  · exact h.issued o₀ ho₀ hi
  · exact h.issued o ho₀ hi

theorem Owed.enroll (h : s.Owed) (he : s.enroll job seen active credentialId t = some s')
    (hsnapshots : db.snapshots = (s.db.tasks.filter (ofLock job.creator job.lockId)).map
      (Deletion.snapshotOf job.jobId seen) ++ s.db.snapshots) : Owed { s' with db } := by
  obtain ⟨-, rfl⟩ := enroll_eq_some.1 he
  have hnew : ∀ r, (obligationOf job seen active t r).finalCredentialEligibleAt.isSome →
      seen r.taskId = .completed ∧ active r.taskId = false := by
    intro r hr
    by_contra hn
    simp only [obligationOf] at hr
    split at hr
    · rename_i hc
      simp only [Bool.and_eq_true, decide_eq_true_eq, Bool.not_eq_true'] at hc
      exact hn ⟨hc.1.1, hc.2⟩
    · cases hr
  refine ⟨fun o ho he => ?_, fun o ho he => ?_, fun o ho hi => ?_⟩ <;>
    rcases List.mem_append.1 ho with ho | ho
  · obtain ⟨r, -, rfl⟩ := List.mem_map.1 ho
    exact (hnew r he).2
  · exact h.inactive o ho he
  · obtain ⟨r, hr, rfl⟩ := List.mem_map.1 ho
    refine ⟨Deletion.snapshotOf job.jobId seen r, ?_, rfl, rfl, ?_⟩
    · rw [hsnapshots]
      exact List.mem_append_left _ (List.mem_map_of_mem hr)
    · simp [Deletion.snapshotOf, (hnew r he).1, VerificationTaskStatus.isTerminal]
  · obtain ⟨q, hq, hrest⟩ := h.completed o ho he
    refine ⟨q, ?_, hrest⟩
    rw [hsnapshots]
    exact List.mem_append_right _ hq
  · obtain ⟨r, -, rfl⟩ := List.mem_map.1 ho
    cases hi
  · obtain ⟨d, hd, hrest⟩ := h.issued o ho hi
    exact ⟨d, List.mem_append_right _ hd, hrest⟩

theorem Owed.deleteJob (h : s.Owed) (hl : s.Linked)
    (hsnapshots : db.snapshots = s.db.snapshots.filter (·.deletionJobId != jobId)) :
    Owed { s.deleteJob jobId with db } := by
  refine ⟨fun o ho he => ?_, fun o ho he => ?_, fun o ho hi => ?_⟩ <;>
    obtain ⟨ho, hne⟩ := List.mem_filter.1 ho
  · exact h.inactive o ho he
  · obtain ⟨q, hq, hj, hrest⟩ := h.completed o ho he
    refine ⟨q, ?_, hj, hrest⟩
    rw [hsnapshots, List.mem_filter, hj]
    exact ⟨hq, hne⟩
  · obtain ⟨d, hd, hj, hrest⟩ := h.issued o ho hi
    refine ⟨d, hl.mem_deleteJob.2 ⟨hd, ?_⟩, hj, hrest⟩
    rw [hj]
    exact bne_iff_ne.1 hne

theorem Owed.issue (h : s.Owed)
    (hins : FinalInserted deriveKey s job bundleId candidate now row s') : s'.Owed := by
  rw [hins.after]
  refine ⟨fun o ho he => ?_, fun o ho he => ?_, fun o ho hi => ?_⟩ <;>
    obtain ⟨o₀, ho₀, ⟨hg, rfl⟩ | ⟨-, rfl⟩⟩ := mem_updateWhere.1 ho
  · exact h.inactive o₀ ho₀ he
  · exact h.inactive o ho₀ he
  · exact h.completed o₀ ho₀ he
  · exact h.completed o ho₀ he
  · simp only [Bool.and_eq_true, beq_iff_eq] at hg
    exact ⟨row, List.mem_cons_self, hins.ofJob.trans hg.1.1.symm, hins.bundle.trans hg.1.2.symm,
      hins.kind⟩
  · obtain ⟨d, hd, hrest⟩ := h.issued o ho₀ hi
    exact ⟨d, List.mem_cons_of_mem _ hd, hrest⟩

/-! ## Final credentials -/

structure FinalFor (s : DrainStore) (d : DrainCredentialRow) : Prop where
  bearer : d.encryptedBearer.isSome
  windows : ∃ w, s.windows? d.deletionJobId = some w ∧ d.expiresAt = w.readDeadline
  eligible : ∃ o ∈ s.obligations, o.deletionJobId = d.deletionJobId ∧ o.bundleId = d.bundleId ∧
    o.finalCredentialEligibleAt.isSome
  reads : ∀ j ∈ s.db.jobs, j.jobId = d.deletionJobId →
    ∀ path ∈ publicationGuardedPaths j.frozenContentLock, ∃ r ∈ s.drainReads,
      r.credentialId = d.credentialId ∧ r.guardedPath = path

/-- A job has one final credential for a bundle at most. -/
structure Finals (s : DrainStore) : Prop where
  readKeys : (s.drainReads.map fun r => (r.credentialId, r.guardedPath)).Nodup
  single : ∀ d ∈ s.drainCredentials, ∀ e ∈ s.drainCredentials, d.kind = .final → e.kind = .final →
    d.deletionJobId = e.deletionJobId → d.bundleId = e.bundleId → d = e
  final : ∀ d ∈ s.drainCredentials, d.kind = .final → s.FinalFor d

theorem finals_empty : DrainStore.empty.Finals :=
  ⟨List.nodup_nil, List.forall_mem_nil _, List.forall_mem_nil _⟩

theorem exists_read_of_steps {reads reads' : List DrainRead}
    (h : List.Forall₂ (ReadStep g) reads reads') {path : String}
    (hr : ∃ r ∈ reads, r.credentialId = id ∧ r.guardedPath = path) :
    ∃ r ∈ reads', r.credentialId = id ∧ r.guardedPath = path := by
  obtain ⟨r, hr, rfl, rfl⟩ := hr
  obtain ⟨q, hq, hstep⟩ := exists_of_forall₂ h hr
  exact ⟨q, hq, hstep.credentialId, hstep.guardedPath⟩

theorem Finals.steps (h : s.Finals) (hs : s.db.Steps o s'.db)
    (hreads : List.Forall₂ (ReadStep g) s.drainReads s'.drainReads)
    (hd : s'.drainCredentials = s.drainCredentials) (hw : s'.windows = s.windows)
    (ho : ∀ o ∈ s.obligations, ∃ o' ∈ s'.obligations, o'.deletionJobId = o.deletionJobId ∧
      o'.bundleId = o.bundleId ∧ (o.finalCredentialEligibleAt.isSome →
        o'.finalCredentialEligibleAt.isSome)) : s'.Finals := by
  refine ⟨?_, hd ▸ h.single, ?_⟩
  · rw [readKeys_of_steps hreads]
    exact h.readKeys
  · rw [hd]
    intro d hmem hkind
    obtain ⟨hbearer, hwindows, ⟨o, hmo, hj, hb, he⟩, hr⟩ := h.final d hmem hkind
    refine ⟨hbearer, ?_, ?_, fun k hk hid path hpath => ?_⟩
    · unfold windows?
      rw [hw]
      exact hwindows
    · obtain ⟨o', ho', hj', hb', he'⟩ := ho o hmo
      exact ⟨o', ho', hj'.trans hj, hb'.trans hb, he' he⟩
    · obtain ⟨j, hj, -, hidentity⟩ := hs.job_before hk
      refine exists_read_of_steps hreads (hr j hj ?_ path ?_)
      · rw [← jobId_of_identity hidentity, hid]
      · rw [← frozen_of_identity hidentity]
        exact hpath

theorem Finals.enroll (h : s.Finals) (hl : s.Linked)
    (he : s.enroll job seen active credentialId t = some s')
    (hfresh : ∀ j ∈ s.db.jobs, j.jobId ≠ job.jobId)
    (hjobs : db.jobs = job.stored t :: s.db.jobs) : Finals { s' with db } := by
  obtain ⟨-, rfl⟩ := enroll_eq_some.1 he
  have hold : ∀ d ∈ (s.attached job t).map (drainOf job credentialId t) ++ s.drainCredentials,
      d.kind = .final → d ∈ s.drainCredentials := by
    intro d hd hkind
    rcases List.mem_append.1 hd with hd | hd
    · obtain ⟨c, -, rfl⟩ := List.mem_map.1 hd
      cases hkind
    · exact hd
  refine ⟨h.readKeys, fun d hd e he hkd hke => h.single d (hold d hd hkd) e (hold e he hke) hkd hke,
    fun d hd hkind => ?_⟩
  have hd := hold d hd hkind
  obtain ⟨hbearer, hwindows, ⟨o, ho, hrest⟩, hr⟩ := h.final d hd hkind
  refine ⟨hbearer, hwindows, ⟨o, List.mem_append_right _ ho, hrest⟩, fun j hj hid => ?_⟩
  rw [hjobs] at hj
  rcases List.mem_cons.1 hj with rfl | hj
  · obtain ⟨j, hj, hid', -⟩ := hl.owner d hd
    exact (hfresh j hj (hid'.trans hid.symm)).elim
  · exact hr j hj hid

theorem windows?_deleteJob (hne : id ≠ jobId) :
    (s.deleteJob jobId).windows? id = s.windows? id := by
  unfold windows? deleteJob
  simp only [List.find?_filter]
  congr 2
  funext w
  by_cases hw : w.jobId = id
  · simp [hw, hne]
  · simp [hw]

theorem Finals.deleteJob (h : s.Finals) (hl : s.Linked)
    (hjobs : ∀ j ∈ db.jobs, j ∈ s.db.jobs) : Finals { s.deleteJob jobId with db } := by
  have hold : ∀ d ∈ (s.deleteJob jobId).drainCredentials,
      d ∈ s.drainCredentials ∧ d.deletionJobId ≠ jobId := fun d hd => hl.mem_deleteJob.1 hd
  refine ⟨h.readKeys.sublist (List.Sublist.map _ List.filter_sublist),
    fun d hd e he => h.single d (hold d hd).1 e (hold e he).1, fun d hd hkind => ?_⟩
  obtain ⟨hd, hne⟩ := hold d hd
  obtain ⟨hbearer, ⟨w, hw, hexp⟩, ⟨o, ho, hj, hrest⟩, hr⟩ := h.final d hd hkind
  refine ⟨hbearer, ⟨w, (windows?_deleteJob hne).trans hw, hexp⟩,
    ⟨o, List.mem_filter.2 ⟨ho, ?_⟩, hj, hrest⟩, fun j hj hid path hpath => ?_⟩
  · rw [hj]
    exact bne_iff_ne.2 hne
  · obtain ⟨r, hr, hrid, hrpath⟩ := hr j (hjobs j hj) hid path hpath
    refine ⟨r, List.mem_filter.2 ⟨hr, ?_⟩, hrid, hrpath⟩
    -- a read goes with its own credential only
    rw [Bool.not_eq_true']
    refine List.any_eq_false.2 fun e he hgone => ?_
    rw [Bool.and_eq_true, beq_iff_eq, hl.removedWith_iff he] at hgone
    rw [hl.eq_of_id hd he (hrid.symm.trans hgone.2.symm)] at hne
    exact hne hgone.1

theorem windows?_cons (hne : jobId ≠ id) {windows : FinalAccessWindows} :
    windows? { s with windows := ⟨jobId, windows⟩ :: s.windows } id = s.windows? id := by
  unfold windows?
  rw [List.find?_cons_of_neg]
  simpa using hne

theorem Finals.windowsSet (h : s.Finals) (hnone : s.windows? jobId = none)
    (windows : FinalAccessWindows) :
    Finals { s with windows := ⟨jobId, windows⟩ :: s.windows } := by
  refine ⟨h.readKeys, h.single, fun d hd hkind => ?_⟩
  obtain ⟨hbearer, ⟨w, hw, hexp⟩, hrest, hr⟩ := h.final d hd hkind
  have hne : jobId ≠ d.deletionJobId := fun he => by
    rw [he, hw] at hnone
    cases hnone
  exact ⟨hbearer, ⟨w, (windows?_cons hne).trans hw, hexp⟩, hrest, hr⟩

theorem FinalInserted.single_of_linked (hl : s.Linked) (hs : s.db.Sound) (hjob : job ∈ s.db.jobs)
    (hins : FinalInserted deriveKey s job bundleId candidate now row s')
    {d : DrainCredentialRow} (hd : d ∈ s.drainCredentials) (hkind : d.kind = .final)
    (hid : d.deletionJobId = row.deletionJobId) (hbundle : d.bundleId = row.bundleId) : False := by
  obtain ⟨j, hj, hjid, hc⟩ := hl.owner d hd
  have hjj : j = job := hs.eq_of_jobId hj hjob (hjid.trans (hid.trans hins.ofJob))
  have := List.find?_eq_none.1 hins.single d hd
  refine this ?_
  simp only [Bool.and_eq_true, beq_iff_eq]
  exact ⟨⟨⟨hid.trans hins.ofJob, by rw [← hc, hjj]⟩, hbundle.trans hins.bundle⟩, hkind⟩

theorem Finals.issue (h : s.Finals) (hl : s.Linked) (hs : s.db.Sound) (hjob : job ∈ s.db.jobs)
    {windows : FinalAccessWindows} (hw : s.windows? job.jobId = some windows)
    (heligible : s.hasEligibleSnapshot job.jobId bundleId)
    (hins : FinalInserted deriveKey s job bundleId candidate now row s')
    (hexp : row.expiresAt = windows.readDeadline)
    (hfresh : ∀ r ∈ s.drainReads, r.credentialId ≠ row.credentialId) : s'.Finals := by
  have hobligation : ∀ o ∈ s.obligations, ∃ o' ∈ s'.obligations,
      o'.deletionJobId = o.deletionJobId ∧ o'.bundleId = o.bundleId ∧
        o'.finalCredentialEligibleAt = o.finalCredentialEligibleAt := by
    intro o ho
    rw [hins.after]
    refine ⟨_, List.mem_map_of_mem ho, ?_⟩
    dsimp only
    split <;> exact ⟨rfl, rfl, rfl⟩
  have hnew : s'.FinalFor row := by
    refine ⟨by rw [hins.bearer]; rfl, ⟨windows, ?_, hexp⟩, ?_, fun j hj hid path hpath => ?_⟩
    · rw [hins.ofJob, hins.after]
      exact hw
    · obtain ⟨o, ho, heo⟩ := List.any_eq_true.1 heligible
      simp only [Bool.and_eq_true, beq_iff_eq] at heo
      obtain ⟨o', ho', hj, hb, he⟩ := hobligation o ho
      refine ⟨o', ho', ?_, ?_, he ▸ heo.1.2⟩
      · rw [hj, heo.1.1.1, hins.ofJob]
      · rw [hb, heo.1.1.2, hins.bundle]
    · rw [hins.after] at hj ⊢
      rw [hs.eq_of_jobId hj hjob (hid.trans hins.ofJob)] at hpath
      exact ⟨_, List.mem_append_left _ (List.mem_map_of_mem hpath), rfl, rfl⟩
  have hold : ∀ d ∈ s.drainCredentials, d.kind = .final → s'.FinalFor d := by
    intro d hd hkind
    obtain ⟨hbearer, hwindows, ⟨o, ho, hj, hb, he⟩, hr⟩ := h.final d hd hkind
    obtain ⟨o', ho', hj', hb', he'⟩ := hobligation o ho
    refine ⟨hbearer, ?_, ⟨o', ho', hj'.trans hj, hb'.trans hb, he' ▸ he⟩,
      fun j hj hid path hpath => ?_⟩
    · rw [hins.after]
      exact hwindows
    · rw [hins.after] at hj ⊢
      obtain ⟨r, hr, hrest⟩ := hr j hj hid path hpath
      exact ⟨r, List.mem_append_right _ hr, hrest⟩
  have hdrains : s'.drainCredentials = row :: s.drainCredentials := by rw [hins.after]
  refine ⟨?_, ?_, ?_⟩
  · rw [hins.after]
    simp only [List.map_append, List.map_map]
    refine List.Nodup.append ?_ h.readKeys ?_
    · exact hins.paths.map fun a b hab => congrArg Prod.snd hab
    · intro key hnew hkey
      obtain ⟨path, -, rfl⟩ := List.mem_map.1 hnew
      obtain ⟨r, hr, hre⟩ := List.mem_map.1 hkey
      exact hfresh r hr (congrArg Prod.fst hre)
  · rw [hdrains]
    intro d hd e he hkd hke hj hb
    rcases List.mem_cons.1 hd with hrow | hold <;> rcases List.mem_cons.1 he with hrow' | hold'
    · rw [hrow, hrow']
    · subst hrow
      exact (hins.single_of_linked hl hs hjob hold' hke hj.symm hb.symm).elim
    · subst hrow'
      exact (hins.single_of_linked hl hs hjob hold hkd hj hb).elim
    · exact h.single d hold e hold' hkd hke hj hb
  · rw [hdrains]
    intro d hd hkind
    rcases List.mem_cons.1 hd with rfl | hd
    · exact hnew
    · exact hold d hd hkind

/-! ## All tables -/

/-- What holds of the tables, with the ids drawn so far. -/
structure Consistent (E : Externals) (drawn : List Uuid) (s : DrainStore) : Prop where
  sound : s.db.Sound
  identity : ∀ j ∈ s.db.jobs, j.validateFrozenIdentity E = .ok ()
  linked : s.Linked
  owed : s.Owed
  finals : s.Finals
  jobs : ∀ j ∈ s.db.jobs, j.jobId ∈ drawn
  drains : ∀ d ∈ s.drainCredentials, d.credentialId ∈ drawn
  reads : ∀ r ∈ s.drainReads, r.credentialId ∈ drawn

section
variable {drawn drawn' : List Uuid}

theorem consistent_empty : DrainStore.empty.Consistent E drawn where
  sound := sound_empty
  identity := List.forall_mem_nil _
  linked := linked_empty
  owed := owed_empty
  finals := finals_empty
  jobs := List.forall_mem_nil _
  drains := List.forall_mem_nil _
  reads := List.forall_mem_nil _

theorem Consistent.mono (h : s.Consistent E drawn) (hsub : drawn ⊆ drawn') :
    s.Consistent E drawn' :=
  { h with
    jobs := fun j hj => hsub (h.jobs j hj)
    drains := fun d hd => hsub (h.drains d hd)
    reads := fun r hr => hsub (h.reads r hr) }

variable {l : JobLease} {id : TaskId} {k : Uuid} {reads : List DrainRead}

theorem Consistent.steps (h : s.Consistent E drawn) (hsound : s'.db.Sound) (hs : s.db.Steps o s'.db)
    (hreads : List.Forall₂ (ReadStep g) s.drainReads s'.drainReads)
    (hc : s'.credentials = s.credentials) (hd : s'.drainCredentials = s.drainCredentials)
    (howed : s'.Owed) (hfinals : s'.Finals) : s'.Consistent E drawn where
  sound := hsound
  identity := by
    intro k hk
    obtain ⟨j, hj, -, hidentity⟩ := hs.job_before hk
    rw [validateFrozenIdentity_of_identity hidentity]
    exact h.identity j hj
  linked := h.linked.steps hs hc hd
  owed := howed
  finals := hfinals
  jobs := by
    intro k hk
    obtain ⟨j, hj, -, hidentity⟩ := hs.job_before hk
    rw [jobId_of_identity hidentity]
    exact h.jobs j hj
  drains := hd ▸ h.drains
  reads := by
    intro q hq
    obtain ⟨r, hr, hstep⟩ := exists_of_forall₂ hreads.flip hq
    rw [hstep.credentialId]
    exact h.reads r hr

theorem eligible_kept (h : s.Owed) :
    ∀ o ∈ s.obligations, ∃ o' ∈ (s.markEligible l id now).obligations,
      o'.deletionJobId = o.deletionJobId ∧ o'.bundleId = o.bundleId ∧
        (o.finalCredentialEligibleAt.isSome → o'.finalCredentialEligibleAt.isSome) := by
  intro o ho
  refine ⟨_, List.mem_map_of_mem ho, ?_⟩
  dsimp only
  split
  · refine ⟨rfl, rfl, fun he => ?_⟩
    simp [h.inactive o ho he]
  · exact ⟨rfl, rfl, fun he => he⟩

theorem completed_of_drainComplete
    (h : (statement (.drainComplete l id k now)).run E db = some db') :
    ∃ q ∈ db'.snapshots, q.deletionJobId = l.jobId ∧ q.verificationTaskId = id ∧
      q.resolvedStatus = some .completed := by
  simp only [run, TaskStatement.run] at h
  split at h
  · split at h
    · rename_i snapshots db₁ hsnapshots hu
      cases h
      simp only [TaskStatement.snapshotsAfter, resolveSnapshot] at hsnapshots
      split at hsnapshots
      · rename_i hany
        cases hsnapshots
        obtain ⟨q, hq, hun⟩ := List.any_eq_true.1 hany
        have hkeys := hun
        simp only [Bool.and_eq_true, beq_iff_eq] at hkeys
        exact ⟨_, mem_updateWhere.2 ⟨q, hq, .inl ⟨hun, rfl⟩⟩, hkeys.1.1, hkeys.1.2, rfl⟩
      · cases hsnapshots
    · cases h
  · cases h

theorem tables_of_insertJob (h : (insertJob job seen t).run E db = some db') :
    db'.jobs = job.stored t :: db.jobs ∧
      db'.snapshots = (db.tasks.filter (ofLock job.creator job.lockId)).map
        (Deletion.snapshotOf job.jobId seen) ++ db.snapshots ∧
      (∀ j ∈ db.jobs, j.jobId ≠ job.jobId) ∧ job.validateFrozenIdentity E = .ok () := by
  simp only [run, Deletion.insertJob] at h
  split at h
  · rename_i hc
    simp only [Bool.and_eq_true] at hc
    obtain ⟨⟨⟨⟨⟨hidentity, -⟩, -⟩, -⟩, -⟩, hkey⟩ := hc
    obtain ⟨_, hidentity⟩ := Checks.isOk_iff.1 hidentity
    obtain ⟨-, rfl⟩ := updateTasks_eq_some.1 h
    refine ⟨rfl, rfl, fun j hj => ?_, hidentity⟩
    have hk := List.all_eq_true.1 hkey j hj
    rw [Bool.and_eq_true, bne_iff_ne] at hk
    exact hk.1
  · cases h

theorem tables_of_completeForceDeletion (h : (completeForceDeletion l now).run E db = some db') :
    db'.jobs = db.jobs.filter (·.jobId != l.jobId) ∧
      db'.snapshots = db.snapshots.filter (·.deletionJobId != l.jobId) := by
  simp only [run, Deletion.completeForceDeletion] at h
  split at h
  · cases h
  · split at h
    · cases h
    · split at h
      · cases h
      · cases h
        exact ⟨rfl, rfl⟩

theorem Consistent.service (h : s.Consistent E drawn) (hdb : o.run E s.db = some db)
    (hp : o.plain) (hreads : List.Forall₂ (ReadStep g) s.drainReads reads) :
    Consistent E drawn { s with db, drainReads := reads } := by
  have hs : s.db.Steps o db := steps_of_plain h.sound hdb hp
  refine h.steps (sound_of_effect h.sound (effect_of_run h.sound hdb)) hs hreads rfl rfl
    (h.owed.steps hs rfl rfl) (h.finals.steps hs hreads rfl rfl ?_)
  exact fun o ho => ⟨o, ho, rfl, rfl, fun he => he⟩

theorem steps_refl (db : Database) (o : Operation) : db.Steps o db :=
  ⟨List.forall₂_same.2 fun _ _ => .kept o, .refl _⟩

section
variable (h : s.Consistent E drawn)
include h

theorem Consistent.reads_step (hreads : List.Forall₂ (ReadStep g) s.drainReads reads) :
    Consistent E drawn { s with drainReads := reads } := by
  have hs : s.db.Steps (.attempt (.purgeTerminalBefore 0)) s.db := steps_refl _ _
  refine h.steps h.sound hs hreads rfl rfl (h.owed.steps hs rfl rfl)
    (h.finals.steps hs hreads rfl rfl ?_)
  exact fun o ho => ⟨o, ho, rfl, rfl, fun he => he⟩

theorem Consistent.drained (hdb : (statement (.drainComplete l id k now)).run E s.db = some db) :
    Consistent E drawn { s.markEligible l id now with db } := by
  have hs : s.db.Steps (.statement (.drainComplete l id k now)) db := by
    refine steps_of_run h.sound hdb ?_ ?_
    · intro job seen t he
      cases he
    · intro l' now' he
      cases he
  exact h.steps (sound_of_effect h.sound (effect_of_run h.sound hdb)) hs
    (readSteps_same rfl) rfl rfl
    (h.owed.markEligible hs (completed_of_drainComplete hdb))
    (h.finals.steps hs (readSteps_same rfl) rfl rfl (eligible_kept h.owed))

theorem Consistent.forceCompleted (hdb : (completeForceDeletion l now).run E s.db = some db) :
    Consistent E drawn { s.deleteJob l.jobId with db } := by
  obtain ⟨hjobs, hsnapshots⟩ := tables_of_completeForceDeletion hdb
  have hold : ∀ j ∈ db.jobs, j ∈ s.db.jobs := by
    rw [hjobs]
    exact fun j hj => List.mem_of_mem_filter hj
  refine ⟨sound_of_effect h.sound (effect_of_run h.sound hdb), fun j hj => h.identity j (hold j hj),
    h.linked.deleteJob fun j hj hne => ?_, h.owed.deleteJob h.linked hsnapshots,
    h.finals.deleteJob h.linked hold, fun j hj => h.jobs j (hold j hj),
    fun d hd => h.drains d (List.mem_of_mem_filter hd),
    fun r hr => h.reads r (List.mem_of_mem_filter hr)⟩
  rw [hjobs]
  exact List.mem_filter.2 ⟨hj, bne_iff_ne.2 hne⟩

theorem Consistent.inserted {active : TaskId → Bool} {credentialId : LookupKey → Uuid}
    (hdb : (insertJob job seen t).run E s.db = some db)
    (he : s.enroll job seen active credentialId t = some s') :
    Consistent E ((job.jobId :: (s.attached job t).map fun c => credentialId c.lookupKey) ++ drawn)
      { s' with db } := by
  obtain ⟨hjobs, hsnapshots, hfresh, hidentity⟩ := tables_of_insertJob hdb
  have hrows := (enroll_eq_some.1 he).2
  refine ⟨sound_of_effect h.sound (effect_of_run h.sound hdb), fun j hj => ?_,
    h.linked.enroll he hjobs, h.owed.enroll he hsnapshots,
    h.finals.enroll h.linked he hfresh hjobs, fun j hj => ?_, fun d hd => ?_, fun r hr => ?_⟩
  · rw [hjobs] at hj
    rcases List.mem_cons.1 hj with rfl | hj
    · exact hidentity
    · exact h.identity j hj
  · rw [hjobs] at hj
    rcases List.mem_cons.1 hj with rfl | hj
    · exact List.mem_append_left _ List.mem_cons_self
    · exact List.mem_append_right _ (h.jobs j hj)
  · rw [hrows] at hd
    rcases List.mem_append.1 hd with hd | hd
    · obtain ⟨c, hc, rfl⟩ := List.mem_map.1 hd
      exact List.mem_append_left _ (List.mem_cons_of_mem _ (List.mem_map.2 ⟨c, hc, rfl⟩))
    · exact List.mem_append_right _ (h.drains d hd)
  · rw [hrows] at hr
    exact List.mem_append_right _ (h.reads r hr)

theorem Consistent.issued {bundleId : BundleId}
    {candidate : AccessCredential} {row : DrainCredentialRow}
    {windows : FinalAccessWindows} (hjob : job ∈ s.db.jobs)
    (hw : s.windows? job.jobId = some windows)
    (heligible : s.hasEligibleSnapshot job.jobId bundleId)
    (hins : FinalInserted deriveKey s job bundleId candidate now row s')
    (hexp : row.expiresAt = windows.readDeadline) (hfresh : row.credentialId ∉ drawn) :
    s'.Consistent E (row.credentialId :: drawn) := by
  have hdb : s'.db = s.db := by rw [hins.after]
  refine ⟨hdb ▸ h.sound, hdb ▸ h.identity, h.linked.issued hjob hins, h.owed.issue hins,
    h.finals.issue h.linked h.sound hjob hw heligible hins hexp
      fun r hr he => hfresh (he ▸ h.reads r hr),
    fun j hj => List.mem_cons_of_mem _ (h.jobs j (hdb ▸ hj)), fun d hd => ?_, fun r hr => ?_⟩
  · rw [hins.after] at hd
    rcases List.mem_cons.1 hd with rfl | hd
    · exact List.mem_cons_self
    · exact List.mem_cons_of_mem _ (h.drains d hd)
  · rw [hins.after] at hr
    rcases List.mem_append.1 hr with hr | hr
    · obtain ⟨path, -, rfl⟩ := List.mem_map.1 hr
      exact List.mem_cons_self
    · exact List.mem_cons_of_mem _ (h.reads r hr)

/-- **Consistency.**  Every transaction that draws fresh ids keeps the tables
    consistent. -/
theorem consistent_of_effect {op : DrainOperation} (heff : DrainEffect E deriveKey s op s')
    (hfresh : ∀ id ∈ op.draws E s, id ∉ drawn) : s'.Consistent E (op.draws E s ++ drawn) := by
  have hmono : ∀ {s₁ : DrainStore}, s₁.Consistent E drawn →
      s₁.Consistent E (op.draws E s ++ drawn) := fun h₁ => h₁.mono (List.subset_append_right _ _)
  cases heff with
  | reads op reads hreads => exact hmono (h.reads_step hreads)
  | service op o db reads _ hdb hp _ _ hreads => exact hmono (h.service hdb hp hreads)
  | drained l id k now db hdb => exact hmono (h.drained hdb)
  | forceCompleted l now db hdb => exact hmono (h.forceCompleted hdb)
  | inserted frozen seen active credentialId t job db s₁ hnew hdb he =>
    simp only [DrainOperation.draws, hnew]
    exact h.inserted hdb he
  | credentialInserted lockId key record _ hkey =>
    exact hmono { h with
      linked := h.linked.insertCredential hkey record
      owed := ⟨h.owed.inactive, h.owed.completed, h.owed.issued⟩
      finals := ⟨h.finals.readKeys, h.finals.single, fun d hd hk =>
        let f := h.finals.final d hd hk
        ⟨f.bearer, f.windows, f.eligible, f.reads⟩⟩ }
  | credentialDeleted key expected c hc hnone =>
    have hlinked := h.linked.deleteCredential hc hnone
    have heq := h.linked.deleteCredential_eq hc hnone
    rw [heq] at hlinked ⊢
    exact hmono { h with
      linked := hlinked
      owed := ⟨h.owed.inactive, h.owed.completed, h.owed.issued⟩
      finals := ⟨h.finals.readKeys, h.finals.single, fun d hd hk =>
        let f := h.finals.final d hd hk
        ⟨f.bearer, f.windows, f.eligible, f.reads⟩⟩ }
  | windowsSet l issuance read now job windows _ hnone =>
    exact hmono { h with
      linked := ⟨h.linked.keys, h.linked.ids, h.linked.drained, h.linked.enrolled, h.linked.owner⟩
      owed := ⟨h.owed.inactive, h.owed.completed, h.owed.issued⟩
      finals := h.finals.windowsSet hnone windows }
  | issued op job bundleId candidate credentialId windows now s' _ hdraws hjob _ hw hel hins =>
    obtain ⟨row, hrow, rfl, hexp⟩ := insertFinalCredential_eq_ok hins
    rw [hdraws] at hfresh ⊢
    exact h.issued hjob hw hel hrow hexp (hfresh _ List.mem_cons_self)

end

end

end DrainStore

end PubkyLocks
