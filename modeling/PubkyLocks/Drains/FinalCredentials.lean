/-
  Final drain credentials are single and one-shot.
-/
import PubkyLocks.Drains.AccessInvariants
import PubkyLocks.Store.Invoices

namespace PubkyLocks

open DrainStore DrainOperation

variable {E : Externals} {deriveKey : AccessCredential → LookupKey}

/-! ## The invariant -/

/-- What holds in every reachable state. -/
structure DrainWorld.Inv (E : Externals) (w : DrainWorld) : Prop where
  consistent : w.store.Consistent E w.drawn
  windows : ∀ x ∈ w.store.windows, x.jobId ∈ w.drawn
  claims : ∀ r ∈ w.store.drainReads, ∀ token, r.claimToken = some token →
    ∃ g, w.latestClaim? r.credentialId r.guardedPath = some g ∧ g.claimToken = token ∧
      r.claimExpiresAt = some g.expiresAt

namespace DrainWorld

variable {w w' : DrainWorld} {op : DrainOperation}

/-- What one transaction does to the running system. -/
structure Step (E : Externals) (deriveKey : AccessCredential → LookupKey) (w : DrainWorld)
    (op : DrainOperation) (w' : DrainWorld) : Prop where
  fresh : ∀ id ∈ op.draws E w.store, id ∉ w.drawn
  run : op.run E deriveKey w.store = some w'.store
  now : w'.clock = op.dbNow?.getD w.clock
  drawn : w'.drawn = op.draws E w.store ++ w.drawn
  granted : w'.granted = (op.granted? w.store).toList ++ w.granted

theorem step_of_exec (h : w.exec E deriveKey op = some w') : Step E deriveKey w op w' := by
  unfold exec at h
  split at h
  · rename_i hc
    obtain ⟨store, hrun, rfl⟩ := Option.map_eq_some_iff.1 h
    refine ⟨fun id hid hmem => ?_, hrun, rfl, rfl, rfl⟩
    have := List.all_eq_true.1 hc id hid
    simp [hmem] at this
  · cases h

theorem Step.effect (h : Step E deriveKey w op w') : DrainEffect E deriveKey w.store op w'.store :=
  effect_of_drainRun h.run

theorem Step.latestClaim? (h : Step E deriveKey w op w') (id : Uuid) (path : String) :
    w'.latestClaim? id path = match op.granted? w.store with
      | some g => if g.credentialId = id ∧ g.guardedPath = path then some g
          else w.latestClaim? id path
      | none => w.latestClaim? id path := by
  unfold DrainWorld.latestClaim?
  rw [h.granted]
  cases op.granted? w.store with
  | none => rfl
  | some g =>
    by_cases hg : g.credentialId = id ∧ g.guardedPath = path
    · simp [hg]
    · simp only [Option.toList_some, List.singleton_append, if_neg hg]
      refine List.find?_cons_of_neg ?_
      simpa using hg

variable {q : DrainRead} {s s' : DrainStore} {jobId : Uuid} {v : FinalAccessWindows}

theorem claim_of_readStep (h : Step E deriveKey w op w') {r : DrainRead}
    (hstep : ReadStep (op.granted? w.store) r q)
    (hr : ∀ token, r.claimToken = some token →
      ∃ g, w.latestClaim? r.credentialId r.guardedPath = some g ∧ g.claimToken = token ∧
        r.claimExpiresAt = some g.expiresAt) {token : Uuid} (hq : q.claimToken = some token) :
    ∃ g, w'.latestClaim? q.credentialId q.guardedPath = some g ∧ g.claimToken = token ∧
      q.claimExpiresAt = some g.expiresAt := by
  cases hstep with
  | kept hne =>
    obtain ⟨g, hg, hrest⟩ := hr token hq
    refine ⟨g, ?_, hrest⟩
    rw [h.latestClaim?]
    split
    · rename_i g' hg'
      rw [if_neg (hne g' hg')]
      exact hg
    · exact hg
  | cleared => cases hq
  | claimed token' expiresAt hgranted =>
    cases hq
    refine ⟨⟨r.credentialId, r.guardedPath, token, expiresAt⟩, ?_, rfl, rfl⟩
    rw [h.latestClaim?, hgranted]
    simp
  | consumed now _ => cases hq

theorem read_before (heff : DrainEffect E deriveKey s op s') (hq : q ∈ s'.drainReads) :
    (∃ r ∈ s.drainReads, ReadStep (op.granted? s) r q) ∨
      (q.claimToken = none ∧ q.consumedAt = none ∧ op.draws E s = [q.credentialId]) := by
  cases heff with
  | reads op reads hreads => exact .inl (Table.exists_of_forall₂ hreads.flip hq)
  | service op o db reads hgranted _ _ _ _ hreads =>
    rw [hgranted]
    exact .inl (Table.exists_of_forall₂ hreads.flip hq)
  | drained l id k now db _ => exact .inl ⟨q, hq, .same rfl⟩
  | forceCompleted l now db _ => exact .inl ⟨q, List.mem_of_mem_filter hq, .same rfl⟩
  | inserted frozen seen active credentialId t job db s₁ _ _ he =>
    rw [(enroll_eq_some.1 he).2] at hq
    exact .inl ⟨q, hq, .same rfl⟩
  | credentialInserted lockId key record _ _ => exact .inl ⟨q, hq, .same rfl⟩
  | credentialDeleted key expected c _ _ => exact .inl ⟨q, List.mem_of_mem_filter hq, .same rfl⟩
  | windowsSet l issuance read now job windows _ _ => exact .inl ⟨q, hq, .same rfl⟩
  | issued op job bundleId candidate credentialId windows now s' hgranted hdraws _ _ _ _ hins =>
    obtain ⟨row, hrow, rfl, -⟩ := insertFinalCredential_eq_ok hins
    rw [hrow.after] at hq
    rcases List.mem_append.1 hq with hq | hq
    · obtain ⟨path, -, rfl⟩ := List.mem_map.1 hq
      exact .inr ⟨rfl, rfl, hdraws⟩
    · exact .inl ⟨q, hq, .same hgranted⟩

theorem windows_before (heff : DrainEffect E deriveKey s op s') {x : JobWindows}
    (hx : x ∈ s'.windows) : x ∈ s.windows ∨ ∃ j ∈ s.db.jobs, j.jobId = x.jobId := by
  cases heff with
  | forceCompleted l now db _ => exact .inl (List.mem_of_mem_filter hx)
  | inserted frozen seen active credentialId t job db s₁ _ _ he =>
    rw [(enroll_eq_some.1 he).2] at hx
    exact .inl hx
  | windowsSet l issuance read now job windows hjob _ =>
    rcases List.mem_cons.1 hx with rfl | hx
    · exact .inr ⟨job, hjob, rfl⟩
    · exact .inl hx
  | issued op job bundleId candidate credentialId windows now s' _ _ _ _ _ _ hins =>
    obtain ⟨row, hrow, -⟩ := insertFinalCredential_eq_ok hins
    rw [hrow.after] at hx
    exact .inl hx
  | _ => exact .inl hx

theorem inv_init (clock : Timestamp) : (DrainWorld.init clock).Inv E :=
  ⟨consistent_empty, List.forall_mem_nil _,
    List.forall_mem_nil _⟩

/-- **The invariant is kept** by every transaction. -/
theorem inv_of_exec (hw : w.Inv E) (h : w.exec E deriveKey op = some w') : w'.Inv E := by
  have hstep := step_of_exec h
  refine ⟨?_, fun x hx => ?_, fun q hq token htoken => ?_⟩
  · rw [hstep.drawn]
    exact consistent_of_effect hw.consistent hstep.effect hstep.fresh
  · rw [hstep.drawn]
    refine List.mem_append_right _ ?_
    rcases windows_before hstep.effect hx with hx | ⟨j, hj, hid⟩
    · exact hw.windows x hx
    · exact hid ▸ hw.consistent.jobs j hj
  · rcases read_before hstep.effect hq with ⟨r, hr, hread⟩ | ⟨hnone, -⟩
    · exact claim_of_readStep hstep hread (hw.claims r hr) htoken
    · rw [hnone] at htoken
      cases htoken

/-- The system: one transaction after the other. -/
abbrev system (E : Externals) (deriveKey : AccessCredential → LookupKey) :=
  Runs.ofExec (DrainWorld.exec E deriveKey)

theorem inv_of_drainRun {ops : List DrainOperation} (hw : w.Inv E)
    (h : Runs.Run (system E deriveKey) w ops w') : w'.Inv E :=
  h.invariant (I := fun w => w.Inv E) hw fun _ _ _ hinv hstep => inv_of_exec hinv hstep

/-! ## What stays -/

/-- The job was there and is deleted. -/
def Gone (w : DrainWorld) (jobId : Uuid) : Prop :=
  jobId ∈ w.drawn ∧ ∀ j ∈ w.store.db.jobs, j.jobId ≠ jobId

section
variable (hw : w.Inv E) (h : Step E deriveKey w op w')
include hw h

theorem jobStep_before {k : DeletionJob} (hk : k ∈ w'.store.db.jobs) :
    k ∈ w.store.db.jobs ∨ k.jobId ∉ w.drawn ∨
      ∃ j ∈ w.store.db.jobs, ∃ o, op.Serves o ∧ w.store.Gate o ∧ JobStep j o k := by
  have heff := h.effect
  have hfresh := h.fresh
  generalize w'.store = s' at heff hk
  cases heff with
  | reads op reads hreads => exact .inl hk
  | service op o db reads _ hdb hp hgate hserves _ =>
    obtain ⟨j, hj, hstep, -⟩ := (steps_of_plain hw.consistent.sound hdb hp).job_before hk
    exact .inr (.inr ⟨j, hj, o, hserves, hgate, hstep⟩)
  | drained l id k' now db hdb =>
    have hs := steps_of_run hw.consistent.sound hdb (by intro _ _ _ he; cases he)
      (by intro _ _ he; cases he)
    obtain ⟨j, hj, hstep, -⟩ := hs.job_before hk
    exact .inr (.inr ⟨j, hj, _, .service _ nofun, nofun, hstep⟩)
  | forceCompleted l now db hdb =>
    rw [(tables_of_completeForceDeletion hdb).1] at hk
    exact .inl (List.mem_of_mem_filter hk)
  | inserted frozen seen active credentialId t job db s₁ _ hdb _ =>
    rw [(tables_of_insertJob hdb).1] at hk
    rcases List.mem_cons.1 hk with rfl | hk
    · exact .inr (.inl (hfresh _ List.mem_cons_self))
    · exact .inl hk
  | credentialInserted lockId key record _ _ => exact .inl hk
  | credentialDeleted key expected c _ _ => exact .inl hk
  | windowsSet l issuance read now job windows _ _ => exact .inl hk
  | issued op job bundleId candidate credentialId windows now s' _ _ _ _ _ _ hins =>
    obtain ⟨row, hrow, -⟩ := insertFinalCredential_eq_ok hins
    rw [hrow.after] at hk
    exact .inl hk

theorem gone_of_step (hg : w.Gone jobId) : w'.Gone jobId := by
  refine ⟨?_, fun k hk he => ?_⟩
  · rw [h.drawn]
    exact List.mem_append_right _ hg.1
  · rcases jobStep_before hw h hk with hold | hfresh | ⟨j, hj, o, -, -, hstep⟩
    · exact hg.2 k hold he
    · exact hfresh (he ▸ hg.1)
    · have hid := DeletionJob.jobId_of_identity (identity_of_jobStep hstep)
      exact hg.2 j hj (hid.symm.trans he)

theorem drain_or_gone {d : DrainCredentialRow} (hd : d ∈ w.store.drainCredentials) :
    d ∈ w'.store.drainCredentials ∨ w'.Gone d.deletionJobId := by
  have hlinked := hw.consistent.linked
  have heff := h.effect
  have hgone : (∃ j ∈ w.store.db.jobs, j.jobId = d.deletionJobId) →
      (∀ j ∈ w'.store.db.jobs, j.jobId ≠ d.deletionJobId) → w'.Gone d.deletionJobId := by
    rintro ⟨j, hj, hid⟩ hnone
    refine ⟨?_, hnone⟩
    rw [h.drawn]
    exact List.mem_append_right _ (hid ▸ hw.consistent.jobs j hj)
  generalize w'.store = s' at heff hgone ⊢
  cases heff with
  | reads op reads hreads => exact .inl hd
  | service op o db reads _ _ _ _ _ _ => exact .inl hd
  | drained l id k now db hdb => exact .inl hd
  | forceCompleted l now db hdb =>
    by_cases he : d.deletionJobId = l.jobId
    · obtain ⟨j, hj, hid, -⟩ := hlinked.owner d hd
      refine .inr (hgone ⟨j, hj, hid⟩ fun k hk => ?_)
      rw [(tables_of_completeForceDeletion hdb).1] at hk
      rw [he]
      exact bne_iff_ne.1 (List.mem_filter.1 hk).2
    · exact .inl (hlinked.mem_deleteJob.2 ⟨hd, he⟩)
  | inserted frozen seen active credentialId t job db s₁ _ _ he =>
    rw [(enroll_eq_some.1 he).2]
    exact .inl (List.mem_append_right _ hd)
  | credentialInserted lockId key record _ _ => exact .inl hd
  | credentialDeleted key expected c hc hnone =>
    have heq := hlinked.deleteCredential_eq hc hnone
    rw [heq]
    exact .inl hd
  | windowsSet l issuance read now job windows _ _ => exact .inl hd
  | issued op job bundleId candidate credentialId windows now s' _ _ _ _ _ _ hins =>
    obtain ⟨row, hrow, -⟩ := insertFinalCredential_eq_ok hins
    rw [hrow.after]
    exact .inl (List.mem_cons_of_mem _ hd)

end

theorem mem_of_windows? (h : s.windows? jobId = some v) : ∃ x ∈ s.windows, x.jobId = jobId := by
  obtain ⟨x, hx, -⟩ := Option.map_eq_some_iff.1 h
  exact ⟨x, List.mem_of_find?_eq_some hx, by simpa using List.find?_some hx⟩

theorem windows_or_gone (hw : w.Inv E) (h : Step E deriveKey w op w')
    (hv : w.store.windows? jobId = some v) :
    w'.store.windows? jobId = some v ∨ w'.Gone jobId := by
  have heff := h.effect
  have hdrawn : jobId ∈ w'.drawn := by
    obtain ⟨x, hx, rfl⟩ := mem_of_windows? hv
    rw [h.drawn]
    exact List.mem_append_right _ (hw.windows x hx)
  have hgone : (∀ j ∈ w'.store.db.jobs, j.jobId ≠ jobId) → w'.Gone jobId := fun hn => ⟨hdrawn, hn⟩
  generalize w'.store = s' at heff hgone ⊢
  cases heff with
  | forceCompleted l now db hdb =>
    by_cases he : jobId = l.jobId
    · refine .inr (hgone fun k hk => ?_)
      rw [(tables_of_completeForceDeletion hdb).1] at hk
      rw [he]
      exact bne_iff_ne.1 (List.mem_filter.1 hk).2
    · exact .inl ((windows?_deleteJob he).trans hv)
  | inserted frozen seen active credentialId t job db s₁ _ _ he =>
    rw [(enroll_eq_some.1 he).2]
    exact .inl hv
  | windowsSet l issuance read now job windows _ hnone =>
    have hne : job.jobId ≠ jobId := fun he => by
      rw [he, hv] at hnone
      cases hnone
    exact .inl ((windows?_cons hne).trans hv)
  | issued op job bundleId candidate credentialId windows now s' _ _ _ _ _ _ hins =>
    obtain ⟨row, hrow, -⟩ := insertFinalCredential_eq_ok hins
    rw [hrow.after]
    exact .inl hv
  | _ => exact .inl hv

def Consumed (w : DrainWorld) (credentialId : Uuid) (path : String) : Prop :=
  credentialId ∈ w.drawn ∧ ∀ r ∈ w.store.drainReads, r.credentialId = credentialId →
    r.guardedPath = path → r.consumedAt.isSome

theorem consumed_of_step (h : Step E deriveKey w op w') {id : Uuid} {path : String}
    (hc : w.Consumed id path) : w'.Consumed id path := by
  refine ⟨?_, fun q hq hid hpath => ?_⟩
  · rw [h.drawn]
    exact List.mem_append_right _ hc.1
  · rcases read_before h.effect hq with ⟨r, hr, hread⟩ | ⟨-, -, hdraws⟩
    · refine hread.consumedAt (hc.2 r hr ?_ ?_)
      · rw [← hread.credentialId, hid]
      · rw [← hread.guardedPath, hpath]
    · refine absurd hc.1 (h.fresh id ?_)
      rw [hdraws, hid]
      exact List.mem_cons_self

end DrainWorld

/-! ## Requests -/

namespace DrainStore

variable {s s' : DrainStore} {op : DrainOperation} {id : Uuid} {bundleId : BundleId}
  {issued : IssuedDeletionCredential} {path : String}

/-- What a request for a final credential has written when it returns one. -/
structure Returns (E : Externals) (deriveKey : AccessCredential → LookupKey) (s : DrainStore)
    (op : DrainOperation) (job : DeletionJob) (windows : FinalAccessWindows) (bundleId : BundleId)
    (issued : IssuedDeletionCredential) : Prop where
  mem : job ∈ s.db.jobs
  set : s.windows? job.jobId = some windows
  expires : issued.expiresAt = windows.readDeadline
  write :
    ((s.finalCredential? job.jobId job.creator bundleId).bind (·.encryptedBearer) =
      some issued.credential ∧ op.run E deriveKey s = some s) ∨
    ((s.finalCredential? job.jobId job.creator bundleId).bind (·.encryptedBearer) = none ∧
      ∃ row now s', FinalInserted deriveKey s job bundleId issued.credential now row s' ∧
        row.expiresAt = windows.readDeadline ∧ op.run E deriveKey s = some s')

variable {job : DeletionJob} {windows : FinalAccessWindows} {drawn : List Uuid}
  {d : DrainCredentialRow}

theorem returns_of_issueFor {creator : CreatorPubky}
    {candidate : AccessCredential} {credentialId : Uuid}
    {now : Timestamp} {may : Bool} (hissuing : s.Issuing job creator windows now)
    (h : s.issueFor E deriveKey job creator bundleId candidate credentialId windows.readDeadline now
      may = .ok (some issued, s')) (hrun : op.run E deriveKey s = some s') :
    s.Returns E deriveKey op job windows bundleId issued := by
  obtain ⟨hmem, rfl, hset, -⟩ := hissuing
  rcases issueFor_cases h with ⟨rfl, hreplay⟩ | ⟨-, -, hresult, hnone, hins⟩
  · obtain ⟨hexp, -, hbearer⟩ := hreplay issued rfl
    exact ⟨hmem, hset, hexp, .inl ⟨hbearer, hrun⟩⟩
  · cases hresult
    obtain ⟨row, hrow, -, hexp⟩ := insertFinalCredential_eq_ok hins
    exact ⟨hmem, hset, rfl, .inr ⟨hnone, row, now, s', hrow, hexp, hrun⟩⟩

/-- **Requests.**  Both ways to a final credential return the stored one, or a
    new one that they store. -/
theorem returns_of_issued? (h : op.issued? E deriveKey s = some (id, bundleId, issued)) :
    ∃ job windows, job.jobId = id ∧ s.Returns E deriveKey op job windows bundleId issued := by
  unfold issued? at h
  split at h
  · split at h
    · rename_i c b candidate credentialId now issued' s₁ hissue
      obtain ⟨job, hjob, he⟩ := Option.map_eq_some_iff.1 h
      cases he
      rcases issueOrReplay_cases hissue with
        ⟨-, hn⟩ | ⟨job', windows, may, hjob', hissuing, -, hfor⟩
      · cases hn
      · rw [hjob] at hjob'
        cases hjob'
        refine ⟨job, windows, rfl, returns_of_issueFor hissuing hfor ?_⟩
        simp only [run, hissue]
        rfl
    · cases h
  · split at h
    · rename_i l c b candidate credentialId now issued' s₁ hissue
      cases h
      rcases issueOrReplayForWorker_cases hissue with
        ⟨-, hn⟩ | ⟨job, windows, hid, hissuing, -, -, hfor⟩
      · cases hn
      · refine ⟨job, windows, hid, returns_of_issueFor hissuing hfor ?_⟩
        simp only [run, hissue]
        rfl
    · cases h
  · cases h

theorem Consistent.finalCredential?_eq (h : s.Consistent E drawn) (hjob : job ∈ s.db.jobs)
    (hd : d ∈ s.drainCredentials) (hkind : d.kind = .final) (hid : d.deletionJobId = job.jobId)
    (hbundle : d.bundleId = bundleId) :
    s.finalCredential? job.jobId job.creator bundleId = some d := by
  cases hfind : s.finalCredential? job.jobId job.creator bundleId with
  | none =>
    obtain ⟨j, hj, hjid, hc⟩ := h.linked.owner d hd
    have hjj : j = job := h.sound.eq_of_jobId hj hjob (hjid.trans hid)
    refine absurd ?_ (List.find?_eq_none.1 hfind d hd)
    simp only [Bool.and_eq_true, beq_iff_eq]
    exact ⟨⟨⟨hid, by rw [← hc, hjj]⟩, hbundle⟩, hkind⟩
  | some e =>
    have he := List.find?_some hfind
    simp only [Bool.and_eq_true, beq_iff_eq] at he
    rw [h.finals.single e (List.mem_of_find?_eq_some hfind) d hd he.2 hkind
      (he.1.1.1.trans hid.symm) (he.1.2.trans hbundle.symm)]

section
variable (h : s.Consistent E drawn) (hr : s.Returns E deriveKey op job windows bundleId issued)
include h hr

theorem Returns.stored (hrun : op.run E deriveKey s = some s') :
    ∃ d ∈ s'.drainCredentials, d.kind = .final ∧ d.deletionJobId = job.jobId ∧
      d.bundleId = bundleId ∧ d.encryptedBearer = some issued.credential ∧
      d.expiresAt = issued.expiresAt := by
  rcases hr.write with ⟨hbearer, hsame⟩ | ⟨-, row, now, s₁, hrow, hexp, hnew⟩
  · obtain ⟨d, hfind, hd⟩ := Option.bind_eq_some_iff.1 hbearer
    have hfound := List.find?_some hfind
    have hmem := List.mem_of_find?_eq_some hfind
    simp only [Bool.and_eq_true, beq_iff_eq] at hfound
    obtain ⟨w, hw, hexp⟩ := (h.finals.final d hmem hfound.2).windows
    rw [hfound.1.1.1, hr.set] at hw
    cases hw
    rw [hsame] at hrun
    cases hrun
    exact ⟨d, hmem, hfound.2, hfound.1.1.1, hfound.1.2, hd, hexp.trans hr.expires.symm⟩
  · rw [hnew] at hrun
    cases hrun
    rw [hrow.after]
    exact ⟨row, List.mem_cons_self, hrow.kind, hrow.ofJob, hrow.bundle, hrow.bearer,
      hexp.trans hr.expires.symm⟩

theorem Returns.eq_stored (hd : d ∈ s.drainCredentials) (hkind : d.kind = .final)
    (hid : d.deletionJobId = job.jobId) (hbundle : d.bundleId = bundleId) :
    d.encryptedBearer = some issued.credential ∧ d.expiresAt = issued.expiresAt := by
  have hfind := h.finalCredential?_eq hr.mem hd hkind hid hbundle
  have hfinal := h.finals.final d hd hkind
  have hexp : d.expiresAt = issued.expiresAt := by
    obtain ⟨w, hw, hexp⟩ := hfinal.windows
    rw [hid, hr.set] at hw
    cases hw
    rw [hexp, hr.expires]
  rcases hr.write with ⟨hbearer, -⟩ | ⟨hnone, -⟩
  · rw [hfind] at hbearer
    exact ⟨hbearer, hexp⟩
  · rw [hfind, Option.bind_some] at hnone
    have := hfinal.bearer
    rw [hnone] at this
    cases this

end

/-- What a consumption rests on: the claim of the read, and the deadline of its
    job. -/
structure Consumes (s : DrainStore) (op : DrainOperation) (id : Uuid) (path : String)
    (token : Uuid) (now : Timestamp) (d : DrainCredentialRow) (r : DrainRead) : Prop where
  op : ∃ key, op = .consumeDeletionRead key path token now ∧ d.lookupKey = key ∧
    s.consumable key path token now r
  credential : d ∈ s.drainCredentials ∧ d.credentialId = id
  deadline : ∃ windows, s.windows? d.deletionJobId = some windows ∧ now < windows.readDeadline
  read : r ∈ s.drainReads ∧ r.credentialId = id ∧ r.guardedPath = path
  claim : r.claimToken = some token ∧ r.claimExpiresAt.any (now < ·)
  open_ : r.consumedAt = none

theorem drainCredential?_eq_some {key : LookupKey} {c : DrainCredential}
    (h : s.credentialStore.drainCredential? key = some c) :
    ∃ d ∈ s.drainCredentials, d.toDrainCredential = c ∧ d.lookupKey = key := by
  obtain ⟨d, hd, he⟩ := List.mem_map.1 (List.mem_of_find?_eq_some h)
  refine ⟨d, hd, he, ?_⟩
  have := List.find?_some h
  rw [← he] at this
  exact beq_iff_eq.1 this

theorem activeDrainJob?_eq_some {jobId : Uuid} {j : DrainJob}
    (h : s.credentialStore.activeDrainJob? jobId = some j) :
    j.job ∈ s.db.jobs ∧ j.job.jobId = jobId ∧ ¬ j.job.state.isTerminal ∧
      j.job.forceRequestedAt = none ∧
      j.finalReadDeadline = (s.windows? jobId).map (·.readDeadline) := by
  obtain ⟨k, hk, rfl⟩ := List.mem_map.1 (List.mem_of_find?_eq_some h)
  have hj := List.find?_some h
  simp only [Bool.and_eq_true, beq_iff_eq, Bool.not_eq_true', Option.isNone_iff_eq_none] at hj
  refine ⟨hk, hj.1.1, by simp [hj.1.2], hj.2, ?_⟩
  rw [hj.1.1]

theorem consumes_of_consumed? (h : op.consumed? s = some (id, path)) :
    ∃ token now d r, s.Consumes op id path token now d r := by
  unfold consumed? at h
  split at h
  · rename_i key path' token now
    split at h
    · rename_i hany
      obtain ⟨c, hc, he⟩ := Option.map_eq_some_iff.1 h
      cases he
      obtain ⟨r, hr, hcons⟩ := List.any_eq_true.1 hany
      have hconsumable := hcons
      simp only [consumable, hc, Option.any_some] at hcons
      obtain ⟨j, hj, hcons⟩ := (Option.any_eq_true _ _).1 hcons
      simp only [Bool.and_eq_true, beq_iff_eq, decide_eq_true_eq,
        Option.isNone_iff_eq_none] at hcons
      obtain ⟨⟨⟨⟨⟨⟨⟨hid, hpath⟩, -⟩, hdeadline⟩, -⟩, htoken⟩, hexp⟩, hopen⟩ := hcons
      obtain ⟨d, hd, rfl, hkey⟩ := drainCredential?_eq_some hc
      obtain ⟨-, -, -, -, hfinal⟩ := activeDrainJob?_eq_some hj
      refine ⟨token, now, d, r, ⟨key, rfl, hkey, hconsumable⟩, ⟨hd, rfl⟩, ?_, ⟨hr, hid, hpath⟩,
        ⟨htoken, hexp⟩, hopen⟩
      rw [hfinal] at hdeadline
      obtain ⟨deadline, hmap, hlt⟩ := (Option.any_eq_true _ _).1 hdeadline
      obtain ⟨windows, hset, rfl⟩ := Option.map_eq_some_iff.1 hmap
      exact ⟨windows, hset, of_decide_eq_true hlt⟩
    · cases h
  · cases h

end DrainStore

/-! ## Runs -/

namespace DrainWorld

variable {w w' : DrainWorld} {op : DrainOperation} {ops : List DrainOperation}

/-- A fact about the system that every transaction keeps, or ends with the
    deletion of a job, holds or has ended after every run. -/
theorem kept_or_gone {P : DrainWorld → Prop} {jobId : Uuid}
    (hstep : ∀ w op w', w.Inv E → Step E deriveKey w op w' → P w → P w' ∨ w'.Gone jobId)
    (hw : w.Inv E) (h : Runs.Run (system E deriveKey) w ops w') (hp : P w) :
    P w' ∨ w'.Gone jobId := by
  refine h.invariant_under (I := Inv E) (P := fun w => P w ∨ w.Gone jobId) hw
    (fun _ _ _ hinv hexec => inv_of_exec hinv hexec) (.inl hp) ?_
  rintro w₁ op w₂ hinv (hp₁ | hg) hexec
  · exact hstep w₁ op w₂ hinv (step_of_exec hexec) hp₁
  · exact .inr (gone_of_step hinv (step_of_exec hexec) hg)

theorem consumed_of_run {id : Uuid} {path : String}
    (h : Runs.Run (system E deriveKey) w ops w') (hc : w.Consumed id path) :
    w'.Consumed id path :=
  h.invariant (I := fun w => w.Consumed id path) hc fun _ _ _ hc hexec =>
    consumed_of_step (step_of_exec hexec) hc

theorem consumed_of_consumes (hw : w.Inv E) (h : Step E deriveKey w op w') {id : Uuid}
    {path : String} (hc : op.consumed? w.store = some (id, path)) : w'.Consumed id path := by
  obtain ⟨token, now, d, r, hcons⟩ := consumes_of_consumed? hc
  have hdrawn : id ∈ w'.drawn := by
    rw [h.drawn]
    exact List.mem_append_right _ (hcons.read.2.1 ▸ hw.consistent.reads r hcons.read.1)
  obtain ⟨key, rfl, -, hconsumable⟩ := hcons.op
  refine ⟨hdrawn, fun q hq hid hpath => ?_⟩
  rw [← Option.some.inj h.run] at hq
  obtain ⟨r₀, hr₀, ⟨-, rfl⟩ | ⟨hno, rfl⟩⟩ := Table.mem_updateWhere.1 hq
  · rfl
  · -- the read of a path with a credential is unique
    have heq : q = r := by
      refine List.inj_on_of_nodup_map hw.consistent.finals.readKeys hr₀ hcons.read.1 ?_
      rw [hid, hpath, hcons.read.2.1, hcons.read.2.2]
    rw [heq, hconsumable] at hno
    cases hno

/-- **Final drain credentials are single and one-shot.**  In every run of the
    credential operations and the deletions:
    * a final credential is the only one of its job and bundle, it expires at the
      read deadline of the job, and its task is completed and eligible;
    * the windows of a job are fixed once they are set;
    * all requests for a job and a bundle are answered with the same bearer and
      expiry;
    * a read is consumed once at most, before the deadline of its job, and with
      the token of the last claim granted on it, while that claim runs. -/
theorem final_credentials (E : Externals) (deriveKey : AccessCredential → LookupKey)
    (clock : Timestamp) (ops : List DrainOperation) (w : DrainWorld)
    (h : Runs.Run (system E deriveKey) (.init clock) ops w) :
    (∀ d ∈ w.store.drainCredentials, d.kind = .final →
      (∀ e ∈ w.store.drainCredentials, e.kind = .final → e.deletionJobId = d.deletionJobId →
        e.bundleId = d.bundleId → e = d) ∧
      (∃ windows, w.store.windows? d.deletionJobId = some windows ∧
        d.expiresAt = windows.readDeadline) ∧
      ∃ o ∈ w.store.obligations, ∃ q ∈ w.store.db.snapshots, o.deletionJobId = d.deletionJobId ∧
        o.bundleId = d.bundleId ∧ o.finalCredentialEligibleAt.isSome ∧
        q.deletionJobId = o.deletionJobId ∧ q.verificationTaskId = o.verificationTaskId ∧
        q.resolvedStatus = some .completed) ∧
    (∀ jobId windows, w.store.windows? jobId = some windows →
      ∀ ops' w', Runs.Run (system E deriveKey) w ops' w' →
      ∀ j ∈ w'.store.db.jobs, j.jobId = jobId → w'.store.windows? jobId = some windows) ∧
    (∀ op w₁ jobId bundleId issued, w.exec E deriveKey op = some w₁ →
      op.issued? E deriveKey w.store = some (jobId, bundleId, issued) →
      (∃ windows, w.store.windows? jobId = some windows ∧
        issued.expiresAt = windows.readDeadline) ∧
      ∀ ops' w' (op' : DrainOperation) issued', Runs.Run (system E deriveKey) w₁ ops' w' →
        op'.issued? E deriveKey w'.store = some (jobId, bundleId, issued') → issued' = issued) ∧
    (∀ op w₁ credentialId path, w.exec E deriveKey op = some w₁ →
      op.consumed? w.store = some (credentialId, path) →
      (∃ key token now, op = .consumeDeletionRead key path token now ∧
        ∃ d ∈ w.store.drainCredentials, d.credentialId = credentialId ∧ d.lookupKey = key ∧
          (∃ windows, w.store.windows? d.deletionJobId = some windows ∧
            now < windows.readDeadline) ∧
          ∃ g, w.latestClaim? credentialId path = some g ∧ g.claimToken = token ∧
            now < g.expiresAt) ∧
      ∀ ops' w' (op' : DrainOperation), Runs.Run (system E deriveKey) w₁ ops' w' →
        op'.consumed? w'.store ≠ some (credentialId, path)) := by
  have hw : w.Inv E := inv_of_drainRun (inv_init clock) h
  have hc := hw.consistent
  refine ⟨fun d hd hkind => ?_, ?_, ?_, ?_⟩
  · obtain ⟨-, hwindows, ⟨o, ho, hj, hb, he⟩, -⟩ := hc.finals.final d hd hkind
    obtain ⟨q, hq, hqj, hqt, hqr⟩ := hc.owed.completed o ho he
    exact ⟨fun e hmem hke => hc.finals.single e hmem d hd hke hkind, hwindows, o, ho, q, hq, hj, hb,
      he, hqj, hqt, hqr⟩
  · intro jobId windows hset ops' w' hrun j hj hid
    have hkept := kept_or_gone (P := fun w => w.store.windows? jobId = some windows)
      (fun _ _ _ hinv hs hv => windows_or_gone hinv hs hv) hw hrun hset
    rcases hkept with hv | hgone
    · exact hv
    · exact absurd hid (hgone.2 j hj)
  · intro op w₁ jobId bundleId issued hexec hissued
    obtain ⟨job, windows, rfl, hreturns⟩ := returns_of_issued? hissued
    refine ⟨⟨windows, hreturns.set, hreturns.expires⟩, fun ops' w' op' issued' hrun hissued' => ?_⟩
    obtain ⟨job', windows', hid', hreturns'⟩ := returns_of_issued? hissued'
    have hw₁ : w₁.Inv E := inv_of_exec hw hexec
    have hw' : w'.Inv E := inv_of_drainRun hw₁ hrun
    obtain ⟨d, hd, hkind, hid, hbundle, hbearer, hexp⟩ :=
      hreturns.stored hc (step_of_exec hexec).run
    have hkept := kept_or_gone (P := fun w => d ∈ w.store.drainCredentials)
      (fun _ _ _ hinv hs hmem => drain_or_gone hinv hs hmem) hw₁ hrun hd
    rcases hkept with hmem | hgone
    · obtain ⟨hbearer', hexp'⟩ := hreturns'.eq_stored hw'.consistent hmem hkind
        (hid.trans hid'.symm) hbundle
      rw [hbearer] at hbearer'
      rw [hexp] at hexp'
      obtain ⟨credential, expiresAt⟩ := issued
      obtain ⟨credential', expiresAt'⟩ := issued'
      cases hbearer'
      cases hexp'
      rfl
    · exact absurd (hid'.trans hid.symm) (hgone.2 job' hreturns'.mem)
  · intro op w₁ credentialId path hexec hconsumed
    have hs := step_of_exec hexec
    obtain ⟨token, now, d, r, hcons⟩ := consumes_of_consumed? hconsumed
    refine ⟨?_, fun ops' w' op' hrun hagain => ?_⟩
    · obtain ⟨key, hop, hkey, -⟩ := hcons.op
      obtain ⟨g, hg, htoken, hexp⟩ := hw.claims r hcons.read.1 token hcons.claim.1
      rw [hcons.read.2.1, hcons.read.2.2] at hg
      have hlt := hcons.claim.2
      rw [hexp, Option.any_some, decide_eq_true_eq] at hlt
      exact ⟨key, token, now, hop, d, hcons.credential.1, hcons.credential.2, hkey, hcons.deadline,
        g, hg, htoken, hlt⟩
    · obtain ⟨token', now', d', r', hcons'⟩ := consumes_of_consumed? hagain
      have hdone := (consumed_of_run hrun (consumed_of_consumes hw hs hconsumed)).2 r'
        hcons'.read.1 hcons'.read.2.1 hcons'.read.2.2
      rw [hcons'.open_] at hdone
      cases hdone

/-- The reader's payment is verified and the entitlement is published. -/
def paidOperations : List DrainOperation :=
  let intent : InvoiceAdmissionIntentV1 :=
    ⟨1, ⟨"creator"⟩, ⟨"bundle"⟩, .of ⟨"creator"⟩ (LockId.fromHash (.replicate 7)), ⟨"reader"⟩, 60⟩
  let l₁ : Lease := ⟨⟨⟨1⟩⟩, "worker", ⟨1⟩⟩
  let l₂ : Lease := ⟨⟨⟨1⟩⟩, "worker", ⟨2⟩⟩
  let entitlement := staticEntitlement ⟨"creator"⟩ ⟨"bundle"⟩ (.replicate 7)
  let claimed : VerificationTaskRecord :=
    { paykitTask with status := .inProgress, startedAt := some 2 }
  let publishing : VerificationTaskRecord :=
    { claimed with status := .publishingEntitlement, entitlementToPublish := some entitlement }
  [.service (.admission (.insertInvoicePendingTask paykitTask intent 0)),
    .service (.statement (.invoiceClaim l₁ (Duration.seconds 30) 0)),
    .service (.statement (.invoiceReady l₁ 1 (Duration.seconds 60) 1)),
    .service (.statement (.v1Claim l₂ 2 (Duration.seconds 60) 2)),
    .service (.statement (.v1Persist l₂ claimed (.publish entitlement) 3)),
    .service (.statement (.v1Persist l₂ publishing (.complete 4) 4))]

/-- The worker claims the deletion and moves it to the next phase. -/
def advanceTo (next : ContentLockDeletionPhase) : List DrainOperation :=
  [.service (.claimNextJob ⟨⟨2⟩, "worker", ⟨3⟩⟩ 60 5),
    .advancePhase ⟨⟨2⟩, "worker", ⟨3⟩⟩ next true 5]

/-- The lock is deleted; the reader gets a final credential and starts a read. -/
def finalReadOperations : List DrainOperation :=
  paidOperations ++
  [.insertJob ⟨2⟩ (staticLock ⟨"creator"⟩) (fun _ => .completed) (fun _ => false) (fun _ => ⟨9⟩)
    5] ++
  advanceTo .startPaymentDrain ++ advanceTo .drainPayments ++
  advanceTo .drainExistingCredentials ++ advanceTo .issueFinalCredentials ++
  [.service (.claimNextJob ⟨⟨2⟩, "worker", ⟨3⟩⟩ 60 5),
    .initializeFinalAccessWindows ⟨⟨2⟩, "worker", ⟨3⟩⟩ 10 10 5,
    .issueOrReplayFinalCredential ⟨"creator"⟩ ⟨"bundle"⟩ ⟨"bearer"⟩ ⟨7⟩ 6,
    .prepareDeletionRead ⟨6⟩ "/priv/app.locks/content/post.json" 5 7 ⟨8⟩]

theorem final_read_consumed : let E := Externals.constant (.replicate 7)
    let deriveKey : AccessCredential → LookupKey := fun c => ⟨c.text.length⟩
    let path := "/priv/app.locks/content/post.json"
    ∃ w w', Runs.execList (DrainWorld.exec E deriveKey) (.init 0) finalReadOperations = some w ∧
      w.exec E deriveKey (.consumeDeletionRead ⟨6⟩ path ⟨8⟩ 8) = some w' ∧
      (∃ d ∈ w.store.drainCredentials, d.kind = .final ∧
        ∃ windows, w.store.windows? d.deletionJobId = some windows ∧
          d.expiresAt = windows.readDeadline) ∧
      ∀ ops' w'' (op' : DrainOperation), Runs.Run (system E deriveKey) w' ops' w'' →
        op'.consumed? w''.store ≠ some (⟨7⟩, path) := by
  intro E deriveKey path
  have h : (Runs.execList (DrainWorld.exec E deriveKey) (.init 0) finalReadOperations).any fun w =>
      (w.exec E deriveKey (.consumeDeletionRead ⟨6⟩ path ⟨8⟩ 8)).isSome &&
        (consumeDeletionRead ⟨6⟩ path ⟨8⟩ 8).consumed? w.store ==
          some (⟨7⟩, path) &&
        w.store.drainCredentials.any (·.kind == .final) := by decide +kernel
  obtain ⟨w, hw, h⟩ := (Option.any_eq_true _ _).1 h
  simp only [Bool.and_eq_true, beq_iff_eq] at h
  obtain ⟨⟨hexec, hconsumed⟩, hfinal⟩ := h
  obtain ⟨w', hw'⟩ := Option.isSome_iff_exists.1 hexec
  obtain ⟨d, hd, hkind⟩ := List.any_eq_true.1 hfinal
  obtain ⟨hsingle, -, -, honce⟩ :=
    final_credentials E deriveKey 0 finalReadOperations w (Runs.run_of_execList _ hw)
  exact ⟨w, w', hw, hw', ⟨d, hd, beq_iff_eq.1 hkind, (hsingle d hd (beq_iff_eq.1 hkind)).2.1⟩,
    (honce _ w' ⟨7⟩ path hw' hconsumed).2⟩

end DrainWorld

end PubkyLocks
