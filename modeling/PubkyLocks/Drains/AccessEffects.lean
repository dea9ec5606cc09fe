/-
  What one transaction does to the access tables.
-/
import PubkyLocks.Drains.AccessDrain

namespace PubkyLocks

open Checks DrainStore Table

/-! ## Reads -/

/-- What a transaction that grants the claim `granted` does to a read. -/
inductive ReadStep (granted : Option GrantedClaim) (r : DrainRead) : DrainRead → Prop
  | kept : (∀ g, granted = some g →
      ¬ (g.credentialId = r.credentialId ∧ g.guardedPath = r.guardedPath)) → ReadStep granted r r
  | cleared : ReadStep granted r { r with claimToken := none, claimExpiresAt := none }
  | claimed (token : Uuid) (expiresAt : Timestamp) :
      granted = some ⟨r.credentialId, r.guardedPath, token, expiresAt⟩ →
      ReadStep granted r { r with claimToken := some token, claimExpiresAt := some expiresAt }
  | consumed (now : Timestamp) : r.consumedAt = none →
      ReadStep granted r
        { r with claimToken := none, claimExpiresAt := none, consumedAt := some now }

variable {g : Option GrantedClaim} {r q : DrainRead} {reads reads' : List DrainRead}

theorem ReadStep.same (h : g = none) : ReadStep g r r :=
  .kept fun _ hg => (by simp [h] at hg)

theorem ReadStep.credentialId (h : ReadStep g r q) : q.credentialId = r.credentialId := by
  cases h <;> rfl

theorem ReadStep.guardedPath (h : ReadStep g r q) : q.guardedPath = r.guardedPath := by
  cases h <;> rfl

theorem ReadStep.consumedAt (h : ReadStep g r q) (hr : r.consumedAt.isSome) :
    q.consumedAt.isSome := by
  cases h with
  | consumed => rfl
  | _ => exact hr

theorem readKeys_of_steps (h : List.Forall₂ (ReadStep g) reads reads') :
    reads'.map (fun r => (r.credentialId, r.guardedPath)) =
      reads.map fun r => (r.credentialId, r.guardedPath) := by
  induction h with
  | nil => rfl
  | cons hstep _ ih => simp only [List.map_cons, ih, hstep.credentialId, hstep.guardedPath]

theorem readSteps_same (h : g = none) : List.Forall₂ (ReadStep g) reads reads :=
  List.forall₂_same.2 fun _ _ => .same h

theorem readSteps_cleared (h : g = none) (p : DrainRead → Bool) :
    List.Forall₂ (ReadStep g) reads (updateWhere p
      (fun r => { r with claimToken := none, claimExpiresAt := none }) reads) :=
  forall₂_updateWhere (fun _ _ _ => .cleared) fun _ _ _ => .same h

theorem readSteps_cleared_twice (h : g = none) (p q : DrainRead → Bool) :
    List.Forall₂ (ReadStep g) reads (updateWhere q
      (fun r => { r with claimToken := none, claimExpiresAt := none }) (updateWhere p
        (fun r => { r with claimToken := none, claimExpiresAt := none }) reads)) := by
  simp only [updateWhere, List.map_map, List.forall₂_map_right_iff]
  refine List.forall₂_same.2 fun r _ => ?_
  simp only [Function.comp_apply]
  by_cases hp : p r
  · simp only [hp, if_true]
    split <;> exact .cleared
  · simp only [hp, Bool.false_eq_true, if_false]
    split
    · exact .cleared
    · exact .same h

/-! ## Authorizations -/

namespace CredentialStore

variable {s : CredentialStore} {key : LookupKey} {path : String} {d : Duration} {now : Timestamp}
  {token : Uuid}

/-- What the authorization of a read rests on: the drain credential of the key
    and its job, which is worked on. -/
structure Authorizes (s : CredentialStore) (key : LookupKey) (path : String) (now : Timestamp)
    (credential : DrainCredential) (job : DrainJob) (a : DeletionReadAuthorization) : Prop where
  drained : s.drainCredential? key = some credential
  active : s.activeDrainJob? credential.deletionJobId = some job
  resource : job.job.frozenContentLock.resourceForPath path = some a.resource
  creator : a.creator = credential.creator
  running : now < credential.expiresAt
  phase : phaseAllowsCredentialAccess job.job.phase credential.kind

variable {result : Except ApplicationError (Option DeletionReadAuthorization)}
  {s' : CredentialStore}

theorem claimFinalRead_cases {job : DrainJob} {credential : DrainCredential}
    {resource : GuardedResource}
    (h : s.claimFinalRead job credential path resource d now token = (result, s')) :
    (s' = s ∧ ∀ a, result ≠ .ok (some a)) ∨
    ∃ read expiresAt, result = .ok (some ⟨some token, credential.creator, resource⟩) ∧
      (s.drainReads.find? fun r => r.credentialId == credential.credentialId &&
        r.guardedPath == path) = some read ∧ read.consumedAt = none ∧ now < credential.expiresAt ∧
      phaseAllowsCredentialAccess job.job.phase .final ∧ job.finalReadDeadline.any (now < ·) ∧
      s' = s.updateReads
        (fun r => r.credentialId == credential.credentialId && r.guardedPath == path)
        fun r => { r with claimToken := some token, claimExpiresAt := some expiresAt } := by
  have hnone : ∀ {x : Except ApplicationError (Option DeletionReadAuthorization) × CredentialStore},
      x = (result, s') → x.2 = s → (∀ a, x.1 ≠ .ok (some a)) →
      (s' = s ∧ ∀ a, result ≠ .ok (some a)) := by
    rintro _ rfl hs ha
    exact ⟨hs, ha⟩
  unfold claimFinalRead at h
  split at h
  · exact .inl (hnone h rfl nofun)
  rename_i read hread
  split at h
  · exact .inl (hnone h rfl nofun)
  rename_i hconsumed
  split at h
  · exact .inl (hnone h rfl nofun)
  rename_i hopen
  simp only [Bool.or_eq_true, decide_eq_true_eq, not_or, Bool.not_eq_true', not_le,
    Bool.not_eq_false] at hopen
  split at h
  · exact .inl (hnone h rfl nofun)
  rename_i readDeadline hdeadline
  split at h
  · exact .inl (hnone h rfl nofun)
  rename_i expiresAt hadd
  dsimp only at h
  split at h
  · exact .inl (hnone h rfl nofun)
  rename_i htime
  simp only [Bool.or_eq_true, decide_eq_true_eq, not_or, not_le] at htime
  cases h
  refine .inr ⟨read, _, rfl, hread, ?_, hopen.1.1, hopen.1.2, ?_, rfl⟩
  · simpa using hconsumed
  · rw [hdeadline]
    exact decide_eq_true htime.1

/-- **Authorizations.**  A read is authorized by a running drain credential of a
    job that is worked on, in a phase that allows it; a final one is claimed. -/
theorem prepareDeletionRead_cases (h : s.prepareDeletionRead key path d now token = (result, s')) :
    (s' = s ∧ ∀ a, result ≠ .ok (some a)) ∨
    ∃ credential job a, result = .ok (some a) ∧ s.Authorizes key path now credential job a ∧
      ((credential.kind = .ordinary ∧ a.claimToken = none ∧ s' = s) ∨
        credential.kind = .final ∧ a.claimToken = some token ∧ ∃ read expiresAt,
          (s.drainReads.find? fun r => r.credentialId == credential.credentialId &&
            r.guardedPath == path) = some read ∧ read.consumedAt = none ∧
          s' = s.updateReads
            (fun r => r.credentialId == credential.credentialId && r.guardedPath == path)
            fun r => { r with claimToken := some token, claimExpiresAt := some expiresAt }) := by
  have hnone : ∀ {x : Except ApplicationError (Option DeletionReadAuthorization) × CredentialStore},
      x = (result, s') → x.2 = s → (∀ a, x.1 ≠ .ok (some a)) →
      (s' = s ∧ ∀ a, result ≠ .ok (some a)) := by
    rintro _ rfl hs ha
    exact ⟨hs, ha⟩
  unfold prepareDeletionRead at h
  split at h
  · exact .inl (hnone h rfl nofun)
  rename_i credential hcredential
  split at h
  · exact .inl (hnone h rfl nofun)
  rename_i job hjob
  split at h
  · exact .inl (hnone h rfl nofun)
  rename_i resource hresource
  split at h
  · rename_i hkind
    split at h
    · exact .inl (hnone h rfl nofun)
    · rename_i hopen
      simp only [Bool.or_eq_true, decide_eq_true_eq, not_or, Bool.not_eq_true', not_le,
        Bool.not_eq_false] at hopen
      cases h
      refine .inr ⟨credential, job, _, rfl, ⟨hcredential, hjob, hresource, rfl, hopen.1, ?_⟩,
        .inl ⟨hkind, rfl, rfl⟩⟩
      rw [hkind]
      exact hopen.2
  · rename_i hkind
    rcases claimFinalRead_cases h with hn | ⟨read, expiresAt, rfl, hread, hc, hexp, hphase, -, rfl⟩
    · exact .inl hn
    · refine .inr ⟨credential, job, _, rfl, ⟨hcredential, hjob, hresource, rfl, hexp, ?_⟩,
        .inr ⟨hkind, rfl, read, expiresAt, hread, hc, rfl⟩⟩
      rw [hkind]
      exact hphase

end CredentialStore

/-! ## Effects -/

/-- A transaction of the service that does nothing to credentials and
    obligations. -/
def Operation.plain : Operation → Bool
  | .insertJob _ _ _ | .completeForceDeletion _ _ | .statement (.drainComplete _ _ _ _) => false
  | _ => true

/-- An advance finds what its phase owes met. -/
def DrainStore.Gate (s : DrainStore) (o : Operation) : Prop :=
  ∀ l next ok now, o = .advancePhase l next ok now → ∀ j, s.db.ownedJob? l now = some j →
    (s.checkAccessObligationsForPhase l.jobId j.phase next now).1 = .ready

/-- The transaction of the service that an operation contains. -/
inductive DrainOperation.Serves : DrainOperation → Operation → Prop
  | service (o : Operation) : (∀ l next ok now, o ≠ .advancePhase l next ok now) →
      Serves (.service o) o
  | advancePhase (l : JobLease) (next : ContentLockDeletionPhase) (completed ok : Bool)
      (now : Timestamp) : Serves (.advancePhase l next completed now) (.advancePhase l next ok now)
  | finish (l : JobLease) (code : Option ContentLockDeletionFailureCode) (completed ok : Bool)
      (now : Timestamp) : Serves (.finish l code completed now) (.finish l code ok now)

inductive DrainEffect (E : Externals) (deriveKey : AccessCredential → LookupKey) (s : DrainStore) :
    DrainOperation → DrainStore → Prop
  | reads (op : DrainOperation) (reads : List DrainRead) :
      List.Forall₂ (ReadStep (op.granted? s)) s.drainReads reads →
      DrainEffect E deriveKey s op { s with drainReads := reads }
  | service (op : DrainOperation) (o : Operation) (db : Database) (reads : List DrainRead) :
      op.granted? s = none → o.run E s.db = some db → o.plain → s.Gate o →
      op.Serves o → List.Forall₂ (ReadStep none) s.drainReads reads →
      DrainEffect E deriveKey s op { s with db, drainReads := reads }
  | drained (l : JobLease) (id : TaskId) (k : Uuid) (now : Timestamp)
      (db : Database) : (Operation.statement (.drainComplete l id k now)).run E s.db = some db →
      DrainEffect E deriveKey s (.service (.statement (.drainComplete l id k now)))
        { s.markEligible l id now with db }
  | forceCompleted (l : JobLease) (now : Timestamp) (db : Database) :
      (Operation.completeForceDeletion l now).run E s.db = some db →
      DrainEffect E deriveKey s (.service (.completeForceDeletion l now))
        { s.deleteJob l.jobId with db }
  | inserted (frozen : ContentLock) (seen : TaskId → VerificationTaskStatus)
      (active : TaskId → Bool) (credentialId : LookupKey → Uuid) (t : Timestamp)
      (job : DeletionJob) (db : Database) (s' : DrainStore) :
      DeletionJob.new E job.jobId frozen t = .ok job →
      (Operation.insertJob job seen t).run E s.db = some db →
      s.enroll job seen active credentialId t = some s' →
      DrainEffect E deriveKey s (.insertJob job.jobId frozen seen active credentialId t)
        { s' with db }
  | credentialInserted (lockId : LockId) (key : LookupKey) (record : AccessCredentialRecord) :
      s.db.deletionCutoff record.creator lockId = false →
      (∀ c ∈ s.credentials, c.lookupKey ≠ key) →
      DrainEffect E deriveKey s (.insertAccessCredential lockId key record)
        { s with credentials := ⟨key, record, none⟩ :: s.credentials }
  | credentialDeleted (key : LookupKey) (expected : AccessCredentialRecord)
      (c : AccessCredentialRow) : s.credential? key = some c → c.deletionJobId = none →
      DrainEffect E deriveKey s (.finishOrdinaryCredentialLookup key expected true)
        (s.deleteCredential key)
  | windowsSet (l : JobLease) (issuance read : Duration) (now : Timestamp) (job : DeletionJob)
      (windows : FinalAccessWindows) : job ∈ s.db.jobs → s.windows? job.jobId = none →
      DrainEffect E deriveKey s (.initializeFinalAccessWindows l issuance read now)
        { s with windows := ⟨job.jobId, windows⟩ :: s.windows }
  | issued (op : DrainOperation) (job : DeletionJob) (bundleId : BundleId)
      (candidate : AccessCredential) (credentialId : Uuid) (windows : FinalAccessWindows)
      (now : Timestamp) (s' : DrainStore) : op.granted? s = none → op.draws E s = [credentialId] →
      job ∈ s.db.jobs → job.phase = .issueFinalCredentials → s.windows? job.jobId = some windows →
      s.hasEligibleSnapshot job.jobId bundleId →
      s.insertFinalCredential E deriveKey job job.creator bundleId candidate credentialId
        windows.readDeadline now = .ok s' →
      DrainEffect E deriveKey s op s'

variable {E : Externals} {deriveKey : AccessCredential → LookupKey} {s s' : DrainStore}

variable {jobId credentialId token : Uuid} {frozen : ContentLock} {t now : Timestamp}
  {job : DeletionJob} {l : JobLease} {ok may : Bool} {o : Operation} {db : Database}
  {key : LookupKey} {result : Option IssuedDeletionCredential} {creator : CreatorPubky}
  {bundleId : BundleId} {candidate : AccessCredential} {windows : FinalAccessWindows}
  {path : String} {op : DrainOperation}

theorem DeletionJob.new_eq_ok (h : DeletionJob.new E jobId frozen t = .ok job) :
    job.jobId = jobId ∧ job.creator = frozen.creator ∧ job.frozenContentLock = frozen ∧
      job.phase = .withdraw := by
  obtain ⟨lockId, -, h⟩ := bind_eq_ok.1 h
  cases h
  exact ⟨rfl, rfl, rfl, rfl⟩

theorem DrainEffect.of_insertJob {seen : TaskId → VerificationTaskStatus} {active : TaskId → Bool}
    {credentialId : LookupKey → Uuid}
    (h : (DrainOperation.insertJob jobId frozen seen active credentialId t).run E deriveKey s =
      some s') :
    DrainEffect E deriveKey s (.insertJob jobId frozen seen active credentialId t) s' := by
  simp only [DrainOperation.run] at h
  split at h
  · cases h
  · rename_i job hjob
    obtain ⟨db, hdb, h⟩ := Option.bind_eq_some_iff.1 h
    obtain ⟨s₁, hs₁, rfl⟩ := Option.map_eq_some_iff.1 h
    obtain ⟨rfl, -⟩ := DeletionJob.new_eq_ok hjob
    exact .inserted frozen seen active credentialId t job db s₁ hjob hdb hs₁

theorem DrainStore.clearClaims_none (jobId : Uuid) : s.clearClaims jobId (fun _ => false) = s := by
  unfold clearClaims
  rw [updateWhere_eq_self]
  intro r _
  exact Bool.and_false _

theorem DrainStore.check_clears (jobId : Uuid) (current next : ContentLockDeletionPhase)
    (now : Timestamp) :
    ∃ p, (s.checkAccessObligationsForPhase jobId current next now).2 = s.clearClaims jobId p := by
  unfold checkAccessObligationsForPhase
  split
  · exact ⟨_, (clearClaims_none jobId).symm⟩
  · exact ⟨_, (clearClaims_none jobId).symm⟩
  · exact ⟨_, rfl⟩
  · exact ⟨_, (clearClaims_none jobId).symm⟩

theorem DrainEffect.of_advancePhase {next : ContentLockDeletionPhase}
    (h : s.advancePhase l next ok now = some s') :
    DrainEffect E deriveKey s (.advancePhase l next ok now) s' := by
  obtain ⟨job, hjob, h⟩ := Option.bind_eq_some_iff.1 h
  split at h
  · cases h
  obtain ⟨p, hp⟩ := check_clears (s := s) l.jobId job.phase next now
  split at h
  · rename_i s₁ hready
    obtain rfl : s₁ = s.clearClaims l.jobId p := by rw [← hp, hready]
    obtain ⟨db, hdb, rfl⟩ := Option.map_eq_some_iff.1 h
    have hgate : ∀ met, s.Gate (.advancePhase l next met now) := by
      rintro met _ _ _ _ ⟨⟩ j hj
      rw [hjob] at hj
      cases hj
      rw [hready]
    dsimp only
    split
    · exact .service _ (.advancePhase l next _ now) db _ rfl hdb rfl (hgate _)
        (.advancePhase l next ok _ now) (readSteps_cleared_twice rfl _ _)
    · exact .service _ (.advancePhase l next _ now) db _ rfl hdb rfl (hgate _)
        (.advancePhase l next ok _ now) (readSteps_cleared rfl _)
  · rename_i s₁ _ hpending
    obtain rfl : s₁ = s.clearClaims l.jobId p := by rw [← hp, hpending]
    cases h
    exact .reads _ _ (readSteps_cleared rfl _)

theorem DrainEffect.of_finish {code : Option ContentLockDeletionFailureCode}
    (h : s.finish l code ok now = some s') :
    DrainEffect E deriveKey s (.finish l code ok now) s' := by
  obtain ⟨db, hdb, rfl⟩ := Option.map_eq_some_iff.1 h
  dsimp only
  split
  · exact .service _ (.finish l code _ now) db _ rfl hdb rfl nofun (.finish l code ok _ now)
      (readSteps_cleared_twice rfl _ _)
  · exact .service _ (.finish l code _ now) db _ rfl hdb rfl nofun (.finish l code ok _ now)
      (readSteps_cleared rfl _)

theorem DrainStore.db_of_after (h : s.after db o = some s') : s'.db = db := by
  unfold after at h
  split at h
  · cases h
  · cases h
  · cases h
  · cases h
    rfl
  · split at h <;> cases h <;> rfl
  · cases h
    rfl
  · cases h
    rfl

theorem DrainEffect.of_service (hdb : o.run E s.db = some db)
    (h : s.after db o = some s') : DrainEffect E deriveKey s (.service o) s' := by
  unfold after at h
  split at h
  · cases h
  · cases h
  · cases h
  · cases h
    exact .drained _ _ _ _ db hdb
  · split at h <;> cases h
    · exact .service _ _ db _ rfl hdb rfl nofun (.service _ nofun) (readSteps_cleared rfl _)
    · exact .service _ _ db _ rfl hdb rfl nofun (.service _ nofun) (readSteps_same rfl)
  · cases h
    exact .forceCompleted _ _ db hdb
  · rename_i hinsert hadvance hfinish hdrain hforce hcomplete
    cases h
    refine .service _ o db _ rfl hdb ?_ ?_ (.service o hadvance) (readSteps_same rfl)
    · unfold Operation.plain
      split
      · exact (hinsert _ _ _ rfl).elim
      · exact (hcomplete _ _ rfl).elim
      · exact (hdrain _ _ _ _ rfl).elim
      · rfl
    · intro l next ok now ho
      exact (hadvance l next ok now ho).elim

theorem DrainEffect.of_insertAccessCredential {lockId : LockId}
    {record : AccessCredentialRecord} (h : s.insertAccessCredential lockId key record = .ok s') :
    DrainEffect E deriveKey s (.insertAccessCredential lockId key record) s' := by
  obtain ⟨hcutoff, h⟩ := seq_eq_ok.1 h
  obtain ⟨hkey, h⟩ := seq_eq_ok.1 h
  cases h
  rw [refuse_eq_ok, Bool.not_eq_true] at hcutoff hkey
  refine .credentialInserted lockId key record hcutoff fun c hc he => ?_
  have hc := List.any_eq_false.1 hkey c hc
  exact hc (beq_iff_eq.2 he)

theorem DrainEffect.of_finishLookup {expected : AccessCredentialRecord} {invalidate : Bool} :
    DrainEffect E deriveKey s (.finishOrdinaryCredentialLookup key expected invalidate)
      (s.finishOrdinaryCredentialLookup key expected invalidate).2 := by
  have hsame : DrainEffect E deriveKey s
      (.finishOrdinaryCredentialLookup key expected invalidate) s :=
    .reads _ s.drainReads (readSteps_same rfl)
  unfold finishOrdinaryCredentialLookup
  split
  · exact hsame
  rename_i row hrow
  split
  · exact hsame
  split
  · exact hsame
  rename_i hunenrolled
  split
  · rename_i hinvalidate
    subst hinvalidate
    exact .credentialDeleted key expected row hrow (by simpa using hunenrolled)
  · exact hsame

theorem DrainEffect.of_windows {issuance read : Duration} {result : Option FinalAccessWindows}
    (h : s.initializeFinalAccessWindows l issuance read now = .ok (result, s')) :
    DrainEffect E deriveKey s (.initializeFinalAccessWindows l issuance read now) s' := by
  have hsame : DrainEffect E deriveKey s (.initializeFinalAccessWindows l issuance read now) s :=
    .reads _ s.drainReads (readSteps_same rfl)
  obtain ⟨-, h⟩ := seq_eq_ok.1 h
  split at h
  · cases h
    exact hsame
  rename_i job hjob
  split at h
  · cases h
    exact hsame
  split at h
  · cases h
    exact hsame
  rename_i hnone
  obtain ⟨issuanceDeadline, -, h⟩ := bind_eq_ok.1 h
  obtain ⟨readDeadline, -, h⟩ := bind_eq_ok.1 h
  cases h
  exact .windowsSet l issuance read now job _ (Database.job?_eq_some hjob).1 hnone

theorem DrainStore.issueFor_cases {expiresAt : Timestamp}
    (h : s.issueFor E deriveKey job creator bundleId candidate credentialId expiresAt now may =
      .ok (result, s')) :
    (s' = s ∧ ∀ issued, result = some issued → issued.expiresAt = expiresAt ∧
      s.hasEligibleSnapshot job.jobId bundleId ∧
      (s.finalCredential? job.jobId creator bundleId).bind (·.encryptedBearer) =
        some issued.credential) ∨
    (may ∧ s.hasEligibleSnapshot job.jobId bundleId ∧ result = some ⟨candidate, expiresAt⟩ ∧
      (s.finalCredential? job.jobId creator bundleId).bind (·.encryptedBearer) = none ∧
      s.insertFinalCredential E deriveKey job creator bundleId candidate credentialId expiresAt now =
        .ok s') := by
  unfold issueFor at h
  split at h
  · cases h
    exact .inl ⟨rfl, nofun⟩
  rename_i heligible
  split at h
  · rename_i credential hfound
    cases h
    refine .inl ⟨rfl, ?_⟩
    rintro _ ⟨⟩
    exact ⟨rfl, by simpa using heligible, hfound⟩
  · rename_i hfound
    split at h
    · cases h
      exact .inl ⟨rfl, nofun⟩
    · rename_i hmay
      obtain ⟨s₁, hs₁, h⟩ := bind_eq_ok.1 h
      cases h
      exact .inr ⟨by simpa using hmay, by simpa using heligible, rfl, hfound, hs₁⟩

theorem DrainStore.issueJob?_eq_some (h : s.issueJob? creator bundleId = some job) :
    job ∈ s.db.jobs ∧ job.creator = creator := by
  refine ⟨List.mem_of_find?_eq_some h, ?_⟩
  have := List.find?_some h
  simp only [Bool.and_eq_true, beq_iff_eq] at this
  exact this.1.1.1.1

theorem DrainStore.workerIssueJob?_eq_some
    (h : s.workerIssueJob? l creator now = some (job, windows)) :
    job ∈ s.db.jobs ∧ job.jobId = l.jobId ∧ s.windows? job.jobId = some windows ∧
      job.creator = creator ∧
      job.ownsLiveDrainClaim l.workerId l.claimToken now .issueFinalCredentials ∧
      now < windows.credentialIssuanceDeadline ∧ now < windows.readDeadline := by
  obtain ⟨j, hj, h⟩ := Option.bind_eq_some_iff.1 h
  obtain ⟨w, hw, h⟩ := Option.bind_eq_some_iff.1 h
  split at h
  · rename_i hc
    cases h
    simp only [Bool.and_eq_true, decide_eq_true_eq] at hc
    obtain ⟨hmem, hid⟩ := Database.job?_eq_some hj
    exact ⟨hmem, hid, hw, hc.1.1.1, hc.1.1.2, hc.1.2, hc.2⟩
  · cases h

/-- What both ways to a final credential have found when they end. -/
structure DrainStore.Issuing (s : DrainStore) (job : DeletionJob) (creator : CreatorPubky)
    (windows : FinalAccessWindows) (now : Timestamp) : Prop where
  mem : job ∈ s.db.jobs
  own : job.creator = creator
  set : s.windows? job.jobId = some windows
  open_ : now < windows.readDeadline

theorem DrainStore.issueOrReplay_cases
    (h : s.issueOrReplayFinalCredential E deriveKey creator bundleId candidate credentialId now =
      .ok (result, s')) :
    (s' = s ∧ result = none) ∨ ∃ job windows may, s.issueJob? creator bundleId = some job ∧
      s.Issuing job creator windows now ∧
      (may = true → job.phase = .issueFinalCredentials ∧
        now < windows.credentialIssuanceDeadline) ∧
      s.issueFor E deriveKey job creator bundleId candidate credentialId windows.readDeadline now
        may = .ok (result, s') := by
  unfold issueOrReplayFinalCredential at h
  split at h
  · cases h
    exact .inl ⟨rfl, rfl⟩
  rename_i job hjob
  obtain ⟨windows, hwindows, h⟩ := bind_eq_ok.1 h
  rw [okOr_eq_ok] at hwindows
  split at h
  · cases h
    exact .inl ⟨rfl, rfl⟩
  rename_i hopen
  obtain ⟨hmem, hc⟩ := issueJob?_eq_some hjob
  refine .inr ⟨job, windows, _, hjob, ⟨hmem, hc, hwindows, not_le.1 hopen⟩, ?_, h⟩
  intro hmay
  rw [Bool.and_eq_true, decide_eq_true_eq, decide_eq_true_eq] at hmay
  exact hmay

theorem DrainStore.issueOrReplayForWorker_cases
    (h : s.issueOrReplayFinalCredentialForWorker E deriveKey l creator bundleId candidate
      credentialId now = .ok (result, s')) :
    (s' = s ∧ result = none) ∨ ∃ job windows, job.jobId = l.jobId ∧
      s.Issuing job creator windows now ∧
      job.ownsLiveDrainClaim l.workerId l.claimToken now .issueFinalCredentials ∧
      now < windows.credentialIssuanceDeadline ∧
      s.issueFor E deriveKey job creator bundleId candidate credentialId windows.readDeadline now
        true = .ok (result, s') := by
  unfold issueOrReplayFinalCredentialForWorker at h
  split at h
  · cases h
    exact .inl ⟨rfl, rfl⟩
  · rename_i job windows hjob
    obtain ⟨hmem, hid, hwindows, hc, howns, hissue, hopen⟩ := workerIssueJob?_eq_some hjob
    exact .inr ⟨job, windows, hid, ⟨hmem, hc, hwindows, hopen⟩, howns, hissue, h⟩

theorem DrainEffect.of_prepare {d : Duration} :
    DrainEffect E deriveKey s (.prepareDeletionRead key path d now token)
      (s.prepareDeletionRead key path d now token).2 := by
  cases hp : s.credentialStore.prepareDeletionRead key path d now token with
  | mk result store =>
  have hstore : s.prepareDeletionRead key path d now token =
      (result, { s with drainReads := store.drainReads }) := by
    unfold prepareDeletionRead
    rw [hp]
  rw [hstore]
  refine .reads _ store.drainReads ?_
  have hnone : store = s.credentialStore →
      (∀ t c r, result ≠ .ok (some ⟨some t, c, r⟩)) →
      List.Forall₂ (ReadStep ((DrainOperation.prepareDeletionRead key path d now token).granted? s))
        s.drainReads store.drainReads := by
    rintro rfl hresult
    refine readSteps_same ?_
    simp only [DrainOperation.granted?, hstore]
    split
    · rename_i heq _
      injection heq with heq
      exact (hresult _ _ _ heq).elim
    · rfl
  rcases CredentialStore.prepareDeletionRead_cases hp with ⟨hs, hn⟩ |
    ⟨credential, job, a, rfl, hauth, ⟨-, htoken, hs⟩ | ⟨-, htoken, read, expiresAt, hread, -, rfl⟩⟩
  · exact hnone hs fun _ _ _ => hn _
  · refine hnone hs fun t c r he => ?_
    cases he
    cases htoken
  · have hgranted : (DrainOperation.prepareDeletionRead key path d now token).granted? s =
        some ⟨credential.credentialId, path, token, expiresAt⟩ := by
      obtain ⟨claimToken, creator, resource⟩ := a
      cases htoken
      have hfind := find?_updateWhere (l := s.drainReads)
        (p := fun r => r.credentialId == credential.credentialId && r.guardedPath == path)
        (f := fun r => { r with claimToken := some token, claimExpiresAt := some expiresAt })
        fun _ hr => hr
      rw [show s.drainReads.find? _ = some read from hread] at hfind
      simp only [DrainOperation.granted?, hstore, hauth.drained, CredentialStore.updateReads]
      erw [hfind]
      rfl
    rw [hgranted]
    refine forall₂_updateWhere (fun r _ hr => ?_) fun r _ hr => .kept ?_
    · rw [Bool.and_eq_true, beq_iff_eq, beq_iff_eq] at hr
      refine .claimed token expiresAt ?_
      rw [hr.1, hr.2]
    · rintro _ ⟨⟩ ⟨hid, hpath⟩
      simp [← hid, ← hpath] at hr

theorem DrainEffect.of_release : DrainEffect E deriveKey s (.releaseDeletionRead key path token)
      (s.releaseDeletionRead key path token) := by
  refine .reads _ _ ?_
  unfold CredentialStore.releaseDeletionRead
  split
  · exact readSteps_same rfl
  split
  · exact readSteps_same rfl
  · exact readSteps_cleared rfl _

theorem DrainEffect.of_consume : DrainEffect E deriveKey s (.consumeDeletionRead key path token now)
      (s.consumeDeletionRead key path token now).2 := by
  refine .reads _ _ (forall₂_updateWhere (fun r _ hr => ?_) fun _ _ _ => .same rfl)
  obtain ⟨d, -, hr⟩ := (Option.any_eq_true _ _).1 hr
  obtain ⟨j, -, hr⟩ := (Option.any_eq_true _ _).1 hr
  rw [Bool.and_eq_true] at hr
  exact .consumed now (Option.isNone_iff_eq_none.1 hr.2)

theorem DrainEffect.of_issueFor (hgranted : op.granted? s = none)
    (hdraws : op.draws E s = [credentialId]) (hissuing : s.Issuing job creator windows now)
    (hmay : may = true → job.phase = .issueFinalCredentials)
    (h : s.issueFor E deriveKey job creator bundleId candidate credentialId windows.readDeadline now
      may = .ok (result, s')) : DrainEffect E deriveKey s op s' := by
  rcases issueFor_cases h with ⟨rfl, -⟩ | ⟨hm, heligible, -, -, hinsert⟩
  · exact .reads _ s'.drainReads (readSteps_same hgranted)
  · obtain ⟨hmem, rfl, hset, -⟩ := hissuing
    exact .issued op job bundleId candidate credentialId windows now s' hgranted hdraws hmem
      (hmay hm) hset heligible hinsert

/-- **Effects.**  What a transaction does to the tables. -/
theorem effect_of_drainRun (h : op.run E deriveKey s = some s') :
    DrainEffect E deriveKey s op s' := by
  cases op with
  | service o =>
    obtain ⟨db, hdb, h⟩ := Option.bind_eq_some_iff.1 h
    exact .of_service hdb h
  | insertJob => exact .of_insertJob h
  | advancePhase => exact .of_advancePhase h
  | finish => exact .of_finish h
  | insertAccessCredential => exact .of_insertAccessCredential (toOption_eq_some.1 h)
  | finishOrdinaryCredentialLookup =>
    cases h
    exact .of_finishLookup
  | initializeFinalAccessWindows =>
    obtain ⟨⟨result, s₁⟩, hr, rfl⟩ := Option.map_eq_some_iff.1 h
    exact .of_windows (toOption_eq_some.1 hr)
  | issueOrReplayFinalCredential c b candidate id now =>
    obtain ⟨⟨result, s₁⟩, hr, rfl⟩ := Option.map_eq_some_iff.1 h
    rcases issueOrReplay_cases (toOption_eq_some.1 hr) with
      ⟨rfl, -⟩ | ⟨job, windows, may, -, hissuing, hmay, h⟩
    · exact .reads _ s₁.drainReads (readSteps_same rfl)
    · exact .of_issueFor rfl rfl hissuing (fun hm => (hmay hm).1) h
  | issueOrReplayFinalCredentialForWorker l c b candidate id now =>
    obtain ⟨⟨result, s₁⟩, hr, rfl⟩ := Option.map_eq_some_iff.1 h
    rcases issueOrReplayForWorker_cases (toOption_eq_some.1 hr) with
      ⟨rfl, -⟩ | ⟨job, windows, -, hissuing, howns, -, h⟩
    · exact .reads _ s₁.drainReads (readSteps_same rfl)
    · exact .of_issueFor rfl rfl hissuing (fun _ => (Database.running_of_drainClaim howns).2.1)
        h
  | prepareDeletionRead =>
    cases h
    exact .of_prepare
  | releaseDeletionRead =>
    cases h
    exact .of_release
  | consumeDeletionRead =>
    cases h
    exact .of_consume

end PubkyLocks
