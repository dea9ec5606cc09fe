/-
  The service on its database: every transaction that writes a modelled table,
  one after the other.
-/
import PubkyLocks.Lanes.Frames
import PubkyLocks.Lib.Runs
import PubkyLocks.Store.Admissions
import PubkyLocks.Store.Deletions

namespace PubkyLocks

/-! ## Statements -/

def resolveSnapshot (snapshots : List TaskSnapshotRow) (jobId : Uuid) (id : TaskId)
    (status : VerificationTaskStatus) : Option (List TaskSnapshotRow) :=
  let unresolved := fun s : TaskSnapshotRow =>
    s.deletionJobId == jobId && s.verificationTaskId == id && s.resolvedStatus.isNone
  if snapshots.any unresolved then
    some (Table.updateWhere unresolved (fun s => { s with resolvedStatus := some status }) snapshots)
  else none

namespace TaskStatement

/-- The statement is issued on its own; `freeze` and `expireUnresolved` are part
    of larger transactions. -/
def standsAlone : TaskStatement → Bool
  | freeze _ _ _ | expireUnresolved _ _ => false
  | _ => true

/-- The snapshot rows after the transaction of the statement: the end of a
    drained payment and a failed invoice admission resolve one. -/
def snapshotsAfter (db : Database) : TaskStatement → Option (List TaskSnapshotRow)
  | drainComplete l id _ _ => resolveSnapshot db.snapshots l.jobId id .completed
  | drainExpire l id _ _ _ => resolveSnapshot db.snapshots l.jobId id .expired
  | invoiceFail l _ _ =>
    match (db.task? l.taskId).bind (·.deletionJobId) with
    | some jobId => resolveSnapshot db.snapshots jobId l.taskId .failed
    | none => some db.snapshots
  | _ => some db.snapshots

def run (db : Database) (st : TaskStatement) : Option Database :=
  if st.standsAlone && db.tasks.any (st.update db).guard then
    match st.snapshotsAfter db, db.updateTasks (st.update db) with
    | some snapshots, some db => some { db with snapshots }
    | _, _ => none
  else none

def dbNow? : TaskStatement → Option Timestamp
  | v1Claim _ _ _ t | v1Retry _ _ _ t | v1Persist _ _ _ t | invoiceClaim _ _ t
  | invoiceReady _ _ _ t | invoiceRetry _ _ t | invoiceFail _ _ t | graphClaim _ _ _ t
  | graphPersist _ _ _ _ t | graphRetry _ _ _ _ _ t | graphComplete _ _ _ t | paymentClaim _ _ _ t
  | paymentPersist _ _ _ _ t | paymentRetry _ _ _ t | paymentComplete _ _ _ t
  | drainBegin _ _ _ _ t | drainComplete _ _ _ t | drainExpire _ _ _ _ t
  | expireUnresolved _ t => some t
  | graphRelease _ | paymentRelease _ | freeze _ _ _ => none

end TaskStatement

/-! ## Operations -/

inductive Operation where
  | admission (a : Admission)
  | statement (st : TaskStatement)
  | attempt (st : AttemptStatement)
  | beginPublication (creator : CreatorPubky) (lockId : LockId)
  | endPublication (creator : CreatorPubky) (lockId : LockId)
  | insertJob (job : DeletionJob) (seen : TaskId → VerificationTaskStatus)
      (admissionCutoff : Timestamp)
  | claimNextJob (l : JobLease) (claimTtl : Duration) (now : Timestamp)
  | scheduleJobRetry (l : JobLease) (retryAfter : Duration) (now : Timestamp)
  | deferJob (l : JobLease) (deferFor : Duration) (now : Timestamp)
  | advancePhase (l : JobLease) (next : ContentLockDeletionPhase) (obligationsMet : Bool)
      (now : Timestamp)
  | finish (l : JobLease) (failureCode : Option ContentLockDeletionFailureCode)
      (obligationsMet : Bool) (now : Timestamp)
  | failGracefulWithdrawal (jobId : Uuid) (failureCode : ContentLockDeletionFailureCode)
  | resumeFailedJob (creator : CreatorPubky) (lockId : LockId)
  | expireUnresolvedTasks (l : JobLease) (now : Timestamp)
  | prepareForceDeletion (creator : CreatorPubky) (lockId : LockId)
      (manifest : Option ContentLock) (now : Timestamp)
  | completeSynchronousForceDeletion (creator : CreatorPubky) (lockId : LockId)
      (completedAt : Timestamp)
  | completeForceDeletion (l : JobLease) (now : Timestamp)

namespace Operation

/-- The tables after the transaction; `none` if it writes nothing. -/
def run (E : Externals) (db : Database) : Operation → Option Database
  | admission a => a.program.run db
  | statement st => st.run db
  | attempt st => (st.run db.attempts).map fun attempts => { db with attempts }
  | beginPublication c l =>
    if db.deletionCutoff c l || db.hasIntent c l then none
    else some { db with intents := ⟨c, l⟩ :: db.intents }
  | endPublication c l =>
    some { db with intents := db.intents.filter fun i => !(i.creator == c && i.lockId == l) }
  | insertJob job seen t => Deletion.insertJob E db job seen t
  | claimNextJob l ttl now => Deletion.claimNextJob db l ttl now
  | scheduleJobRetry l d now => Deletion.scheduleJobRetry db l d now
  | deferJob l d now => Deletion.deferJob db l d now
  | advancePhase l next ok now => Deletion.advancePhase db l next ok now
  | finish l code ok now => Deletion.finish db l code ok now
  | failGracefulWithdrawal id code => Deletion.failGracefulWithdrawal db id code
  | resumeFailedJob c l => Deletion.resumeFailedJob db c l
  | expireUnresolvedTasks l now => Deletion.expireUnresolvedTasks db l now
  | prepareForceDeletion c l manifest now => Deletion.prepareForceDeletion db c l manifest now
  | completeSynchronousForceDeletion c l t => Deletion.completeSynchronousForceDeletion db c l t
  | completeForceDeletion l now => Deletion.completeForceDeletion db l now

/-- The database time the transaction reads, if it reads one.  The completion of
    a synchronous force deletion is given the application's time. -/
def dbNow? : Operation → Option Timestamp
  | admission a => a.dbNow?
  | statement st => st.dbNow?
  | attempt (.markPollDispatched _ _ t) | attempt (.renewPollDispatch _ _ t)
  | attempt (.confirmNotAttempted _ _ t) | attempt (.confirmPendingGeneration _ _ t)
  | attempt (.requireRestart _ _ t) | attempt (.expire _ _ t)
  | attempt (.purgeTerminalBefore t) => some t
  | insertJob _ _ t | claimNextJob _ _ t | scheduleJobRetry _ _ t | deferJob _ _ t
  | advancePhase _ _ _ t | finish _ _ _ t | expireUnresolvedTasks _ t
  | prepareForceDeletion _ _ _ t | completeForceDeletion _ t => some t
  | beginPublication _ _ | endPublication _ _ | failGracefulWithdrawal _ _
  | resumeFailedJob _ _ | completeSynchronousForceDeletion _ _ _ => none

def writesJobs : Operation → Bool
  | insertJob .. | claimNextJob .. | scheduleJobRetry .. | deferJob .. | advancePhase ..
  | finish .. | failGracefulWithdrawal .. | resumeFailedJob .. | prepareForceDeletion ..
  | completeForceDeletion .. => true
  | _ => false

def writesReceipts : Operation → Bool
  | prepareForceDeletion .. | completeSynchronousForceDeletion .. | completeForceDeletion .. => true
  | _ => false

/-- The transaction is neither an admission nor a statement on attempts. -/
def apartFromAttempts : Operation → Bool
  | admission _ | attempt _ => false
  | _ => true

/-- **Frame.**  A table that a transaction does not write stays as it is. -/
theorem tables_of_run {E : Externals} {db db' : Database} {op : Operation}
    (h : op.run E db = some db') :
    (op.writesJobs = false → db'.jobs = db.jobs) ∧
      (op.writesReceipts = false → db'.receipts = db.receipts) ∧
      (op.apartFromAttempts → db'.attempts = db.attempts) := by
  cases op with
  | admission a =>
    rcases Admission.run_spec h with ⟨r, -, -, attempts, rfl⟩ | ⟨attempts, rfl⟩ <;>
      exact ⟨fun _ => rfl, fun _ => rfl, nofun⟩
  | attempt st =>
    obtain ⟨attempts, -, rfl⟩ := Option.map_eq_some_iff.1 h
    exact ⟨fun _ => rfl, fun _ => rfl, nofun⟩
  | statement st =>
    simp only [run, TaskStatement.run] at h
    split at h
    · split at h
      · rename_i hupd
        obtain ⟨-, rfl⟩ := Database.updateTasks_eq_some.1 hupd
        cases h
        exact ⟨fun _ => rfl, fun _ => rfl, fun _ => rfl⟩
      · cases h
    · cases h
  | insertJob job seen t =>
    simp only [run, Deletion.insertJob] at h
    split at h
    · obtain ⟨-, rfl⟩ := Database.updateTasks_eq_some.1 h
      exact ⟨nofun, fun _ => rfl, fun _ => rfl⟩
    · cases h
  | expireUnresolvedTasks l now =>
    simp only [run, Deletion.expireUnresolvedTasks] at h
    split at h
    · obtain ⟨db₁, hupd, rfl⟩ := Option.map_eq_some_iff.1 h
      obtain ⟨-, rfl⟩ := Database.updateTasks_eq_some.1 hupd
      exact ⟨fun _ => rfl, fun _ => rfl, fun _ => rfl⟩
    · cases h
  | prepareForceDeletion c l manifest now =>
    simp only [run, Deletion.prepareForceDeletion] at h
    unfold Deletion.forcePrepared at h
    split at h <;> cases h <;> exact ⟨nofun, nofun, fun _ => rfl⟩
  | beginPublication c l =>
    simp only [run] at h
    split at h <;> cases h
    exact ⟨fun _ => rfl, fun _ => rfl, fun _ => rfl⟩
  | endPublication c l =>
    cases h
    exact ⟨fun _ => rfl, fun _ => rfl, fun _ => rfl⟩
  | completeSynchronousForceDeletion c l t =>
    simp only [run, Deletion.completeSynchronousForceDeletion] at h
    split at h <;> cases h
    exact ⟨fun _ => rfl, nofun, fun _ => rfl⟩
  | completeForceDeletion l now =>
    simp only [run, Deletion.completeForceDeletion] at h
    repeat' split at h
    all_goals cases h
    exact ⟨nofun, nofun, fun _ => rfl⟩
  | _ =>
    simp only [run, Deletion.claimNextJob, Deletion.scheduleJobRetry, Deletion.deferJob,
      Deletion.advancePhase, Deletion.finish, Deletion.failGracefulWithdrawal,
      Deletion.resumeFailedJob] at h
    repeat' split at h
    all_goals cases h
    all_goals exact ⟨nofun, fun _ => rfl, fun _ => rfl⟩

end Operation

end PubkyLocks
