/-
  The lookups that answer the exact replay of a submission.

  A submission is looked up by its handle before anything is admitted
  (`find_existing` of `submit_proof_bundle.rs`, the payment lookup of
  `api/verification.rs`, the existing row of `insert_graph_task`).  The stored
  task answers it if it was submitted with the same data, and is a conflict
  otherwise.  None of them looks at deletions.
-/
import PubkyLocks.FoldedAuth.Polling
import PubkyLocks.Store.Readable

namespace PubkyLocks

open TaskRow

open Checks (refuse)

/-! ## Lookups -/

namespace Database

variable (db : Database)

def getVerificationTaskByHandle (c : CreatorPubky) (b : BundleId) :
    Except ApplicationError (Option VerificationTaskRecord) :=
  match (db.tasksOf c b).find? TaskRow.isV1 with
  | none => .ok none
  | some r => r.toRecord.map some

def getPaymentTaskByHandle (c : CreatorPubky) (b : BundleId) :
    Except ApplicationError (Option PaymentTaskRecord) :=
  match (db.tasksOf c b).find? TaskRow.isPayment with
  | none => .ok none
  | some r => (toPaymentTask r).map some

/-- The task found under a handle, if it was submitted with the same data. -/
def exactly {α : Type} (same : α → Bool) : Option α → Except ApplicationError (Option α)
  | none => .ok none
  | some existing => if same existing then .ok (some existing) else .error .verificationTaskConflict

def findExisting (b : SubmittedProofBundle) :
    Except ApplicationError (Option VerificationTaskRecord) := do
  let existing ← db.getVerificationTaskByHandle b.pubkyLockResource.creator b.bundleId
  exactly (fun t => t.submittedProofBundle == b) existing

def findExistingGraphTask (task : GraphTaskRecord) :
    Except ApplicationError (Option GraphTaskRecord) := do
  let existing ← FoldedAuth.getGraphTaskByHandle db task.snapshot.creator task.snapshot.bundleId
  exactly (fun t => t.taskId == task.taskId && (ensureSameBinding t.snapshot task.snapshot).isOk)
    existing

/-- The existing payment task of a submission, in `submit_proof_bundle` of the
    interface. -/
def findExistingPaymentTask (b : SubmittedProofBundleV2) :
    Except ApplicationError (Option PaymentTaskRecord) := do
  let existing ← db.getPaymentTaskByHandle b.pubkyLockResource.creator b.bundleId
  exactly (fun t => t.snapshot.submittedProofBundle == b) existing

/-! ## Replays -/

def HandlesUnique : Prop := (db.tasks.map fun r => (r.creator, r.bundleId)).Nodup

/-- The exact replay of the submission of a stored task finds the task. -/
def Replays (r : TaskRow) : Prop :=
  match r.lane with
  | .v1 => ∃ b t, r.submittedProofBundle = .v1 b ∧ db.findExisting b = .ok (some t) ∧
      t.taskId = r.taskId
  | .graph => ∃ s, r.evaluator = some (.graph s) ∧
      ∀ task : GraphTaskRecord, task.taskId = r.taskId → task.snapshot.binding = s.binding →
        ∃ t, db.findExistingGraphTask task = .ok (some t) ∧ t.taskId = r.taskId
  | .payment => ∃ b t, r.submittedProofBundle = .v2 b ∧
      db.findExistingPaymentTask b = .ok (some t) ∧ t.taskId = r.taskId

variable {db} {r : TaskRow}

theorem find?_tasksOf (hu : db.HandlesUnique) (hr : r ∈ db.tasks) {p : TaskRow → Bool}
    (hp : p r) : (db.tasksOf r.creator r.bundleId).find? p = some r := by
  have hmem : r ∈ db.tasksOf r.creator r.bundleId := Database.mem_tasksOf.2 ⟨hr, rfl, rfl⟩
  cases hfind : (db.tasksOf r.creator r.bundleId).find? p with
  | none => exact absurd hp (List.find?_eq_none.1 hfind r hmem)
  | some q =>
    obtain ⟨hq, hc, hb⟩ := Database.mem_tasksOf.1 (List.mem_of_find?_eq_some hfind)
    rw [List.inj_on_of_nodup_map hu hq hr (Prod.ext hc hb)]

/-- **Every stored task answers its own replay.** -/
theorem replays_of_readable (hs : db.Sound) (hu : db.HandlesUnique) (hr : r ∈ db.tasks)
    (hread : r.Readable) : db.Replays r := by
  unfold Replays
  cases hl : r.lane with
  | v1 =>
    rw [Readable, hl] at hread
    obtain ⟨t, ht, hid, hsub⟩ := hread.exists_toRecord
    obtain ⟨b, hb, hcreator, hbundle⟩ := hread.handle
    cases hsub.symm.trans hb
    refine ⟨_, t, hb, ?_, hid⟩
    have hfind := find?_tasksOf hu hr (isV1_iff.2 hl)
    rw [hcreator, hbundle] at hfind
    simp [findExisting, getVerificationTaskByHandle, hfind, ht, exactly, Except.map, bind,
      Except.bind]
  | graph =>
    rw [Readable, hl] at hread
    obtain ⟨s, hread⟩ := hread
    refine ⟨s, hread.evaluator, fun task hid hb => ?_⟩
    obtain ⟨t, ht, htid, hsnap⟩ :=
      hread.exists_toGraphTask (stateCheck_of_checks (hs.checks r hr))
    have hfind := find?_tasksOf hu hr (isGraph_iff.2 hl)
    have hcreator : task.snapshot.creator = r.creator :=
      (congrArg (·.1) hb).trans hread.handle.1.symm
    have hbundle : task.snapshot.bundleId = r.bundleId :=
      (congrArg (fun b => b.2.1) hb).trans hread.handle.2.1.symm
    have hsame : ensureSameBinding t.snapshot task.snapshot = .ok () :=
      ensureSameBinding_eq_ok.2 (by rw [hsnap, hb])
    refine ⟨t, ?_, htid⟩
    simp [findExistingGraphTask, FoldedAuth.getGraphTaskByHandle, hcreator, hbundle, hfind, ht,
      exactly, Except.map, bind, Except.bind, htid, hid, hsame, Except.isOk, Except.toBool]
  | payment =>
    rw [Readable, hl] at hread
    obtain ⟨s, hread⟩ := hread
    obtain ⟨t, ht, htid, hsnap⟩ := hread.exists_toPaymentTask
    obtain ⟨hcreator, hbundle, -, hsub⟩ := hread.handle
    have hvalid := PaymentTaskSnapshotV1.valid_of_validate hread.valid
    refine ⟨s.submittedProofBundle, t, hsub, ?_, htid⟩
    have hfind := find?_tasksOf hu hr (isPayment_iff.2 hl)
    rw [hcreator, hbundle] at hfind
    simp [findExistingPaymentTask, getPaymentTaskByHandle, hvalid.resource, hvalid.creator,
      hvalid.bundleId, hfind, ht, exactly, Except.map, bind, Except.bind, hsnap]

end Database

end PubkyLocks
