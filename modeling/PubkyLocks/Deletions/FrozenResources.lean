/-
  The enumerations of the resources of a lock agree.

  Publication, reconciliation, the issue of final credentials, the check before a
  deletion and the forced deletion each list the resources of a lock with a loop
  of their own.
-/
import PubkyLocks.Access.Publications
import PubkyLocks.Publishing.CreateContentLock

namespace PubkyLocks

open OrderedMap GuardedResource

section
variable (E : Externals) (lock : ContentLock)

/-- The expected paths of `publication_reconciliation_matches`, a `BTreeSet`. -/
def expectedPaths : List String := sortedUniquePaths (publicationGuardedPaths lock)

/-- The secondary resources of a final credential, each checked again. -/
def checkedSecondaries (invalid : GuardedResourceValidationError → ApplicationError) :
    List (String × SecondaryGuardedResource) → Except ApplicationError (List GuardedResource)
  | [] => .ok []
  | e :: es => do
    let resource ← (new E e.1 e.2.hash e.2.contentType e.2.size).mapError invalid
    return resource :: (← checkedSecondaries invalid es)

/-- The resources a final credential gets read rows for; `invalid` is the error
    of a secondary resource that fails its check. -/
def finalReadResources (invalid : GuardedResourceValidationError → ApplicationError) :
    Except ApplicationError (List GuardedResource) := do
  let secondary ← checkedSecondaries E invalid lock.secondaryResources.entries
  return lock.primaryResource.toList ++ secondary

/-- The map of `verify_frozen_content_with_evidence`: the secondary resources are
    inserted first. -/
def frozenResources : List (String × GuardedResourceHash) :=
  let secondary := lock.secondaryResources.entries.foldl
    (fun m e => insert e.1 e.2.hash m) []
  match lock.primaryResource with
  | none => secondary
  | some p => insert p.path p.hash secondary

def frozenResourcePaths : List String :=
  let secondary := sortedUniquePaths (lock.secondaryResources.entries.map Prod.fst)
  match lock.primaryResource with
  | none => secondary
  | some p => sortedUniquePaths (p.path :: secondary)

end

/-! ## Sets of paths -/

theorem nodup_sortedUniquePaths (paths : List String) : (sortedUniquePaths paths).Nodup :=
  (List.perm_insertionSort _ _).nodup_iff.2 (List.nodup_dedup paths)

theorem sortedUniquePaths_perm {paths : List String} (h : paths.Nodup) :
    (sortedUniquePaths paths).Perm paths :=
  (List.perm_ext_iff_of_nodup (nodup_sortedUniquePaths paths) h).2 fun _ => mem_sortedUniquePaths

variable {lock : ContentLock} {E : Externals}
  {invalid : GuardedResourceValidationError → ApplicationError}

theorem frozenResourcePaths_perm (h : (publicationGuardedPaths lock).Nodup) :
    (frozenResourcePaths lock).Perm (publicationGuardedPaths lock) := by
  unfold frozenResourcePaths
  unfold publicationGuardedPaths at h ⊢
  cases hp : lock.primaryResource with
  | none =>
    rw [hp] at h
    exact sortedUniquePaths_perm h
  | some p =>
    rw [hp] at h
    have hmem : ∀ path, path ∈ sortedUniquePaths (p.path ::
        sortedUniquePaths (lock.secondaryResources.entries.map Prod.fst)) ↔
        path ∈ p.path :: lock.secondaryResources.entries.map Prod.fst := by
      intro path
      rw [mem_sortedUniquePaths, List.mem_cons, List.mem_cons, mem_sortedUniquePaths]
    exact (List.perm_ext_iff_of_nodup (nodup_sortedUniquePaths _) h).2 hmem

/-! ## The map of hashes -/

variable {entries : List (String × SecondaryGuardedResource)}
    {m : List (String × GuardedResourceHash)}

theorem mem_insertAll (hm : Sorted m) (hnodup : (entries.map Prod.fst).Nodup)
    (hnew : ∀ e ∈ entries, ∀ x ∈ m, x.1 ≠ e.1) :
    Sorted (entries.foldl (fun m e => insert e.1 e.2.hash m) m) ∧
      ∀ x, x ∈ entries.foldl (fun m e => insert e.1 e.2.hash m) m ↔
        x ∈ m ∨ ∃ e ∈ entries, x = (e.1, e.2.hash) := by
  induction entries generalizing m with
  | nil => exact ⟨hm, fun x => by simp⟩
  | cons e entries ih =>
    obtain ⟨hhead, htail⟩ := List.nodup_cons.1 hnodup
    have hnew' : ∀ e' ∈ entries, ∀ x ∈ insert e.1 e.2.hash m, x.1 ≠ e'.1 := by
      intro e' he' x hx
      rcases mem_of_mem_insert hx with rfl | hx
      · exact fun he => hhead (he ▸ List.mem_map_of_mem he')
      · exact hnew e' (List.mem_cons_of_mem _ he') x hx
    obtain ⟨hsorted, hmem⟩ := ih (sorted_insert hm) htail hnew'
    refine ⟨hsorted, fun x => ?_⟩
    rw [List.foldl_cons, hmem, mem_insert hm]
    constructor
    · rintro ((rfl | ⟨hx, -⟩) | ⟨e', he', rfl⟩)
      · exact .inr ⟨e, List.mem_cons_self, rfl⟩
      · exact .inl hx
      · exact .inr ⟨e', List.mem_cons_of_mem _ he', rfl⟩
    · rintro (hx | ⟨e', he', rfl⟩)
      · exact .inl (.inr ⟨hx, hnew e List.mem_cons_self x hx⟩)
      · rcases List.mem_cons.1 he' with rfl | he'
        · exact .inl (.inl rfl)
        · exact .inr ⟨e', he', rfl⟩

section
variable (h : ResourcesApart lock.primaryResource lock.secondaryResources)
include h

/-- **The map** has an entry for each resource that is listed. -/
theorem mem_frozenResources : Sorted (frozenResources lock) ∧ ∀ x, x ∈ frozenResources lock ↔
      ∃ r ∈ resourceDescriptors lock, x = (r.path, r.hash) := by
  obtain ⟨hsorted, hmem⟩ := mem_insertAll (m := []) List.Pairwise.nil
    lock.secondaryResources.orderedSorted.nodup (fun _ _ _ hx => absurd hx List.not_mem_nil)
  unfold frozenResources resourceDescriptors
  cases hp : lock.primaryResource with
  | none =>
    refine ⟨hsorted, fun x => ?_⟩
    rw [hmem]
    simp
  | some p =>
    refine ⟨sorted_insert hsorted, fun x => ?_⟩
    rw [mem_insert hsorted, hmem]
    have hne : ∀ e ∈ lock.secondaryResources.entries, e.1 ≠ p.path := by
      intro e he heq
      exact SecondaryResources.get?_eq_none.1 (h p hp) (heq ▸ List.mem_map_of_mem he)
    constructor
    · rintro (rfl | ⟨hx | ⟨e, he, rfl⟩, -⟩)
      · exact ⟨p, List.mem_cons_self, rfl⟩
      · exact absurd hx List.not_mem_nil
      · exact ⟨_, List.mem_cons_of_mem _ (List.mem_map_of_mem he), rfl⟩
    · rintro ⟨r, hr, rfl⟩
      rcases List.mem_cons.1 hr with rfl | hr
      · exact .inl rfl
      · obtain ⟨e, he, rfl⟩ := List.mem_map.1 hr
        exact .inr ⟨.inr ⟨e, he, rfl⟩, hne e he⟩

theorem frozenResources_perm :
    ((frozenResources lock).map Prod.fst).Perm ((resourceDescriptors lock).map (·.path)) := by
  obtain ⟨hsorted, hmem⟩ := mem_frozenResources h
  refine (List.perm_ext_iff_of_nodup hsorted.nodup (nodup_paths h)).2 fun path => ?_
  rw [List.mem_map, List.mem_map]
  constructor
  · rintro ⟨x, hx, rfl⟩
    obtain ⟨r, hr, rfl⟩ := (hmem x).1 hx
    exact ⟨r, hr, rfl⟩
  · rintro ⟨r, hr, rfl⟩
    exact ⟨_, (hmem _).2 ⟨r, hr, rfl⟩, rfl⟩

end

/-! ## Read rows -/

theorem checkedSecondaries_of_valid {entries : List (String × SecondaryGuardedResource)}
    (h : validateSecondaries E entries = .ok ()) :
    checkedSecondaries E invalid entries =
      .ok (entries.map fun e => ⟨e.1, e.2.hash, e.2.contentType, e.2.size⟩) := by
  induction entries with
  | nil => rfl
  | cons e entries ih =>
    unfold validateSecondaries at h
    split at h
    · cases h
    · rename_i r hr
      rw [checkedSecondaries, hr, ih h, (GuardedResource.new_eq_ok hr).1]
      rfl

theorem finalReadResources_eq (h : lock.validateResourceSet E = .ok ()) :
    finalReadResources E lock invalid = .ok (resourceDescriptors lock) := by
  simp only [ContentLock.validateResourceSet, Checks.seq_eq_ok] at h
  obtain ⟨-, -, hsecondary, -⟩ := h
  rw [finalReadResources, checkedSecondaries_of_valid hsecondary]
  rfl

/-! ## The enumerations -/

/-- **The enumerations agree.**  For every validated lock there is a list of
    paths without duplicates such that publication, reconciliation, the rows of
    final reads, the check before a deletion and the forced deletion each go
    through exactly these paths; a path has a resource exactly if it is among
    them, and the resource is the one listed for it.  The lookup in a validated
    version-2 lock follows the same law. -/
theorem enumerations_agree (E : Externals) :
    (∀ lock : ContentLock, lock.validateResourceSet E = .ok () → ∃ P : List String, P.Nodup ∧
      (resourceDescriptors lock).map (·.path) = P ∧
      publicationGuardedPaths lock = P ∧ (expectedPaths lock).Perm P ∧
      (∀ invalid, ∃ resources, finalReadResources E lock invalid = .ok resources ∧
        resources.map (·.path) = P) ∧
      ((frozenResources lock).map Prod.fst).Perm P ∧
      (∀ r ∈ resourceDescriptors lock, (r.path, r.hash) ∈ frozenResources lock) ∧
      (frozenResourcePaths lock).Perm P ∧
      (∀ path, (lock.resourceForPath path).isSome ↔ path ∈ P) ∧
      ∀ path r, lock.resourceForPath path = some r ↔
        r ∈ resourceDescriptors lock ∧ r.path = path) ∧
    ∀ lock : ContentLockV2, lock.validate E = .ok () → ∃ P : List String, P.Nodup ∧
      lock.resources.map (·.path) = P ∧ ∀ v : ValidEntitlement, v.contentLock = .v2 lock →
        (∀ path, (v.resourceForPath path).isSome ↔ path ∈ P) ∧
        ∀ path r, v.resourceForPath path = some r ↔ r ∈ lock.resources ∧ r.path = path := by
  constructor
  · intro lock hv
    have hapart := ContentLock.apart_of_validate hv
    have hpaths := path_resourceDescriptors lock
    have hnodup : (publicationGuardedPaths lock).Nodup := hpaths ▸ nodup_paths hapart
    refine ⟨publicationGuardedPaths lock, hnodup, hpaths, rfl, sortedUniquePaths_perm hnodup,
      fun invalid => ⟨_, finalReadResources_eq hv, hpaths⟩, hpaths ▸ frozenResources_perm hapart,
      fun r hr => ((mem_frozenResources hapart).2 _).2 ⟨r, hr, rfl⟩,
      frozenResourcePaths_perm hnodup, fun path => ?_, fun path r => lookupResource_eq_some hapart⟩
    rw [← hpaths]
    exact isSome_lookupResource hapart
  · intro lock hv
    have hapart := ContentLockV2.apart_of_validate hv
    refine ⟨_, nodup_paths hapart, rfl, fun v hlock => ?_⟩
    have hfor : ∀ path, v.resourceForPath path =
        lookupResource lock.primaryResource lock.secondaryResources path := by
      intro path
      rw [ValidEntitlement.resourceForPath, hlock]
      rfl
    refine ⟨fun path => ?_, fun path r => ?_⟩
    · rw [hfor]
      exact isSome_lookupResource hapart
    · rw [hfor]
      exact lookupResource_eq_some hapart

theorem gallery_enumerated : let E := Externals.constant (.replicate 7)
    let lock := { staticLock ⟨"creator"⟩ with secondaryResources := gallery }
    let lock' := { paymentLock with secondaryResources := gallery }
    ∃ P P' : List String, lock.validateResourceSet E = .ok () ∧ lock'.validate E = .ok () ∧
      P.length = 3 ∧ P'.length = 3 ∧
      publicationGuardedPaths lock = P ∧ ((frozenResources lock).map Prod.fst).Perm P ∧
      (frozenResourcePaths lock).Perm P ∧
      (∀ path, (lock.resourceForPath path).isSome ↔ path ∈ P) ∧
      ∀ path, (ValidEntitlement.resourceForPath ⟨.v2 lock', LockId.fromHash (.replicate 7)⟩
        path).isSome ↔ path ∈ P' := by
  intro E lock lock'
  have hv : lock.validateResourceSet E = .ok () := by decide +kernel
  have hv' : lock'.validate E = .ok () := by decide +kernel
  obtain ⟨P, -, -, rfl, -, -, hfrozen, -, hforced, hlookup, -⟩ := (enumerations_agree E).1 lock hv
  obtain ⟨P', -, rfl, hentitled⟩ := (enumerations_agree E).2 lock' hv'
  exact ⟨_, _, hv, hv', rfl, rfl, rfl, hfrozen, hforced, hlookup, (hentitled _ rfl).1⟩

end PubkyLocks
