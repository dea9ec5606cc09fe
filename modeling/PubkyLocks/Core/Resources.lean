/-
  The guarded resources of a lock, listed and looked up.

  Both versions of a lock hold an optional primary resource and a map of
  secondary ones, and validation keeps the two apart.
-/
import PubkyLocks.Core.LockPolicy
import PubkyLocks.Lib.OrderedMap
import Mathlib.Algebra.Ring.Nat

namespace PubkyLocks

open SecondaryResources

namespace SecondaryResources

variable {m : SecondaryResources} {k : String} {r : SecondaryGuardedResource}

theorem orderedSorted (m : SecondaryResources) : OrderedMap.Sorted m.entries :=
  OrderedMap.sorted_iff.2 m.sorted

theorem get?_eq_some : m.get? k = some r ↔ (k, r) ∈ m.entries :=
  OrderedMap.get?_eq_some m.orderedSorted

theorem get?_eq_none : m.get? k = none ↔ k ∉ m.entries.map Prod.fst := by
  rw [Option.eq_none_iff_forall_ne_some]
  simp only [ne_eq, get?_eq_some, List.mem_map, Prod.exists, exists_and_right, exists_eq_right,
    not_exists]

end SecondaryResources

/-! ## Both versions -/

def listedResources (primary : Option GuardedResource) (secondary : SecondaryResources) :
    List GuardedResource :=
  primary.toList ++ secondary.entries.map fun e => ⟨e.1, e.2.hash, e.2.contentType, e.2.size⟩

def lookupResource (primary : Option GuardedResource) (secondary : SecondaryResources)
    (path : String) : Option GuardedResource :=
  match primary with
  | some p => if p.path = path then some p
    else (secondary.get? path).map fun r => ⟨path, r.hash, r.contentType, r.size⟩
  | none => (secondary.get? path).map fun r => ⟨path, r.hash, r.contentType, r.size⟩

def ResourcesApart (primary : Option GuardedResource) (secondary : SecondaryResources) : Prop :=
  ∀ p, primary = some p → secondary.get? p.path = none

variable {primary : Option GuardedResource} {secondary : SecondaryResources} {path : String}
  {r : GuardedResource}

theorem map_path_listedResources (primary : Option GuardedResource)
    (secondary : SecondaryResources) :
    (listedResources primary secondary).map (·.path) =
      (primary.map (·.path)).toList ++ secondary.entries.map Prod.fst := by
  cases primary <;> simp [listedResources, Function.comp_def]

theorem nodup_paths (h : ResourcesApart primary secondary) :
    ((listedResources primary secondary).map (·.path)).Nodup := by
  rw [map_path_listedResources]
  cases primary with
  | none => exact secondary.orderedSorted.nodup
  | some p =>
    exact List.nodup_cons.2 ⟨get?_eq_none.1 (h p rfl),
      secondary.orderedSorted.nodup⟩

theorem secondary_eq_some :
    (secondary.get? path).map (fun r => (⟨path, r.hash, r.contentType, r.size⟩ : GuardedResource)) =
        some r ↔
      r ∈ secondary.entries.map (fun e => ⟨e.1, e.2.hash, e.2.contentType, e.2.size⟩) ∧
        r.path = path := by
  rw [Option.map_eq_some_iff, List.mem_map]
  constructor
  · rintro ⟨s, hs, rfl⟩
    exact ⟨⟨_, get?_eq_some.1 hs, rfl⟩, rfl⟩
  · rintro ⟨⟨⟨k, s⟩, hs, rfl⟩, rfl⟩
    exact ⟨s, get?_eq_some.2 hs, rfl⟩

/-- **Lookup finds what is listed**: a resource is found at a path exactly if it
    is listed with this path. -/
theorem lookupResource_eq_some (h : ResourcesApart primary secondary) :
    lookupResource primary secondary path = some r ↔
      r ∈ listedResources primary secondary ∧ r.path = path := by
  unfold lookupResource listedResources
  cases primary with
  | none => exact secondary_eq_some
  | some p =>
    dsimp only
    rw [Option.toList_some, List.singleton_append, List.mem_cons]
    by_cases hp : p.path = path
    · -- no secondary resource has the path of the primary one
      rw [if_pos hp, Option.some.injEq]
      constructor
      · rintro rfl
        exact ⟨.inl rfl, hp⟩
      · rintro ⟨rfl | hr, hpath⟩
        · rfl
        · have hfound := secondary_eq_some.2 ⟨hr, hpath⟩
          rw [← hp, h p rfl] at hfound
          cases hfound
    · rw [if_neg hp, secondary_eq_some]
      constructor
      · rintro ⟨hr, hpath⟩
        exact ⟨.inr hr, hpath⟩
      · rintro ⟨rfl | hr, hpath⟩
        · exact absurd hpath hp
        · exact ⟨hr, hpath⟩

theorem isSome_lookupResource (h : ResourcesApart primary secondary) :
    (lookupResource primary secondary path).isSome ↔
      path ∈ (listedResources primary secondary).map (·.path) := by
  rw [Option.isSome_iff_exists, List.mem_map]
  exact exists_congr fun r => lookupResource_eq_some h

/-! ## Validated locks -/

theorem ContentLock.validateResourceSet_eq_ok {E : Externals} {lock : ContentLock} :
    lock.validateResourceSet E = .ok () ↔ lock.resourceCount ≠ 0 ∧
      lock.validatePrimary E = .ok () ∧
      validateSecondaries E lock.secondaryResources.entries = .ok () ∧
      ∃ n, lock.totalResourceSize = .ok n := by
  simp only [validateResourceSet, Checks.seq_eq_ok, Checks.refuse_eq_ok, ne_eq]
  cases lock.totalResourceSize <;> simp [bind, Except.bind, pure, Except.pure]

theorem ContentLock.apart_of_validate {E : Externals} {lock : ContentLock}
    (h : lock.validateResourceSet E = .ok ()) :
    ResourcesApart lock.primaryResource lock.secondaryResources := by
  intro p hp
  obtain ⟨-, hprimary, -⟩ := validateResourceSet_eq_ok.1 h
  rw [validatePrimary, hp] at hprimary
  dsimp only at hprimary
  split at hprimary
  · cases hprimary
  · split at hprimary
    · cases hprimary
    · rename_i hc
      simpa [containsKey] using hc

theorem ContentLockV2.apart_of_validate {E : Externals} {lock : ContentLockV2}
    (h : lock.validate E = .ok ()) :
    ResourcesApart lock.primaryResource lock.secondaryResources := by
  intro p hp
  simp only [validate, Checks.seq_eq_ok, Checks.mapError_eq_ok] at h
  obtain ⟨-, -, -, hset, -⟩ := h
  simp only [validateResourceSet, Checks.seq_eq_ok] at hset
  obtain ⟨-, hprimary, -⟩ := hset
  rw [validatePrimary, hp] at hprimary
  dsimp only at hprimary
  split at hprimary
  · cases hprimary
  · split at hprimary
    · cases hprimary
    · rename_i hc
      simpa [containsKey] using hc

/-! ## Both validators -/

variable {E : Externals} {entries : List (String × SecondaryGuardedResource)} {total n : ℕ}

theorem GuardedResource.new_eq_ok {path contentType : String} {hash : GuardedResourceHash}
    {size : ℕ} {r : GuardedResource} (h : new E path hash contentType size = .ok r) :
    r = ⟨path, hash, contentType, size⟩ ∧
      (Text.startsWith path GUARDED_RESOURCE_CONTENT_PATH_PREFIX ∧
        path ≠ GUARDED_RESOURCE_CONTENT_PATH_PREFIX ∧ Text.contains path ".." = false ∧
        Text.contains path "//" = false ∧ Text.contains path "://" = false) ∧
      E.isMime contentType ∧ size ≠ 0 := by
  unfold new at h
  split_ifs at h with hpath hmime hsize
  cases h
  simp_all

theorem validateSecondaries_eq_ok : validateSecondaries E entries = .ok () ↔
    ∀ e ∈ entries, ∃ r, GuardedResource.new E e.1 e.2.hash e.2.contentType e.2.size = .ok r := by
  induction entries with
  | nil => simp [validateSecondaries]
  | cons e es ih =>
    rw [validateSecondaries, List.forall_mem_cons]
    cases hnew : GuardedResource.new E e.1 e.2.hash e.2.contentType e.2.size <;> simp [ih]

theorem addSizes_of_ok (ht : total < 2 ^ 64) (h : addSizes total entries = .ok n) :
    n = total + (entries.map (·.2.size)).sum ∧ n < 2 ^ 64 := by
  induction entries generalizing total with
  | nil =>
    cases h
    exact ⟨rfl, ht⟩
  | cons e es ih =>
    unfold addSizes checkedAddU64 at h
    split at h
    · cases h
    · rename_i t hadd
      split at hadd
      · rename_i hlt
        cases hadd
        rw [List.map_cons, List.sum_cons, ← Nat.add_assoc]
        exact ih hlt h
      · cases hadd

/-- The interleaved loop accepts what the two passes accept. -/
theorem validateAndAdd_eq_ok : ContentLockV2.validateAndAdd E total entries = .ok () ↔
    validateSecondaries E entries = .ok () ∧ ∃ n, addSizes total entries = .ok n := by
  induction entries generalizing total with
  | nil => simp [ContentLockV2.validateAndAdd, validateSecondaries, addSizes]
  | cons e es ih =>
    rw [ContentLockV2.validateAndAdd, validateSecondaries, addSizes]
    cases GuardedResource.new E e.1 e.2.hash e.2.contentType e.2.size with
    | error r => simp
    | ok r =>
      cases checkedAddU64 total e.2.size with
      | none => simp
      | some t => exact ih

theorem foldlM_checkedAddU64 {sizes : List ℕ} (h : total + sizes.sum < 2 ^ 64) :
    sizes.foldlM checkedAddU64 total = some (total + sizes.sum) := by
  induction sizes generalizing total with
  | nil => rfl
  | cons size sizes ih =>
    rw [List.sum_cons] at h ⊢
    have hadd : checkedAddU64 total size = some (total + size) := if_pos (by omega)
    rw [List.foldlM_cons, hadd, ← Nat.add_assoc]
    exact ih (by omega)

theorem ContentLock.checked_of_validate {lock : ContentLock}
    (h : lock.validateResourceSet E = .ok ()) :
    ∀ r ∈ listedResources lock.primaryResource lock.secondaryResources,
      GuardedResource.new E r.path r.hash r.contentType r.size = .ok r := by
  obtain ⟨-, hprimary, hsecondary, -⟩ := validateResourceSet_eq_ok.1 h
  intro r hr
  rcases List.mem_append.1 hr with hr | hr
  · rw [validatePrimary, Option.mem_toList.1 hr] at hprimary
    dsimp only at hprimary
    split at hprimary
    · cases hprimary
    · rename_i hnew
      exact hnew.trans (congrArg _ (GuardedResource.new_eq_ok hnew).1)
  · obtain ⟨e, he, rfl⟩ := List.mem_map.1 hr
    obtain ⟨r, hnew⟩ := validateSecondaries_eq_ok.1 hsecondary e he
    exact hnew.trans (congrArg _ (GuardedResource.new_eq_ok hnew).1)

theorem ContentLock.fits_of_validate {lock : ContentLock}
    (h : lock.validateResourceSet E = .ok ()) :
    ((listedResources lock.primaryResource lock.secondaryResources).map (·.size)).sum < 2 ^ 64 := by
  obtain ⟨-, -, -, n, htotal⟩ := validateResourceSet_eq_ok.1 h
  unfold totalResourceSize checkedAddU64 at htotal
  unfold listedResources
  cases hp : lock.primaryResource with
  | none =>
    rw [hp] at htotal
    obtain ⟨hn, hlt⟩ := addSizes_of_ok (by decide) htotal
    rw [hn] at hlt
    simpa [Function.comp_def] using hlt
  | some p =>
    simp only [hp, Nat.zero_add] at htotal
    split at htotal
    · cases htotal
    · rename_i t ht
      obtain ⟨hsize, ht⟩ := Option.ite_none_right_eq_some.1 ht
      cases ht
      obtain ⟨hn, hlt⟩ := addSizes_of_ok hsize htotal
      rw [hn] at hlt
      simpa [Function.comp_def] using hlt

/-- **Both versions accept the same resources**, and these are at least one, with paths of
    their own that are valid, content types that parse, sizes that are not zero and a
    total that fits in 64 bits in whatever order it is added up. -/
theorem resource_validation_agrees (E : Externals) (lock : ContentLock) (lock' : ContentLockV2)
    (hprimary : lock'.primaryResource = lock.primaryResource)
    (hsecondary : lock'.secondaryResources = lock.secondaryResources)
    (hsizes : ∀ r ∈ listedResources lock.primaryResource lock.secondaryResources,
      r.size < 2 ^ 64) :
    (lock.validateResourceSet E = .ok () ↔ lock'.validateResourceSet E = .ok ()) ∧
    (lock.validateResourceSet E = .ok () →
      let resources := listedResources lock.primaryResource lock.secondaryResources
      resources ≠ [] ∧ (resources.map (·.path)).Nodup ∧
      (∀ r ∈ resources,
        (Text.startsWith r.path GUARDED_RESOURCE_CONTENT_PATH_PREFIX ∧
          r.path ≠ GUARDED_RESOURCE_CONTENT_PATH_PREFIX ∧ Text.contains r.path ".." = false ∧
          Text.contains r.path "//" = false ∧ Text.contains r.path "://" = false) ∧
        E.isMime r.contentType ∧ r.size ≠ 0) ∧
      ∀ sizes : List ℕ, sizes.Perm (resources.map (·.size)) →
        sizes.foldlM checkedAddU64 0 = some (resources.map (·.size)).sum) := by
  have hempty : lock.resourceCount = 0 ↔
      (lock'.primaryResource.isNone && lock'.secondaryResources.entries.isEmpty) = true := by
    rw [hprimary, hsecondary, ContentLock.resourceCount]
    cases lock.primaryResource <;> simp
  constructor
  · have hsame : lock'.validatePrimary E = lock.validatePrimary E := by
      rw [ContentLockV2.validatePrimary, hprimary, hsecondary]
      rfl
    have htotal : (∃ n, lock.totalResourceSize = .ok n) ↔ ∃ n,
        addSizes ((lock'.primaryResource.map (·.size)).getD 0)
          lock'.secondaryResources.entries = .ok n := by
      rw [hprimary, hsecondary, ContentLock.totalResourceSize]
      cases hp : lock.primaryResource with
      | none => rfl
      | some p =>
        have hsize : checkedAddU64 0 p.size = some p.size := by
          rw [checkedAddU64, Nat.zero_add]
          exact if_pos (hsizes p (by rw [hp]; exact List.mem_cons_self))
        simp only [hsize]
        rfl
    rw [ContentLock.validateResourceSet_eq_ok, htotal, hsecondary, ← hsame, ← hsecondary]
    simp only [ContentLockV2.validateResourceSet, Checks.seq_eq_ok, Checks.refuse_eq_ok,
      validateAndAdd_eq_ok, ne_eq, hempty]
  · intro h
    have hchecked := ContentLock.checked_of_validate h
    refine ⟨?_, nodup_paths (ContentLock.apart_of_validate h),
      fun r hr => (GuardedResource.new_eq_ok (hchecked r hr)).2, fun sizes hperm => ?_⟩
    · intro hnil
      refine (ContentLock.validateResourceSet_eq_ok.1 h).1 (hempty.2 ?_)
      rw [hprimary, hsecondary]
      simpa [listedResources] using hnil
    · have hfits := ContentLock.fits_of_validate h
      rw [← hperm.sum_nat] at hfits ⊢
      rw [foldlM_checkedAddU64 (by omega), Nat.zero_add]

/-- A picture and its preview. -/
def gallery : SecondaryResources where
  entries :=
    [("/priv/app.locks/content/picture.png", ⟨.replicate 2, "image/png", 700⟩),
      ("/priv/app.locks/content/preview.png", ⟨.replicate 3, "image/png", 20⟩)]
  sorted := by decide +kernel

theorem gallery_accepted_by_both : let E := Externals.constant (.replicate 0)
    let lock := { staticLock ⟨"creator"⟩ with secondaryResources := gallery }
    let lock' := { paymentLock with secondaryResources := gallery }
    (lock.validateResourceSet E = .ok () ↔ lock'.validateResourceSet E = .ok ()) ∧
      lock.validateResourceSet E = .ok () ∧
      ((listedResources lock.primaryResource lock.secondaryResources).map (·.path)).Nodup ∧
      [20, 5, 700].foldlM checkedAddU64 0 = some 725 := by
  intro E lock lock'
  have h := resource_validation_agrees E lock lock' rfl rfl (by decide)
  have hv : lock.validateResourceSet E = .ok () := by decide +kernel
  obtain ⟨-, hnodup, -, hsum⟩ := h.2 hv
  exact ⟨h.1, hv, hnodup, hsum [20, 5, 700] (by decide)⟩

end PubkyLocks
