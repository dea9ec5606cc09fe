/-
  The path of a guarded resource on its way from the SDK to the server
  (`locks-sdk/src/creator.rs`, `locks-sdk/src/viewer.rs`,
  `locks-server/src/api/extractors.rs`).

  The SDK percent-encodes the segments of a path below the content root and appends
  it to the route.  The router decodes the tail of the route once, and the handler
  decodes what it gets from the router once more.
-/
import PubkyLocks.Api.Errors
import PubkyLocks.Lib.Percent

namespace PubkyLocks

open Percent

/-! ## The SDK -/

/-- `PATH_SEGMENT_ENCODE_SET`: the controls, and the listed bytes. -/
def PATH_SEGMENT_ENCODE_SET (b : UInt8) : Bool :=
  b < 0x20 || b == 0x7f || (bytes " \"#%<>?\x60\x7b\x7d[]\\^|/".toList).contains b

def encodeSegment (segment : List Char) : List Char :=
  ascii (encode PATH_SEGMENT_ENCODE_SET (bytes segment))

def encodeContentPath (path : String) : String :=
  String.ofList (['/'].intercalate ((path.toList.splitOn '/').map encodeSegment))

/-- The path that the SDK is given for a resource: what follows the content root. -/
def contentTail (path : String) : String :=
  String.ofList (path.toList.drop GUARDED_RESOURCE_CONTENT_PATH_PREFIX.toList.length)

/-! ## The server -/

/-- The `Path` extractor of the router: the tail of the route, decoded once. -/
def axumPath (raw : String) : Option String := text? (decode (bytes raw.toList))

def guardedResourcePathFromTail (rawTail : String) : Except ApiError String :=
  match text? (decode (bytes rawTail.toList)) with
  | none => .error ⟨.invalidRequest, "invalid guarded resource path"⟩
  | some tail =>
    let path := GUARDED_RESOURCE_CONTENT_PATH_PREFIX ++ tail
    if path == GUARDED_RESOURCE_CONTENT_PATH_PREFIX || Text.contains path ".." ||
        Text.contains path "//" || Text.contains path "://" then
      .error ⟨.invalidRequest, "invalid guarded resource path"⟩
    else .ok path

/-- The path that the handler of a request for a resource works with; `none` if
    the router refuses the request. -/
def resolvedPath (path : String) : Option (Except ApiError String) :=
  (axumPath (encodeContentPath (contentTail path))).map guardedResourcePathFromTail

/-! ## The router -/

theorem decode_segments (segments : List (List Char)) :
    decode (bytes (['/'].intercalate (segments.map encodeSegment))) =
      bytes (['/'].intercalate segments) := by
  have hsegment : ∀ (segment : List Char) (rest : List UInt8),
      decode (bytes (encodeSegment segment) ++ rest) = bytes segment ++ decode rest := by
    intro segment rest
    rw [encodeSegment, bytes_ascii (encode_lt _ _)]
    exact decode_encode_append (by decide) _ _
  induction segments with
  | nil => rfl
  | cons segment segments ih =>
    cases segments with
    | nil =>
      have h := hsegment segment []
      rw [List.append_nil] at h
      simpa [decode] using h
    | cons next segments =>
      rw [List.map_cons, List.map_cons, List.intercalate_cons_cons, List.intercalate_cons_cons,
        bytes_append, bytes_append, bytes_append, bytes_append,
        List.append_assoc, List.append_assoc, hsegment, ← ih]
      rfl

/-- **The router** undoes the encoding of the SDK. -/
theorem axumPath_encodeContentPath (path : String) :
    axumPath (encodeContentPath path) = some path := by
  rw [axumPath, encodeContentPath, String.toList_ofList, decode_segments,
    List.intercalate_splitOn, text?_bytes, String.ofList_toList]

/-! ## The handler -/

theorem path_of_accepted {E : Externals} {path contentType : String} {hash : GuardedResourceHash}
    {size : ℕ} {resource : GuardedResource}
    (h : GuardedResource.new E path hash contentType size = .ok resource) :
    GUARDED_RESOURCE_CONTENT_PATH_PREFIX ++ contentTail path = path ∧
      path ≠ GUARDED_RESOURCE_CONTENT_PATH_PREFIX ∧ Text.contains path ".." = false ∧
      Text.contains path "//" = false ∧ Text.contains path "://" = false := by
  unfold GuardedResource.new at h
  split at h
  · cases h
  · rename_i hpath
    simp only [Bool.or_eq_true, Bool.not_eq_true', not_or, Bool.not_eq_false, Bool.not_eq_true,
      beq_iff_eq] at hpath
    obtain ⟨⟨⟨⟨hstart, hne⟩, hdots⟩, hslashes⟩, hscheme⟩ := hpath
    refine ⟨?_, hne, hdots, hslashes, hscheme⟩
    obtain ⟨tail, htail⟩ := List.isPrefixOf_iff_prefix.1 hstart
    rw [← String.toList_inj, String.toList_append, contentTail, String.toList_ofList, ← htail,
      List.drop_left]

theorem guardedResourcePathFromTail_eq_ok {raw path tail : String}
    (hdecode : decode (bytes raw.toList) = bytes tail.toList)
    (hpath : GUARDED_RESOURCE_CONTENT_PATH_PREFIX ++ tail = path)
    (hne : path ≠ GUARDED_RESOURCE_CONTENT_PATH_PREFIX) (hdots : Text.contains path ".." = false)
    (hslashes : Text.contains path "//" = false) (hscheme : Text.contains path "://" = false) :
    guardedResourcePathFromTail raw = .ok path := by
  unfold guardedResourcePathFromTail
  rw [hdecode, text?_bytes, String.ofList_toList]
  dsimp only
  rw [hpath]
  simp [hne, hdots, hslashes, hscheme]

/-- The tail arrives as it is exactly if decoding it again does not change it. -/
theorem guardedResourcePathFromTail_iff {path : String}
    (hpath : GUARDED_RESOURCE_CONTENT_PATH_PREFIX ++ contentTail path = path)
    (hne : path ≠ GUARDED_RESOURCE_CONTENT_PATH_PREFIX) (hdots : Text.contains path ".." = false)
    (hslashes : Text.contains path "//" = false) (hscheme : Text.contains path "://" = false) :
    guardedResourcePathFromTail (contentTail path) = .ok path ↔
      hasEscape (bytes (contentTail path).toList) = false := by
  rw [← decode_eq_self_iff]
  constructor
  · intro h
    unfold guardedResourcePathFromTail at h
    split at h
    · cases h
    · rename_i tail htail
      dsimp only at h
      split at h
      · cases h
      · have heq := (Except.ok.inj h).trans hpath.symm
        rw [← String.toList_inj, String.toList_append, String.toList_append] at heq
        have hdecoded := bytes_of_text? htail
        rw [List.append_cancel_left heq] at hdecoded
        exact hdecoded.symm
  · intro h
    exact guardedResourcePathFromTail_eq_ok h hpath hne hdots hslashes hscheme

/-- **Paths from the SDK to the server.**  The handler of a request for an
    accepted path works with that path exactly if the path holds no percent escape;
    and two such paths are never taken for one another. -/
theorem resolvedPath_iff (E : Externals) (path : String) (hash : GuardedResourceHash)
    (contentType : String) (size : ℕ) (resource : GuardedResource)
    (h : GuardedResource.new E path hash contentType size = .ok resource) :
    (resolvedPath path = some (.ok path) ↔ hasEscape (bytes (contentTail path).toList) = false) ∧
      ∀ (other : String) (resource' : GuardedResource),
        GuardedResource.new E other hash contentType size = .ok resource' →
        hasEscape (bytes (contentTail path).toList) = false →
        hasEscape (bytes (contentTail other).toList) = false →
        resolvedPath path = resolvedPath other → path = other := by
  have hresolved : ∀ (p : String) (r : GuardedResource),
      GuardedResource.new E p hash contentType size = .ok r →
      (resolvedPath p = some (.ok p) ↔ hasEscape (bytes (contentTail p).toList) = false) := by
    intro p r hp
    obtain ⟨heq, hne, hdots, hslashes, hscheme⟩ := path_of_accepted hp
    rw [← guardedResourcePathFromTail_iff heq hne hdots hslashes hscheme, resolvedPath,
      axumPath_encodeContentPath, Option.map_some, Option.some.injEq]
  refine ⟨hresolved path resource h, fun other resource' hother hpath hescape heq => ?_⟩
  rw [(hresolved path resource h).2 hpath, (hresolved other resource' hother).2 hescape] at heq
  exact Except.ok.inj (Option.some.inj heq)

/-- A file whose name holds an escape is resolved to another file. -/
theorem escaped_path_decoded_twice : let E := Externals.constant (.replicate 7)
    let path := "/priv/app.locks/content/a%41"
    let other := "/priv/app.locks/content/aA"
    (GuardedResource.new E path (.replicate 1) "text/plain" 5).isOk ∧
      (GuardedResource.new E other (.replicate 1) "text/plain" 5).isOk ∧
      resolvedPath path = some (.ok other) ∧ resolvedPath other = some (.ok other) := by
  have hother : ∀ raw, decode (bytes raw.toList) = bytes "aA".toList →
      guardedResourcePathFromTail raw = .ok "/priv/app.locks/content/aA" := fun raw hraw =>
    guardedResourcePathFromTail_eq_ok hraw rfl (by decide) (by decide) (by decide) (by decide)
  refine ⟨by decide, by decide, ?_, ?_⟩
  · rw [resolvedPath, axumPath_encodeContentPath]
    exact congrArg some (hother _ (by decide))
  · rw [resolvedPath, axumPath_encodeContentPath]
    exact congrArg some (hother _ (by decide))

/-- A file name with a blank and a percent sign arrives as it is. -/
theorem plain_path_resolved : let path := "/priv/app.locks/content/100% a.txt"
    resolvedPath path = some (.ok path) := by
  have h : GuardedResource.new (Externals.constant (.replicate 7))
      "/priv/app.locks/content/100% a.txt" (.replicate 1) "text/plain" 5 =
      .ok ⟨"/priv/app.locks/content/100% a.txt", .replicate 1, "text/plain", 5⟩ := by
    decide
  exact (resolvedPath_iff _ _ _ _ _ _ h).1.2 (by decide)

end PubkyLocks
