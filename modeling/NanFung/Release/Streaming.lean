import NanFung.Lib.Occurrences
import NanFung.Release.Policies

/-!
# Artifact checks on a file

`validate_artifact_file` reads the file in chunks and counts the markers of each window. It accepts what
`validate_artifact_bytes` accepts, however the file comes in chunks.
-/

namespace NanFung.Release

open Occurrences

/-! ## Reading -/

/-- What the calls of `read(64 * 1024)` return, before the empty one. -/
structure Reading (content : Bytes) where
  chunks : List Bytes
  flatten : chunks.flatten = content
  nonempty : ∀ chunk ∈ chunks, chunk ≠ []
  le_size : ∀ chunk ∈ chunks, chunk.length ≤ 64 * 1024

/-- A file that gives one byte at a time. -/
def Reading.bytewise (content : Bytes) : Reading content where
  chunks := content.map fun b => [b]
  flatten := by
    induction content with
    | nil => rfl
    | cons b content ih => exact congrArg (b :: ·) ih
  nonempty := by
    intro chunk hchunk
    obtain ⟨b, -, rfl⟩ := List.mem_map.mp hchunk
    exact List.cons_ne_nil b []
  le_size := by
    intro chunk hchunk
    obtain ⟨b, -, rfl⟩ := List.mem_map.mp hchunk
    rw [List.length_singleton]
    decide

/-- A file, and how it is read. -/
structure ArtifactFile where
  content : Bytes
  reading : Reading content

/-! ## Counting -/

/-- The numbers by marker. -/
abbrev Counts : Type := Bytes → Int

/-- The inner loop of `_count_file_markers`. -/
def countWindow (window tail : Bytes) (markers : List Bytes) (counts : Counts) : Counts :=
  markers.foldl (fun counts marker => Function.update counts marker
    (counts marker + (countMarker marker 0 window - countMarker marker 0 tail))) counts

/-- The outer loop, over the chunks up to the first empty one. -/
def countChunks (markers : List Bytes) (overlap : Nat) : Counts → Bytes → List Bytes → Counts
  | counts, _, [] => counts
  | counts, tail, chunk :: chunks =>
    if chunk = [] then counts
    else
      let window := tail ++ chunk
      countChunks markers overlap (countWindow window tail markers counts)
        (if overlap ≠ 0 then window.drop (window.length - overlap) else []) chunks

/-- `max(len(marker) for marker in markers) - 1` -/
def overlapOf (markers : List Bytes) : Nat := ((markers.map List.length).max?.getD 1) - 1

/-- `_count_file_markers` -/
def countFileMarkers (markers : List Bytes) (file : ArtifactFile) : Counts :=
  countChunks markers (overlapOf markers) (fun _ => 0) [] file.reading.chunks

/-- The markers of a document. -/
def pdfMarkers : List Bytes := ascii "/Type /Page" :: pdfForbidden.map ascii

/-- `_validate_pdf_file` -/
def validatePdfFile (file : ArtifactFile) : Except ReleaseError Unit := do
  require (ascii "%PDF-" <+: file.content.take 5) (.policy "artifact is not a PDF document")
  let counts := countFileMarkers pdfMarkers file
  require (counts (ascii "/Type /Page") ≤ 500) (.policy "PDF exceeds page limit")
  require (∀ marker ∈ pdfMarkers, marker ≠ ascii "/Type /Page" → counts marker = 0)
    (.policy "PDF contains an unsupported active or encrypted feature")

/-- `_validate_html_file` -/
def validateHtmlFile (file : ArtifactFile) : Except ReleaseError Unit :=
  require (countFileMarkers [[0]] file [0] = 0) (.policy "HTML artifact contains NUL bytes")

/-- `validate_artifact_file`; an archive of a path has the members of the archive of its bytes. -/
def validateArtifactFile (lib : TextLibrary) (file : ArtifactFile) (byteSize : Nat)
    (mediaType : Option String) (policy : ArtifactPolicy) : Except ReleaseError Unit := do
  require (file.content.length = byteSize) (.policy "artifact byte size changed during validation")
  require (byteSize ≤ policy.maxBytes) (.policy "artifact exceeds policy maximum")
  let normalized := bareMediaType lib mediaType
  require (policy.allowedMediaTypes = [] ∨ mediaType = none ∨
      normalized ∈ policy.allowedMediaTypes.map lib.lower) (.policy "media type is not allowed")
  let head := file.content.take 8
  if [0x50, 0x4B, 0x03, 0x04] <+: head ∨ normalized ∈ zipMediaTypes then
    let members ← orThrow (lib.zipMembers file.content)
      (.policy "artifact is not a valid ZIP container")
    validateZipMembers policy 0 0 members
  else if ascii "%PDF-" <+: head ∨ normalized = "application/pdf" then validatePdfFile file
  else if normalized ∈ ["text/html", "application/xhtml+xml"] then validateHtmlFile file
  else .ok ()

/-! ## The counts -/

variable {marker content window tail before : Bytes} {markers : List Bytes} {counts : Counts}
  {chunks : List Bytes} {overlap used : Nat}

theorem countMarker_eq_scan : countMarker marker used content = scan marker used content := by
  induction content generalizing used with
  | nil => cases used <;> rfl
  | cons b content ih =>
    cases used with
    | zero =>
      rw [countMarker, scan, ih, ih]
    | succ used =>
      rw [countMarker, scan]
      exact ih

theorem countMarker_eq (h : Unbordered marker) :
    countMarker marker 0 content = occurrences marker content := by
  rw [countMarker_eq_scan, scan_eq_occurrences h]

/-- `marker in content` -/
theorem countMarker_eq_zero (h : Unbordered marker) :
    countMarker marker 0 content = 0 ↔ ¬ marker <:+: content := by
  rw [countMarker_eq h, occurrences_eq_zero h.1]

theorem countWindow_of_notMem (hmem : marker ∉ markers) :
    countWindow window tail markers counts marker = counts marker := by
  induction markers generalizing counts with
  | nil => rfl
  | cons first markers ih =>
    rw [List.mem_cons, not_or] at hmem
    obtain ⟨hne, hmem⟩ := hmem
    rw [countWindow, List.foldl_cons, ← countWindow, ih hmem]
    exact Function.update_of_ne hne _ _

theorem countWindow_apply (hnodup : markers.Nodup) (hmem : marker ∈ markers) :
    countWindow window tail markers counts marker =
      counts marker + (countMarker marker 0 window - countMarker marker 0 tail) := by
  induction markers generalizing counts with
  | nil => exact nomatch hmem
  | cons first markers ih =>
    obtain ⟨hfirst, hnodup⟩ := List.nodup_cons.mp hnodup
    rw [countWindow, List.foldl_cons, ← countWindow]
    rcases List.mem_cons.mp hmem with rfl | hmem
    · rw [countWindow_of_notMem hfirst, Function.update_self]
    · have hne : marker ≠ first := fun h => hfirst (h ▸ hmem)
      rw [ih hnodup hmem, Function.update_of_ne hne]

theorem le_overlapOf (hmem : marker ∈ markers) : marker.length ≤ overlapOf markers + 1 := by
  have hlength : marker.length ∈ markers.map List.length := List.mem_map_of_mem hmem
  obtain ⟨longest, hlongest⟩ := Option.isSome_iff_exists.mp
    (List.isSome_max?_of_ne_nil (List.ne_nil_of_mem hlength))
  have := (List.max?_eq_some_iff.mp hlongest).2 _ hlength
  rw [overlapOf, hlongest, Option.getD_some]
  omega

/-- After the chunks of `before` the counts are those of `before`, and the tail is its end. -/
theorem countChunks_eq (hnodup : markers.Nodup) (hmem : marker ∈ markers) (h : Unbordered marker)
    (hlen : marker.length ≤ overlap + 1) (hchunks : ∀ chunk ∈ chunks, chunk ≠ [])
    (hcounts : counts marker = occurrences marker before) (htail : tail = before.rtake overlap) :
    countChunks markers overlap counts tail chunks marker =
      occurrences marker (before ++ chunks.flatten) := by
  induction chunks generalizing counts tail before with
  | nil =>
    rw [List.flatten_nil, List.append_nil]
    exact hcounts
  | cons chunk chunks ih =>
    obtain ⟨hchunk, hchunks⟩ := List.forall_mem_cons.mp hchunks
    have hnew : countWindow (tail ++ chunk) tail markers counts marker =
        occurrences marker (before ++ chunk) := by
      have hwindow := occurrences_window before chunk hlen
      rw [countWindow_apply hnodup hmem, countMarker_eq h, countMarker_eq h, hcounts, htail]
      omega
    have hkept : (if overlap ≠ 0 then (tail ++ chunk).drop ((tail ++ chunk).length - overlap) else []) =
        (before ++ chunk).rtake overlap := by
      rw [← rtake_rtake_append, ← htail]
      split
      · rfl
      · next hzero =>
        rw [not_not.mp hzero, List.rtake, Nat.sub_zero, List.drop_length]
    rw [countChunks, if_neg hchunk, List.flatten_cons, ← List.append_assoc]
    exact ih hchunks hnew hkept

/-- However the file comes in chunks, the markers are counted as in its bytes. -/
theorem countFileMarkers_eq {file : ArtifactFile} (hnodup : markers.Nodup) (hmem : marker ∈ markers)
    (h : Unbordered marker) :
    countFileMarkers markers file marker = countMarker marker 0 file.content := by
  have hcounts : countFileMarkers markers file marker =
      occurrences marker ([] ++ file.reading.chunks.flatten) :=
    countChunks_eq hnodup hmem h (le_overlapOf hmem) file.reading.nonempty rfl
      List.drop_nil.symm
  rw [hcounts, countMarker_eq h, List.nil_append, file.reading.flatten]

/-- The markers of documents and of pages do not overlap themselves. -/
theorem unbordered_pdfMarkers : ∀ marker ∈ pdfMarkers, Unbordered marker := by decide

theorem unbordered_nul : Unbordered ([0] : Bytes) := by decide

theorem nodup_pdfMarkers : pdfMarkers.Nodup := by decide

/-! ## The checks -/

variable {lib : TextLibrary} {file : ArtifactFile} {mediaType : Option String} {policy : ArtifactPolicy}

theorem require_congr {p q : Prop} [Decidable p] [Decidable q] {e : ReleaseError} (h : p ↔ q) :
    require p e = require q e := by
  rw [require, require]
  exact if_congr h rfl rfl

theorem validatePdfFile_eq : validatePdfFile file = validatePdf file.content := by
  have hcount : ∀ marker ∈ pdfMarkers,
      countFileMarkers pdfMarkers file marker = countMarker marker 0 file.content :=
    fun marker hmem => countFileMarkers_eq nodup_pdfMarkers hmem (unbordered_pdfMarkers marker hmem)
  have hhead : ascii "%PDF-" <+: file.content.take 5 ↔ ascii "%PDF-" <+: file.content :=
    List.prefix_take_iff.trans (and_iff_left (by decide))
  have hpages : countFileMarkers pdfMarkers file (ascii "/Type /Page") ≤ 500 ↔
      countMarker (ascii "/Type /Page") 0 file.content ≤ 500 := by
    rw [hcount _ List.mem_cons_self]
    omega
  have hforbidden : (∀ marker ∈ pdfMarkers, marker ≠ ascii "/Type /Page" →
        countFileMarkers pdfMarkers file marker = 0) ↔
      ∀ marker ∈ pdfForbidden, countMarker (ascii marker) 0 file.content = 0 := by
    constructor
    · intro h marker hmem
      have hmarker : ascii marker ∈ pdfMarkers := List.mem_cons_of_mem _ (List.mem_map_of_mem hmem)
      have hne : ∀ marker ∈ pdfForbidden, ascii marker ≠ ascii "/Type /Page" := by decide
      have hzero := h _ hmarker (hne marker hmem)
      rw [hcount _ hmarker] at hzero
      omega
    · intro h marker hmem hne
      obtain ⟨text, htext, rfl⟩ := List.mem_map.mp ((List.mem_cons.mp hmem).resolve_left hne)
      rw [hcount _ hmem, h text htext]
      rfl
  rw [validatePdfFile, validatePdf, require_congr hhead]
  simp only [require_congr hpages, require_congr hforbidden]

theorem validateHtmlFile_eq : validateHtmlFile file = validateHtml file.content := by
  have hmem : ([0] : Bytes) ∈ [([0] : Bytes)] := List.mem_singleton_self _
  refine require_congr ?_
  rw [countFileMarkers_eq (List.nodup_singleton _) hmem unbordered_nul, Int.natCast_eq_zero,
    countMarker_eq_zero unbordered_nul, List.singleton_infix_iff]

theorem validateArtifactFile_eq :
    validateArtifactFile lib file file.content.length mediaType policy =
      validateArtifact lib file.content mediaType policy := by
  have hzip : [0x50, 0x4B, 0x03, 0x04] <+: file.content.take 8 ↔
      [0x50, 0x4B, 0x03, 0x04] <+: file.content :=
    List.prefix_take_iff.trans (and_iff_left (by decide))
  have hpdf : ascii "%PDF-" <+: file.content.take 8 ↔ ascii "%PDF-" <+: file.content :=
    List.prefix_take_iff.trans (and_iff_left (by decide))
  have hsize : require (file.content.length = file.content.length)
      (ReleaseError.policy "artifact byte size changed during validation") = .ok () := if_pos rfl
  rw [validateArtifactFile, validateArtifact, hsize]
  simp only [hzip, hpdf, validatePdfFile_eq, validateHtmlFile_eq, validateZip]
  rfl

/-- The check of a file accepts what the check of its bytes accepts, and each marker is counted as
`bytes.count` counts it, however the file comes in chunks. -/
theorem streaming_eq_inMemory (lib : TextLibrary) (file : ArtifactFile) (mediaType : Option String)
    (policy : ArtifactPolicy) :
    (validateArtifactFile lib file file.content.length mediaType policy = .ok () ↔
      validateArtifact lib file.content mediaType policy = .ok ()) ∧
    ∀ markers ∈ [pdfMarkers, [[0]]], ∀ marker ∈ markers,
      countFileMarkers markers file marker = countMarker marker 0 file.content := by
  refine ⟨by rw [validateArtifactFile_eq], fun markers hmarkers marker hmem => ?_⟩
  have hcases : markers = pdfMarkers ∨ markers = [[0]] := by
    simpa using hmarkers
  rcases hcases with rfl | rfl
  · exact countFileMarkers_eq nodup_pdfMarkers hmem (unbordered_pdfMarkers marker hmem)
  · obtain rfl := List.mem_singleton.mp hmem
    exact countFileMarkers_eq (List.nodup_singleton _) hmem unbordered_nul

end NanFung.Release
