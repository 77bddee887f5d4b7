/-
No reference is left behind.

The search for used images and the update of the sources read the same text, and both see every
candidate of a reference. So an image that a reference may denote counts as used and is removed only
when it was converted; then the update finds it, and whatever keeps an edit from being made keeps
images from being deleted.

* `Migration.ReadsStrings`: what the reading of sources has to tell about strings;
* `Migration.Exchanges`: the exchange of a reference's extension was made;
* `Migration.exists_old_extension`: what an exchange replaces is another extension;
* `Migration.exists_successful_of_removed`: a removed candidate is the original of a new image;
* `Migration.exists_swap?`: the update has an exchange for such a reference;
* `Migration.swap_carried_of_removed`: **the whole statement.**
-/
import ImageMigration.Proofs.Lookup.Match
import ImageMigration.Proofs.Migration.NoLoss
import ImageMigration.Proofs.Plan.References
import ImageMigration.Proofs.Reference.Extension

namespace ImageMigration.Migration

open Disk (Removed)

/-- The strings read in the sources of a project stand between characters, and keep apart. -/
def ReadsStrings (m : Migration) (h : Host) : Prop :=
  ∀ file ∈ (m.inventory h).codes, ∀ source literals,
    h.disk.ReadsAs m.parser file source literals → Literal.KeepApart source literals

/-- The plan for a source of the project. -/
def plan (m : Migration) (h : Host) (file : Path) (source : Text) (literals : List Literal) :
    Plan :=
  .ofLiterals (m.lookup h) ⟨m.project h, file⟩ source literals

/-- The exchange of the extension of a reference was made: it puts the extension of the new images
in the place of another one, it is among the edits for the source, and the file holds the source
with the pieces of these edits exchanged. -/
structure Exchanges (m : Migration) (h : Host) (file : Path) (source : Text)
    (literals : List Literal) (span : Span) (value : Text) (r : Reference) (swap : Edit) :
    Prop where
  range : r.extensionRange? = some (swap.start, swap.stop)
  replacement : swap.replacement = '.' :: m.converter.extension
  changed : ∃ old, Text.slice? swap.start swap.stop value = some old ∧ old ≠ swap.replacement
  carried : Plan.Carries source (m.plan h file source literals).edits span value swap
  written : ∃ text perms,
    Edit.Spliced source (Edit.applied source (m.plan h file source literals).edits) text ∧
    (m.run h).2.disk.node? (Listing.place file) = some ⟨.file text.toUtf8, perms⟩

variable {m : Migration} {h : Host} {p file image converted : Path} {o : Outcome} {r : Reference}
  {source value : Text} {literals : List Literal}

/-- In a project with one source, only that source has to be looked at. -/
lemma readsStrings_of_one_source (hcodes : (m.inventory h).codes = [file])
    (hread : h.disk.ReadsAs m.parser file source literals)
    (hapart : Literal.KeepApart source literals) : m.ReadsStrings h := by
  intro file' hfile source' literals' hread'
  rw [hcodes, List.mem_singleton] at hfile
  subst hfile
  obtain ⟨rfl, rfl⟩ := hread.unique hread'
  exact hapart

/-- What is read in a source of the project are strings of it. -/
lemma ReadsStrings.areStrings (h' : m.ReadsStrings h) (hfile : file ∈ (m.inventory h).codes)
    (hread : h.disk.ReadsAs m.parser file source literals) :
    Literal.AreStrings source literals := by
  have hapart := h' file hfile source literals hread
  obtain ⟨-, hparse⟩ := hread
  rw [ParserOf.literals?, Option.map_eq_some_iff] at hparse
  obtain ⟨found, -, rfl⟩ := hparse
  exact Literal.areStrings_map_collected hapart

/-- What an exchange replaces in the value of a string is no new extension. -/
lemma exists_old_extension (he : IsNewExtension m.converter.extension)
    (hr : r ∈ Reference.ofValue value) {start stop : Nat}
    (hrange : r.extensionRange? = some (start, stop)) :
    ∃ old, Text.slice? start stop value = some old ∧ old ≠ '.' :: m.converter.extension := by
  obtain ⟨stem, old, -, hold, hrange', hslice⟩ := (Reference.isSlice_of_mem_ofValue hr).extension
  rw [hrange, Option.some.injEq, Prod.mk.injEq] at hrange'
  obtain ⟨rfl, rfl⟩ := hrange'
  refine ⟨old, hslice, ?_⟩
  rintro rfl
  rw [← Reference.isSome_ofExtension?_iff, he.not_image] at hold
  exact absurd hold (by simp)

/-- Without failures, every source was read and its references are known. -/
lemma covers_classified (hno : (m.classified h).1.parseFailures = [])
    (hfile : file ∈ (m.inventory h).codes) :
    (indexUsages m.parser (m.inventory h).codes (m.project h) (m.found h)).1.CoversFile m.parser
      h.disk (m.project h) file := by
  rw [← disk_found m h]
  exact covers_of_no_failures hfile hno

section Run

variable (hd : h.disk.IsTree) (he : IsNewExtension m.converter.extension)

include hd he

/-- A removed candidate of a known reference is the original of a new image. -/
lemma exists_successful_of_removed
    (hknown : (indexUsages m.parser (m.inventory h).codes (m.project h) (m.found h)).1.Covers
      ⟨m.project h, file⟩ r)
    (hp : p ∈ r.candidates ⟨m.project h, file⟩) (hremoved : Removed h.disk (m.run h).2.disk p) :
    ∃ o ∈ m.successful h, o.image = p := by
  rcases (removed_cases hd he hremoved).2 with hconverted | hunused
  · exact hconverted
  · -- a candidate is named by the index, so it does not count as unused
    have hnames := UsageIndex.names_of_mem_candidates hknown hp
    have hno := (mem_unused_iff.mp hunused).2
    rw [hnames] at hno
    exact absurd hno (by simp)

variable (hdry : m.config.dryRun = false)

include hdry

/-- A new image can be looked up by its original. -/
lemma exists_mem_lookup (ho : o ∈ m.successful h) :
    ∃ converted, (o.image, converted) ∈ m.lookup h := by
  have hnew := (isStored_converted hd he hdry ho).isNew
  have hused := mem_used_of_mem_successful ho
  obtain ⟨hf, -⟩ := holdsFile_of_mem_used hd hused
  obtain ⟨rest, htext⟩ := Path.isAbsolute_iff.mp hnew.isPlace.isAbsolute
  have hconverted : o.isConverted = true := by
    rw [Outcome.isConverted, (mem_successful.mp ho).2, htext]
    rfl
  obtain ⟨converted, hmem⟩ := Lookup.exists_mem_ofOutcomes ho hconverted
  rw [hf.isPlace.normal_eq] at hmem
  exact ⟨converted, hmem⟩

/-- What is looked up is a new image. -/
lemma extension?_of_mem_lookup (hmem : (image, converted) ∈ m.lookup h) :
    converted.extension? = some m.converter.extension := by
  obtain ⟨o, ho, -, -, rfl⟩ := Lookup.mem_ofOutcomes hmem
  have hnew := (isStored_converted hd he hdry ho).isNew
  rw [hnew.isPlace.normal_eq, hnew.extension]

/-- A reference that is taken for a converted image has an exchange. -/
lemma exists_swap?_of_match? (hr : r ∈ Reference.ofValue value)
    (hmatch : (m.lookup h).match? r ⟨m.project h, file⟩ = some converted) :
    ∃ swap, r.swap? (m.lookup h) ⟨m.project h, file⟩ = some swap ∧
      r.extensionRange? = some (swap.start, swap.stop) ∧
      swap.replacement = '.' :: m.converter.extension := by
  obtain ⟨i, hentry, -⟩ := Lookup.exists_mem_of_match? hmatch
  have hextension := extension?_of_mem_lookup hd he hdry hentry
  obtain ⟨stem, e, -, -, hrange⟩ := Reference.exists_extension hr
  exact ⟨⟨_, _, '.' :: m.converter.extension⟩,
    Reference.swap?_eq_some_iff.mpr ⟨converted, _, hmatch, hextension, hrange, rfl⟩, hrange, rfl⟩

/-- **The update has an exchange** for every reference with a converted candidate. -/
lemma exists_swap? (hr : r ∈ Reference.ofValue value) (ho : o ∈ m.successful h)
    (hp : o.image ∈ r.candidates ⟨m.project h, file⟩) :
    ∃ swap, r.swap? (m.lookup h) ⟨m.project h, file⟩ = some swap ∧
      r.extensionRange? = some (swap.start, swap.stop) ∧
      swap.replacement = '.' :: m.converter.extension := by
  obtain ⟨converted, hmem⟩ := exists_mem_lookup hd he hdry ho
  obtain ⟨target, hmatch⟩ :=
    Option.isSome_iff_exists.mp (Lookup.isSome_match?_of_mem_candidates hmem hp)
  exact exists_swap?_of_match? hd he hdry hr hmatch

end Run

/-- **No reference is left as it was when an image that it may denote was removed.** If a run
removes anything, then it has read every source of the project; and for each reference in a string
of a source, if a candidate of the reference was removed, then the exchange of the extension of the
reference is among the edits that were applied to the source, and the file holds the edited text, in
which the new extension has taken the place of the old one. -/
theorem swap_carried_of_removed (m : Migration) (h : Host) (hd : h.disk.IsTree)
    (he : IsNewExtension m.converter.extension) (hreads : m.ReadsStrings h)
    (hany : ∃ p, Removed h.disk (m.run h).2.disk p) :
    ∀ file ∈ (m.inventory h).codes, ∃ source literals,
      h.disk.ReadsAs m.parser file source literals ∧
      ∀ span value verbatim, .string span value verbatim ∈ literals →
        ∀ r ∈ Reference.ofValue value, ∀ p ∈ r.candidates ⟨m.project h, file⟩,
          Removed h.disk (m.run h).2.disk p →
            ∃ swap, m.Exchanges h file source literals span value r swap := by
  intro file hfile
  obtain ⟨q, hq⟩ := hany
  obtain ⟨-, hdry, htracker, hparse, hwrite, hunedited⟩ :=
    decision_eq_allowed (removed_cases hd he hq).1
  obtain ⟨source, literals, hread, hcovers⟩ := covers_classified htracker hfile
  refine ⟨source, literals, hread, fun span value verbatim hl r hr p hp hremoved => ?_⟩
  have hstrings := hreads.areStrings hfile hread
  have hknown := hcovers _ hl r hr (Reference.kind_of_mem_ofValue hr)
  obtain ⟨o, ho, rfl⟩ := exists_successful_of_removed hd he hknown hp hremoved
  obtain ⟨swap, hswap, hrange, hreplacement⟩ := exists_swap? hd he hdry hr ho hp
  have hlookup : m.lookup h ≠ [] := by
    obtain ⟨converted, hmem⟩ := exists_mem_lookup hd he hdry ho
    exact List.ne_nil_of_mem hmem
  obtain ⟨text, hedit, hspliced⟩ :=
    Plan.edited_ofLiterals hstrings (m.lookup h) ⟨m.project h, file⟩
  -- without failures the file was written, and nothing behind the plan was counted
  have haccounts := (updated_spec hd he).2.2.resolve_left (fun hempty => hlookup hempty.1) hdry
  cases haccounts file hfile with
  | failed hsame hnoted =>
      rw [hparse, hwrite] at hnoted
      exact absurd hnoted (by simp)
  | @edited source' literals' hread' hcounted hnode =>
      obtain ⟨rfl, rfl⟩ := hread'.unique hread
      have hzero : (m.plan h file source literals).unedited = 0 := by
        by_contra hpos
        have hmem := hcounted (Nat.pos_of_ne_zero hpos)
        rw [hunedited] at hmem
        exact absurd hmem (by simp)
      obtain ⟨perms, hnode⟩ := hnode
      refine ⟨swap, hrange, hreplacement, ?_, ?_, text, perms, hspliced, ?_⟩
      · rw [hreplacement]
        exact exists_old_extension he hr hrange
      · exact Plan.carries_of_swap? hstrings hl hr hswap hzero
      · obtain ⟨hf, hcode⟩ := holdsFile_of_mem_codes hd hfile
        rw [node?_run_of_not_isImage hd he hf.isPlace (Path.not_isImage_of_isCode hcode), hnode,
          Plan.edited, hedit]
        rfl

/-! ### A project with an escape in its reference -/

/-- A source that refers to an image through an escape, so that its string is written again. -/
def escapedSource : Text := "const logo = '\\u002flogo.png';\n".toList

/-- A project with this source and one image. -/
def escapedReference : Disk :=
  .ofPaths ["/repo".toList, "/repo/src".toList, "/repo/public".toList]
    [("/repo/src/home.ts".toList, Text.toUtf8 escapedSource),
     ((publicImage "logo.png".toList).text, ⟨#[1, 2, 3]⟩)]

/-- The image is removed, the exchange of the extension is carried by its source, and the source
refers to the new image. -/
theorem swap_carried_of_removed_escaped :
    let m := toOneByte
    let h := Host.ofDisk escapedReference
    let file : Path := ⟨"/repo/src/home.ts".toList⟩
    h.disk.IsTree ∧ IsNewExtension m.converter.extension ∧ m.ReadsStrings h ∧
      Removed h.disk (m.run h).2.disk (publicImage "logo.png".toList) ∧
      ∃ literals swap, h.disk.ReadsAs m.parser file escapedSource literals ∧
        m.Exchanges h file escapedSource literals ⟨13, 29⟩ "/logo.png".toList
          (.ofPath "/logo.png".toList 0) swap ∧
        (m.run h).2.disk.readText? file = .ok "const logo = '/logo.webp';\n".toList := by
  intro m h file
  have htree : escapedReference.IsTree := by decide +kernel
  have hremoved : Removed escapedReference (toOneByte.run (.ofDisk escapedReference)).2.disk
      (publicImage "logo.png".toList) := by decide +kernel
  have hcodes : (toOneByte.inventory (.ofDisk escapedReference)).codes
      = [⟨"/repo/src/home.ts".toList⟩] := by decide +kernel
  have hread : escapedReference.ReadsAs toOneByte.parser ⟨"/repo/src/home.ts".toList⟩ escapedSource
      [.string ⟨13, 29⟩ "/logo.png".toList false] := ⟨by decide +kernel, by decide +kernel⟩
  have hreads : toOneByte.ReadsStrings (.ofDisk escapedReference) :=
    readsStrings_of_one_source hcodes hread (.singleton (by decide +kernel))
  have hreference : Reference.ofPath "/logo.png".toList 0
      ∈ Reference.ofValue "/logo.png".toList := by decide +kernel
  have hcandidate : publicImage "logo.png".toList
      ∈ (Reference.ofPath "/logo.png".toList 0).candidates
        ⟨toOneByte.project (.ofDisk escapedReference), ⟨"/repo/src/home.ts".toList⟩⟩ := by
    decide +kernel
  obtain ⟨source, literals, hread', hall⟩ := swap_carried_of_removed toOneByte
    (.ofDisk escapedReference) htree isNewExtension_webp hreads ⟨_, hremoved⟩
    ⟨"/repo/src/home.ts".toList⟩ (by rw [hcodes]; exact List.mem_singleton.mpr rfl)
  obtain ⟨rfl, rfl⟩ := hread.unique hread'
  obtain ⟨swap, hexchanges⟩ :=
    hall _ _ _ (List.mem_singleton.mpr rfl) _ hreference _ hcandidate hremoved
  exact ⟨htree, isNewExtension_webp, hreads, hremoved, _, swap, hread, hexchanges,
    by decide +kernel⟩

end ImageMigration.Migration
