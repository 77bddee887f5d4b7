/-
References to images that were kept.

The update knows converted images only. So a reference whose first candidate was kept is still taken
for a later candidate, or for an image whose path ends with it, when that one was converted. When no
converted image is named by the reference, it stays as it was, wherever the edits of other
references move it.

* `Migration.DenotesKept`: the first image that a reference may denote was kept;
* `Migration.swap?_eq_none_iff`: **when a reference has no exchange**;
* `Migration.not_removed_of_kept`: a candidate that was not converted is not removed;
* `Migration.kept_reference_stays`: **the whole statement**;
* `Migration.kept_reference_rewritten`: a reference to a kept image is rewritten for another one.
-/
import ImageMigration.Proofs.Migration.NoDangling

namespace ImageMigration.Migration

open Disk (Removed)

/-- The first image of the project that a reference may denote is one that was not converted. -/
structure DenotesKept (m : Migration) (h : Host) (file : Path) (r : Reference) (image : Path) :
    Prop where
  first : (r.candidates ⟨m.project h, file⟩).find? (· ∈ (m.inventory h).images) = some image
  skipped : ∀ o ∈ (m.converted h).1, o.image = image → o.skipped = true

variable {m : Migration} {h : Host} {p file image : Path} {source value : Text}
  {literals : List Literal} {span : Span} {verbatim : Bool} {r : Reference}

section Run

variable (hd : h.disk.IsTree) (he : IsNewExtension m.converter.extension)

include hd

/-- What is looked up by is the original of a new image. -/
lemma exists_successful_of_mem_lookup {entry : Path × Path} (hmem : entry ∈ m.lookup h) :
    ∃ o ∈ m.successful h, o.image = entry.1 := by
  obtain ⟨o, ho, -, himage, -⟩ := Lookup.mem_ofOutcomes hmem
  obtain ⟨hf, -⟩ := holdsFile_of_mem_images hd
    (mem_images_of_mem_used hd (mem_used_of_mem_successful ho))
  rw [hf.isPlace.normal_eq] at himage
  exact ⟨o, ho, himage⟩

include he

/-- **A reference has no exchange** exactly when it names no converted image. -/
lemma swap?_eq_none_iff (hdry : m.config.dryRun = false) (hr : r ∈ Reference.ofValue value) :
    r.swap? (m.lookup h) ⟨m.project h, file⟩ = none ↔
      ∀ o ∈ m.successful h, ¬ Lookup.NamedBy r ⟨m.project h, file⟩ o.image := by
  constructor
  · intro hnone o ho hnamed
    obtain ⟨converted, hmem⟩ := exists_mem_lookup hd he hdry ho
    cases hmatch : (m.lookup h).match? r ⟨m.project h, file⟩ with
    | none => exact Lookup.match?_eq_none_iff.mp hmatch _ hmem hnamed
    | some target =>
        obtain ⟨swap, hswap, -⟩ := exists_swap?_of_match? hd he hdry hr hmatch
        rw [hnone] at hswap
        exact absurd hswap (by simp)
  · intro hno
    cases hswap : r.swap? (m.lookup h) ⟨m.project h, file⟩ with
    | none => rfl
    | some swap =>
        obtain ⟨converted, -, hmatch, -⟩ := Reference.swap?_eq_some_iff.mp hswap
        obtain ⟨i, hentry, hnamed⟩ := Lookup.exists_mem_of_match? hmatch
        obtain ⟨o, ho, rfl⟩ := exists_successful_of_mem_lookup hd hentry
        exact absurd hnamed (hno o ho)

/-- A candidate of a reference that was not converted is not removed. -/
lemma not_removed_of_kept (hfile : file ∈ (m.inventory h).codes)
    (hread : h.disk.ReadsAs m.parser file source literals)
    (hl : .string span value verbatim ∈ literals) (hr : r ∈ Reference.ofValue value)
    (hp : p ∈ r.candidates ⟨m.project h, file⟩) (hkept : ∀ o ∈ m.successful h, o.image ≠ p) :
    ¬ Removed h.disk (m.run h).2.disk p := by
  intro hremoved
  obtain ⟨-, -, htracker, -⟩ := decision_eq_allowed (removed_cases hd he hremoved).1
  have hknown := (covers_classified htracker hfile).covers hread _ hl r hr
    (Reference.kind_of_mem_ofValue hr)
  obtain ⟨o, ho, himage⟩ := exists_successful_of_removed hd he hknown hp hremoved
  exact hkept o ho himage

/-- What a run leaves of a source: its bytes, or the text with the edits of its plan. -/
lemma node?_run_of_mem_codes (hdry : m.config.dryRun = false)
    (hfile : file ∈ (m.inventory h).codes) (hread : h.disk.ReadsAs m.parser file source literals) :
    ∃ edits perms, (edits = [] ∨ edits = (m.plan h file source literals).edits) ∧
      (m.run h).2.disk.node? (Listing.place file) = some
        ⟨.file ((Edit.applyAll? source edits).getD source).toUtf8, perms⟩ := by
  obtain ⟨hf, hcode⟩ := holdsFile_of_mem_codes hd hfile
  have hunchanged :
      (m.updated h).2.disk.node? (Listing.place file) = h.disk.node? (Listing.place file) →
        ∃ edits perms, (edits = [] ∨ edits = (m.plan h file source literals).edits) ∧
          (m.updated h).2.disk.node? (Listing.place file) = some
            ⟨.file ((Edit.applyAll? source edits).getD source).toUtf8, perms⟩ := by
    intro hsame
    have htext := hread.text
    rw [← hf.isPlace.2] at htext
    obtain ⟨bytes, perms, hnode, hbytes⟩ :=
      Disk.readText?_pathOf hd.hasNoLinks hf.isPlace.1 htext
    refine ⟨[], perms, Or.inl rfl, ?_⟩
    rw [Edit.applyAll?_nil, Option.getD_some, Text.ofUtf8?_eq_some_iff.mp hbytes, hsame, hnode]
  rw [node?_run_of_not_isImage hd he hf.isPlace (Path.not_isImage_of_isCode hcode)]
  rcases (updated_spec hd he (m := m)).2.2 with ⟨-, hsame⟩ | haccounts
  · refine hunchanged ?_
    rw [hsame]
    exact (filesChanged_converted hd he).1.node?_eq (not_isTarget_place hf.isPlace (Or.inr hcode))
  cases haccounts hdry file hfile with
  | failed hsame hnoted => exact hunchanged hsame
  | @edited source' literals' hread' hcounted hnode =>
      obtain ⟨rfl, rfl⟩ := hread'.unique hread
      obtain ⟨perms, hnode⟩ := hnode
      exact ⟨_, perms, Or.inr rfl, hnode⟩

end Run

/-- **A reference to an image that was kept stays as it was**, unless another image was converted
that it names as well. Let the first candidate of a reference that is an image of the project be one
that the run did not convert. If no other converted image is a candidate of the reference or ends
with it, then the reference stands in its source as before, and the image is still there. -/
theorem kept_reference_stays (m : Migration) (h : Host) (hd : h.disk.IsTree)
    (he : IsNewExtension m.converter.extension) (hreads : m.ReadsStrings h)
    (hdry : m.config.dryRun = false) {file : Path} {source : Text} {literals : List Literal}
    {span : Span} {value : Text} {verbatim : Bool} {r : Reference} {image : Path}
    (hfile : file ∈ (m.inventory h).codes) (hread : h.disk.ReadsAs m.parser file source literals)
    (hl : .string span value verbatim ∈ literals) (hr : r ∈ Reference.ofValue value)
    (hkept : m.DenotesKept h file r image)
    (hothers : ∀ o ∈ m.successful h, o.image ≠ image →
      ¬ Lookup.NamedBy r ⟨m.project h, file⟩ o.image) :
    (∃ edits text perms, (edits = [] ∨ edits = (m.plan h file source literals).edits) ∧
      Edit.applyAll? source edits = some text ∧
      (m.run h).2.disk.node? (Listing.place file) = some ⟨.file text.toUtf8, perms⟩ ∧
      Plan.Keeps source text edits span value r) ∧
    (m.run h).2.disk.node? (Listing.place image) = h.disk.node? (Listing.place image) := by
  have hkept' : ∀ o ∈ m.successful h, o.image ≠ image := by
    intro o ho himage
    obtain ⟨hmem, hskip⟩ := mem_successful.mp ho
    rw [hkept.skipped o hmem himage] at hskip
    exact absurd hskip (by simp)
  have hstrings := hreads.areStrings hfile hread
  refine ⟨?_, ?_⟩
  · have hnone : r.swap? (m.lookup h) ⟨m.project h, file⟩ = none :=
      (swap?_eq_none_iff hd he hdry hr).mpr fun o ho => hothers o ho (hkept' o ho)
    obtain ⟨edits, perms, hedits, hnode⟩ := node?_run_of_mem_codes hd he hdry hfile hread
    rcases hedits with rfl | rfl
    · rw [Edit.applyAll?_nil] at hnode
      exact ⟨[], source, perms, Or.inl rfl, Edit.applyAll?_nil source, hnode,
        Plan.keeps_of_no_edits hstrings hl⟩
    · obtain ⟨text, hedit, -⟩ := Plan.edited_ofLiterals hstrings (m.lookup h) ⟨m.project h, file⟩
      rw [plan, hedit] at hnode
      exact ⟨_, text, perms, Or.inr rfl, hedit, hnode,
        Plan.keeps_of_swap?_eq_none hstrings hl hr hnone hedit⟩
  · have hcandidate := List.mem_of_find?_eq_some hkept.first
    have himage : image ∈ (m.inventory h).images := by simpa using List.find?_some hkept.first
    obtain ⟨hf, hi⟩ := holdsFile_of_mem_images hd himage
    rw [← node?_updated_of_isImage hd he hf.isPlace hi (m := m)]
    rcases node?_run hd he (Listing.place image) with hsame | ⟨hgone, -⟩
    · exact hsame
    · obtain ⟨bytes, perms, hnode⟩ := hf.node
      have hremoved : Removed h.disk (m.run h).2.disk image :=
        ⟨hf.isPlace, by rw [hnode]; rfl, hgone⟩
      exact absurd hremoved
        (not_removed_of_kept hd he hfile hread hl hr hcandidate hkept')

/-! ### Projects with a kept and a converted image -/

/-- A run that makes one byte of every image, and deletes nothing. -/
def toOneByteBeside : Migration := { toOneByte with config := .forDir ⟨"/repo".toList⟩ }

/-- The source of a project with one source. -/
def homeFile : Path := ⟨"/repo/src/home.ts".toList⟩

/-- A string that refers to two images. -/
def twoReferences : Text := "/logo.png 1x, /wide.png 2x".toList

/-- A project whose source refers to two images in one string. The first image has one byte only. -/
def sourceSet : Disk :=
  .ofPaths ["/repo".toList, "/repo/src".toList, "/repo/public".toList]
    [(homeFile.text, Text.toUtf8 ("const logos = '".toList ++ twoReferences ++ "';\n".toList)),
     ((publicImage "logo.png".toList).text, ⟨#[1]⟩),
     ((publicImage "wide.png".toList).text, ⟨#[1, 2, 3]⟩)]

/-- The kept image is looked for in three places; a converted image of its name is in the last. -/
def sameNames : Disk :=
  .ofPaths ["/repo".toList, "/repo/public".toList, "/repo/src".toList, "/repo/src/public".toList]
    [(homeFile.text, Text.toUtf8 "const logo = '/logo.png';\n".toList),
     ((publicImage "logo.png".toList).text, ⟨#[1]⟩),
     ("/repo/src/public/logo.png".toList, ⟨#[1, 2, 3]⟩)]

lemma inventory_sourceSet :
    (toOneByteBeside.scan (.ofDisk sourceSet)).1
        = .ok (toOneByteBeside.inventory (.ofDisk sourceSet)) ∧
      toOneByteBeside.inventory (.ofDisk sourceSet)
        = ⟨[publicImage "logo.png".toList, publicImage "wide.png".toList], [homeFile]⟩ :=
  @inventory_of_visits toOneByteBeside (.ofDisk sourceSet) ⟨"/repo".toList⟩ _ _ (by decide +kernel)
    (by decide +kernel) (by decide +kernel) (by decide +kernel) (by decide +kernel)
    (by decide +kernel)

lemma inventory_sameNames :
    (toOneByteBeside.scan (.ofDisk sameNames)).1
        = .ok (toOneByteBeside.inventory (.ofDisk sameNames)) ∧
      toOneByteBeside.inventory (.ofDisk sameNames)
        = ⟨[publicImage "logo.png".toList, ⟨"/repo/src/public/logo.png".toList⟩], [homeFile]⟩ :=
  @inventory_of_visits toOneByteBeside (.ofDisk sameNames) ⟨"/repo".toList⟩ _ _ (by decide +kernel)
    (by decide +kernel) (by decide +kernel) (by decide +kernel) (by decide +kernel)
    (by decide +kernel)

/-- The second image is converted, and the reference to the first one stays, in the same string. -/
theorem kept_reference_stays_in_source_set :
    let m := toOneByteBeside
    let h := Host.ofDisk sourceSet
    let source : Text := "const logos = '".toList ++ twoReferences ++ "';\n".toList
    let r : Reference := .ofPath "/logo.png".toList 0
    h.disk.IsTree ∧ IsNewExtension m.converter.extension ∧ m.ReadsStrings h ∧
      m.config.dryRun = false ∧ m.DenotesKept h homeFile r (publicImage "logo.png".toList) ∧
      (∃ o ∈ m.successful h, o.image = publicImage "wide.png".toList) ∧
      (∃ edits text perms, Edit.applyAll? source edits = some text ∧
        (m.run h).2.disk.node? (Listing.place homeFile) = some ⟨.file text.toUtf8, perms⟩ ∧
        Plan.Keeps source text edits ⟨14, 42⟩ twoReferences r) ∧
      (m.run h).2.disk.node? (Listing.place (publicImage "logo.png".toList))
        = h.disk.node? (Listing.place (publicImage "logo.png".toList)) := by
  intro m h source r
  obtain ⟨hscan, hinventory⟩ := inventory_sourceSet
  have htree : sourceSet.IsTree := by decide +kernel
  have hcodes : (toOneByteBeside.inventory (.ofDisk sourceSet)).codes = [homeFile] := by
    rw [hinventory]
  have hread : sourceSet.ReadsAs toOneByteBeside.parser homeFile
      ("const logos = '".toList ++ twoReferences ++ "';\n".toList)
      [.string ⟨14, 42⟩ twoReferences true] := ⟨by decide +kernel, by decide +kernel⟩
  have hreads : toOneByteBeside.ReadsStrings (.ofDisk sourceSet) :=
    readsStrings_of_one_source hcodes hread (.singleton (by decide +kernel))
  have hfirst : (r.candidates ⟨toOneByteBeside.project (.ofDisk sourceSet), homeFile⟩).find?
      (· ∈ (toOneByteBeside.inventory (.ofDisk sourceSet)).images)
        = some (publicImage "logo.png".toList) := by
    rw [hinventory]
    decide +kernel
  have houtcomes : (∀ o ∈ (toOneByteBeside.converted (.ofDisk sourceSet)).1,
        o.image = publicImage "logo.png".toList → o.skipped = true) ∧
      (∀ o ∈ toOneByteBeside.successful (.ofDisk sourceSet),
        o.image ≠ publicImage "logo.png".toList →
          ¬ Lookup.NamedBy r ⟨toOneByteBeside.project (.ofDisk sourceSet), homeFile⟩ o.image) ∧
      ∃ o ∈ toOneByteBeside.successful (.ofDisk sourceSet),
        o.image = publicImage "wide.png".toList := by
    rw [successful, converted, converting, identified, classified, found, hinventory]
    decide +kernel
  have hkept : toOneByteBeside.DenotesKept (.ofDisk sourceSet) homeFile r
      (publicImage "logo.png".toList) := ⟨hfirst, houtcomes.1⟩
  obtain ⟨⟨edits, text, perms, -, hedit, hnode, hkeeps⟩, himage⟩ :=
    kept_reference_stays toOneByteBeside (.ofDisk sourceSet) htree isNewExtension_webp hreads rfl
      (by rw [hcodes]; exact List.mem_singleton.mpr rfl) hread (List.mem_singleton.mpr rfl)
      (show r ∈ Reference.ofValue twoReferences by decide +kernel) hkept houtcomes.2.1
  exact ⟨htree, isNewExtension_webp, hreads, rfl, hkept, houtcomes.2.2,
    ⟨edits, text, perms, hedit, hnode, hkeeps⟩, himage⟩

/-- **A reference to a kept image is rewritten for another one.** The first candidate is kept, since
its copy is not smaller; the third one is converted, and the reference gets its extension. -/
theorem kept_reference_rewritten :
    let m := toOneByteBeside
    let h := Host.ofDisk sameNames
    let r : Reference := .ofPath "/logo.png".toList 0
    h.disk.IsTree ∧ m.config.dryRun = false ∧
      h.disk.ReadsAs m.parser homeFile "const logo = '/logo.png';\n".toList
        [.string ⟨13, 24⟩ "/logo.png".toList true] ∧
      r ∈ Reference.ofValue "/logo.png".toList ∧
      m.DenotesKept h homeFile r (publicImage "logo.png".toList) ∧
      (m.run h).2.disk.readText? homeFile = .ok "const logo = '/logo.webp';\n".toList := by
  intro m h r
  obtain ⟨hscan, hinventory⟩ := inventory_sameNames
  have hfirst : (r.candidates ⟨toOneByteBeside.project (.ofDisk sameNames), homeFile⟩).find?
      (· ∈ (toOneByteBeside.inventory (.ofDisk sameNames)).images)
        = some (publicImage "logo.png".toList) := by
    rw [hinventory]
    decide +kernel
  have hskipped : ∀ o ∈ (toOneByteBeside.converted (.ofDisk sameNames)).1,
      o.image = publicImage "logo.png".toList → o.skipped = true := by
    rw [converted, converting, identified, classified, found, hinventory]
    decide +kernel
  refine ⟨by decide +kernel, rfl, ⟨by decide +kernel, by decide +kernel⟩, by decide +kernel,
    ⟨hfirst, hskipped⟩, ?_⟩
  rw [run_of_scan hscan, found, hinventory]
  decide +kernel

end ImageMigration.Migration
