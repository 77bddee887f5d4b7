/-
What a second run reads and converts.

After a run without failures every source holds the edits of its plan, so its strings are rewritten:
they name what their references named that no new image was found for. An image that a second run
uses was used before; if it is converted again, then to what is there already; and no reference is
left that would be pointed to another image.

* `Migration.RereadsEdited`: what the reading of edited sources has to give;
* `Migration.RanClean`: runs that met no failure; `Migration.exists_edited`: what they leave of
  their sources;
* `After.stringsAt_eq`: **the strings of a source are the rewritten ones**;
* `After.mem_used_iff`: **which images are used again**;
* `After.exists_successful`, `After.exists_stored`, `After.plan_eq_empty`: what is converted again,
  and that nothing is left to be edited.
-/
import ImageMigration.Proofs.Migration.AfterRun
import ImageMigration.Proofs.Migration.KeptReferences
import ImageMigration.Proofs.Plan.Reread

namespace ImageMigration

open Reference (rewritten)

/-- The summary tells of no failure: every image was encoded, and every source was read, understood,
and edited as planned. -/
structure Summary.IsClean (s : Summary) : Prop where
  conversionErrors : s.conversionErrors = []
  trackerParseFailures : s.trackerParseFailures = []
  codemodParseFailures : s.codemodParseFailures = []
  codemodWriteFailures : s.codemodWriteFailures = []
  codemodUneditedFiles : s.codemodUneditedFiles = []

namespace Migration

/-- Where all strings of a source can be edited, reading the edited source gives the same literals
with the edited values. -/
def RereadsEdited (m : Migration) (h : Host) : Prop :=
  ∀ file ∈ (m.inventory h).codes, ∀ source literals,
    h.disk.ReadsAs m.parser file source literals → (m.plan h file source literals).unedited = 0 →
      ∃ literals', m.parser.literals? file ((m.plan h file source literals).edited source)
          = some literals' ∧
        List.Forall₂ (Literal.Follows (m.lookup h) ⟨m.project h, file⟩) literals literals'

/-- In a project with one source it is enough to read that one again. -/
lemma rereadsEdited_of_one_source {m : Migration} {h : Host} {file : Path} {source : Text}
    {literals literals' : List Literal} (hcodes : (m.inventory h).codes = [file])
    (hread : h.disk.ReadsAs m.parser file source literals)
    (hparse : m.parser.literals? file ((m.plan h file source literals).edited source)
      = some literals')
    (hfollows : List.Forall₂ (Literal.Follows (m.lookup h) ⟨m.project h, file⟩) literals
      literals') : m.RereadsEdited h := by
  intro file' hfile' source' literals'' hread' _
  rw [hcodes, List.mem_singleton] at hfile'
  subst hfile'
  obtain ⟨rfl, rfl⟩ := hread.unique hread'
  exact ⟨literals', hparse, hfollows⟩

/-- A run met no failure with any image or source. -/
structure RanClean (m : Migration) (h : Host) : Prop where
  converted : ∀ o ∈ (m.converted h).1, o.error = none
  tracker : (m.classified h).1.parseFailures = []
  parse : (m.updated h).1.parseFailures = []
  write : (m.updated h).1.writeFailures = []
  unedited : (m.updated h).1.unedited = []

variable {m : Migration} {h h' : Host} {s : Summary} {p file : Path} {o : Outcome} {source : Text}
  {literals : List Literal}

/-- A run with images that tells of no failure met none. -/
lemma ranClean_of_run (hrun : (m.run h).1 = .ok s) (hclean : s.IsClean)
    (himages : (m.inventory h).images ≠ []) : m.RanClean h := by
  obtain ⟨-, htold⟩ := beforeCleanup_of_run hrun
  rw [told_of_images himages] at htold
  have herrors : s.conversionErrors = (m.converted h).1.filterMap conversionError? :=
    congrArg Summary.conversionErrors htold
  rw [hclean.conversionErrors] at herrors
  constructor
  case converted =>
    intro o ho
    have hnone := List.filterMap_eq_nil_iff.mp herrors.symm o ho
    rwa [conversionError?, Option.map_eq_none_iff] at hnone
  case tracker =>
    exact (congrArg Summary.trackerParseFailures htold).symm.trans hclean.trackerParseFailures
  case parse =>
    exact (congrArg Summary.codemodParseFailures htold).symm.trans hclean.codemodParseFailures
  case write =>
    exact (congrArg Summary.codemodWriteFailures htold).symm.trans hclean.codemodWriteFailures
  case unedited =>
    exact (congrArg Summary.codemodUneditedFiles htold).symm.trans hclean.codemodUneditedFiles

/-! ### One run -/

/-- The strings of a file that is read. -/
lemma stringsAt_of_readsAs {parser : ParserOf} {moment : Nat}
    (hfault : h.faults moment .read file = none)
    (hread : h.disk.ReadsAs parser file source literals) :
    h.stringsAt parser moment file = literals.filterMap Literal.value? := by
  rw [Host.stringsAt, hfault, hread.text]
  simp only
  rw [hread.parse]
  rfl

/-- Where all sources were read, none of them is bound to fail. -/
lemma faults_read_of_tracker (hs : h.faults.IsSteady) (hno : (m.classified h).1.parseFailures = [])
    (hfile : file ∈ (m.inventory h).codes) : h.faults 0 .read file = none := by
  have hfaults := (m.precedes_found h).faults
  rw [classified, classify_fst, Classification.ofIndex] at hno
  simp only at hno
  rw [parseFailures_indexUsages (by rw [hfaults]; exact hs), List.map_eq_nil_iff,
    List.filter_eq_nil_iff] at hno
  have hreadable := hno file hfile
  rw [Host.isUnreadable, Host.answer, hfaults, hs _ 0] at hreadable
  cases hfault : h.faults 0 .read file with
  | none => rfl
  | some e =>
      rw [hfault] at hreadable
      exact absurd rfl hreadable

section Run

variable (hd : h.disk.IsTree)

include hd

/-- **An image is used if a string of a source mentions it.** -/
lemma mem_used_iff_mentioned (hs : h.faults.IsSteady) :
    p ∈ (m.classified h).1.used ↔ p ∈ (m.inventory h).images ∧
      ∃ file ∈ (m.inventory h).codes,
        MentionedIn (h.stringsAt m.parser 0 file) ⟨m.project h, file⟩ p := by
  have hfaults := (m.precedes_found h).faults
  have hsteady : (m.found h).ReadsSteadily := by
    intro n n' file
    rw [hfaults]
    exact hs n n' .read file
  rw [classified, ImageMigration.mem_used_iff, map_normal_images hd, names_indexUsages,
    isMentioned_iff hsteady]
  simp only [stringsAt_congr (disk_found m h) hfaults]

variable (hwebp : m.converter.extension = "webp".toList) (hdry : m.config.dryRun = false)

include hwebp hdry

/-- New images have an extension that is a word, and that no image has. -/
lemma hasPlainExtensions_lookup : (m.lookup h).HasPlainExtensions := by
  rintro ⟨image, converted⟩ hmem
  have hextension := extension?_of_mem_lookup hd (isNewExtension_of_webp hwebp) hdry hmem
  rw [hwebp] at hextension
  exact ⟨_, hextension, isPlainExtension_webp⟩

/-- **A run without failures leaves every source with the edits of its plan.** -/
lemma exists_edited (hclean : m.RanClean h) (hfile : file ∈ (m.inventory h).codes) :
    ∃ source literals, h.disk.ReadsAs m.parser file source literals ∧
      (m.plan h file source literals).unedited = 0 ∧
      ∃ perms, (m.run h).2.disk.node? (Listing.place file) = some
        ⟨.file ((m.plan h file source literals).edited source).toUtf8, perms⟩ := by
  have he := isNewExtension_of_webp hwebp
  obtain ⟨hf, hcode⟩ := holdsFile_of_mem_codes hd hfile
  obtain ⟨source, literals, hread, -⟩ := covers_classified hclean.tracker hfile
  refine ⟨source, literals, hread, ?_⟩
  rw [node?_run_of_not_isImage hd he hf.isPlace (Path.not_isImage_of_isCode hcode)]
  rcases (updated_spec hd he (m := m)).2.2 with ⟨hempty, hsame⟩ | haccounts
  · -- nothing can be looked up, so the plan is empty
    have hplan : m.plan h file source literals = .empty :=
      Plan.ofLiterals_eq_empty fun value _ => valueEdits_eq_nil fun r _ => by
        rw [hempty]
        exact Lookup.match?_nil r _
    have htext := hread.text
    rw [← hf.isPlace.2] at htext
    obtain ⟨bytes, perms, hnode, hbytes⟩ :=
      Disk.readText?_pathOf hd.hasNoLinks hf.isPlace.1 htext
    rw [hplan, Plan.edited_of_no_edits rfl, Text.ofUtf8?_eq_some_iff.mp hbytes, hsame,
      (filesChanged_converted hd he).1.node?_eq (not_isTarget_place hf.isPlace (Or.inr hcode))]
    exact ⟨rfl, perms, hnode⟩
  · cases haccounts hdry file hfile with
    | failed _ hnoted =>
        rw [hclean.parse, hclean.write] at hnoted
        exact absurd hnoted (by simp)
    | @edited source' literals' hread' hunedited hnode =>
        obtain ⟨rfl, rfl⟩ := hread.unique hread'
        refine ⟨?_, hnode⟩
        by_contra hpos
        have hmem := hunedited (Nat.pos_of_ne_zero hpos)
        rw [hclean.unedited] at hmem
        exact absurd hmem (by simp)

end Run

/-! ### A second run -/

namespace After

variable (hafter : m.After h h') (hd : h.disk.IsTree) (hs : h.faults.IsSteady)
  (hwebp : m.converter.extension = "webp".toList) (hdry : m.config.dryRun = false)
  (hclean : m.RanClean h) (hreads : m.RereadsEdited h)

include hafter hd hs hwebp hdry hclean hreads

/-- **The strings of a source are the rewritten ones.** -/
lemma stringsAt_eq (hfile : file ∈ (m.inventory h).codes) :
    h'.stringsAt m.parser 0 file
      = (h.stringsAt m.parser 0 file).map (rewritten (m.lookup h) ⟨m.project h, file⟩) := by
  obtain ⟨source, literals, hread, hzero, perms, hnode⟩ :=
    exists_edited hd hwebp hdry hclean hfile
  obtain ⟨literals', hparse, hfollows⟩ := hreads file hfile source literals hread hzero
  have hfault := faults_read_of_tracker hs hclean.tracker hfile
  have hread' : h'.disk.ReadsAs m.parser file ((m.plan h file source literals).edited source)
      literals' := by
    refine ⟨Disk.readText?_eq_ok_iff.mpr ?_, hparse⟩
    rw [← hafter.disk] at hnode
    exact hafter.read?_of_mem_codes hd hwebp hfile (Disk.readText?_eq_ok_iff.mp hread.text) hnode
  rw [stringsAt_of_readsAs hfault hread, stringsAt_of_readsAs (hafter.faults ▸ hfault) hread',
    Literal.values_of_follows hfollows]

/-- **An image is used again** if a reference named it that no new image was found for. -/
lemma mem_used_iff :
    p ∈ (m.classified h').1.used ↔ p ∈ (m.inventory h').images ∧
      ∃ file ∈ (m.inventory h).codes, ∃ value ∈ h.stringsAt m.parser 0 file,
        ∃ r ∈ Reference.ofValue value, (m.lookup h).match? r ⟨m.project h, file⟩ = none ∧
          r.Names ⟨m.project h, file⟩ p := by
  have hlookup := hasPlainExtensions_lookup hd hwebp hdry (m := m)
  rw [mem_used_iff_mentioned (hafter.isTree hd hwebp) (hafter.faults ▸ hs),
    hafter.project_eq hd hwebp]
  refine and_congr_right fun _ => exists_congr fun file => ?_
  rw [hafter.mem_codes_iff hd hwebp]
  refine and_congr_right fun hfile => ?_
  rw [hafter.stringsAt_eq hd hs hwebp hdry hclean hreads hfile, mentionedIn_rewritten_iff hlookup]

/-- What is used again was used before. -/
lemma mem_used (hp : p ∈ (m.classified h').1.used) : p ∈ (m.classified h).1.used := by
  obtain ⟨himage, file, hfile, value, hvalue, r, hr, -, hnames⟩ :=
    (hafter.mem_used_iff hd hs hwebp hdry hclean hreads).mp hp
  exact (mem_used_iff_mentioned hd hs).mpr
    ⟨hafter.mem_images hd hwebp himage, file, hfile, value, hvalue, r, hr, hnames⟩

/-- **What is converted again was converted before,** since the encoder gives the same again. -/
lemma exists_successful (ho : o ∈ m.successful h') : ∃ o' ∈ m.successful h, o'.image = o.image := by
  have he := isNewExtension_of_webp hwebp
  have hd' := hafter.isTree hd hwebp
  have hused := mem_used_of_mem_successful ho
  have himage := mem_images_of_mem_used hd' hused
  obtain ⟨old, new, perms, hnode, hencode, hlt, -⟩ := (isMeasured_of_mem_successful hd' he ho).sizes
  rw [hafter.node?_of_mem_images hd hwebp himage] at hnode
  rw [hafter.read?_of_mem_images hd hwebp himage] at hencode
  have hbefore := hafter.mem_used hd hs hwebp hdry hclean hreads hused
  rw [← image_converted] at hbefore
  obtain ⟨o', ho', hsame⟩ := List.mem_map.mp hbefore
  obtain ⟨old', new', perms', hnode', hencode', hsmaller⟩ :=
    exists_encoded_of_mem_converted hd he ho' (hclean.converted o' ho')
  rw [hsame, hnode, Option.some.injEq, Node.mk.injEq, Content.file.injEq] at hnode'
  rw [hsame, hencode, Except.ok.injEq] at hencode'
  exact ⟨o', hsmaller.mpr (by rwa [← hnode'.1, ← hencode']), hsame⟩

/-- **The bytes that it is converted to are there already.** -/
lemma exists_stored (ho : o ∈ m.successful h') :
    ∃ bytes perms, m.converter.encode o.image (h'.disk.read? o.image) m.config.quality = .ok bytes ∧
      o.converted.IsPlace ∧
      h'.disk.node? (Listing.place o.converted) = some ⟨.file bytes, perms⟩ := by
  have he := isNewExtension_of_webp hwebp
  have hd' := hafter.isTree hd hwebp
  have himage := mem_images_of_mem_used hd' (mem_used_of_mem_successful ho)
  obtain ⟨o', ho', hsame⟩ := hafter.exists_successful hd hs hwebp hdry hclean hreads ho
  have hstored := isStored_run hd he hdry ho'
  have htarget : o'.converted = o.converted := by
    rw [hstored.target, (isMeasured_of_mem_successful hd' he ho).target, hsame]
  obtain ⟨-, bytes, -, perms, -, hencode, -, hnode⟩ := hstored.bytes
  rw [hsame, ← hafter.read?_of_mem_images hd hwebp himage] at hencode
  rw [htarget, ← hafter.disk] at hnode
  exact ⟨bytes, perms, hencode, htarget ▸ hstored.isNew.isPlace, hnode⟩

/-- **Nothing is left to be edited.** -/
lemma plan_eq_empty (hfile : file ∈ (m.inventory h).codes)
    (hread' : h'.disk.ReadsAs m.parser file source literals) :
    m.plan h' file source literals = .empty := by
  have hfault := faults_read_of_tracker hs hclean.tracker hfile
  have hvalues := hafter.stringsAt_eq hd hs hwebp hdry hclean hreads hfile
  rw [stringsAt_of_readsAs (hafter.faults ▸ hfault) hread'] at hvalues
  refine Plan.ofLiterals_eq_empty fun value' hvalue' => ?_
  rw [hvalues] at hvalue'
  obtain ⟨value, -, rfl⟩ := List.mem_map.mp hvalue'
  rw [hafter.project_eq hd hwebp]
  refine valueEdits_rewritten_eq_nil (hasPlainExtensions_lookup hd hwebp hdry) fun entry hentry => ?_
  obtain ⟨o, ho, himage⟩ := exists_successful_of_mem_lookup (hafter.isTree hd hwebp) hentry
  obtain ⟨o', ho', hsame⟩ := hafter.exists_successful hd hs hwebp hdry hclean hreads ho
  rw [← himage, ← hsame]
  exact exists_mem_lookup hd (isNewExtension_of_webp hwebp) hdry ho'

end After

end Migration

end ImageMigration
