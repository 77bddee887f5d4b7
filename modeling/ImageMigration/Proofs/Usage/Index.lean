/-
What the references of the sources name, gathered file by file.

The index of a project only grows: every file adds what its references name, or itself as a file
that could not be read. So what one file adds is there at the end, whatever the other files hold.

* `UsageIndex.Covers`: an index knows all that a reference names; `UsageIndex.Grows`: the order in
  which indices follow each other;
* `Disk.ReadsAs`: what the reading of a file gives;
* `IndexEnds`: **all the ways in which reading one file can end**; `indexFile_cases`: what they have
  in common;
* `covers_indexUsages`: a file that is read gives all its references to the index;
* `covers_of_no_failures`: without failures, every file was read;
* `mem_used_iff`, `mem_unused_iff`: the images are told apart by the index.
-/
import ImageMigration.Usage
import ImageMigration.Proofs.Host.Answers

namespace ImageMigration

/-! ### Lists without repetitions -/

section Distinct

variable {α : Type} [BEq α] [LawfulBEq α] {items acc : List α} {a : α}

lemma mem_addNew {b : α} : b ∈ addNew items a ↔ b ∈ items ∨ b = a := by
  rw [addNew]
  split
  · next h =>
    have ha : a ∈ items := List.contains_iff_mem.mp h
    exact ⟨Or.inl, fun hb => hb.elim id fun hba => hba ▸ ha⟩
  · simp

lemma nodup_addNew (h : items.Nodup) : (addNew items a).Nodup := by
  rw [addNew]
  split
  · exact h
  · next hc =>
    have ha : a ∉ items := fun hmem => hc (List.contains_iff_mem.mpr hmem)
    exact List.nodup_append.mpr ⟨h, by simp, fun x hx y hy => by
      rw [List.mem_singleton.mp hy]
      exact fun hxa => ha (hxa ▸ hx)⟩

lemma mem_foldl_addNew : a ∈ items.foldl addNew acc ↔ a ∈ acc ∨ a ∈ items := by
  induction items generalizing acc with
  | nil => simp
  | cons b items ih => rw [List.foldl_cons, ih, mem_addNew, List.mem_cons, or_assoc]

lemma nodup_foldl_addNew (h : acc.Nodup) : (items.foldl addNew acc).Nodup := by
  induction items generalizing acc with
  | nil => exact h
  | cons b items ih => exact ih (nodup_addNew h)

/-- Items that are all new are added as they are. -/
lemma foldl_addNew_eq (h : (acc ++ items).Nodup) : items.foldl addNew acc = acc ++ items := by
  induction items generalizing acc with
  | nil => simp
  | cons a items ih =>
      have hnew : a ∉ acc := fun ha =>
        (List.nodup_append.mp h).2.2 a ha a (by simp) rfl
      have hadd : addNew acc a = acc ++ [a] := by
        rw [addNew, if_neg fun hc => hnew (List.contains_iff_mem.mp hc)]
      rw [List.foldl_cons, hadd, ih (by simpa using h)]
      simp

lemma distinct_eq_self (h : items.Nodup) : distinct items = items := by
  rw [distinct, foldl_addNew_eq (by simpa using h), List.nil_append]

lemma mem_distinct : a ∈ distinct items ↔ a ∈ items := by
  rw [distinct, mem_foldl_addNew]
  simp

lemma nodup_distinct (items : List α) : (distinct items).Nodup := nodup_foldl_addNew List.nodup_nil

end Distinct

namespace UsageIndex

variable {index index' index'' : UsageIndex} {site site' : Site} {r r' : Reference}
  {references : List Reference}

/-- Everything that a reference names is known. -/
def Covers (index : UsageIndex) (site : Site) (r : Reference) : Prop :=
  (∀ p ∈ r.candidates site, p ∈ index.candidates) ∧
    (r.isRootAbsolute = true → r.publicSuffix ∈ index.publicUsages)

/-- What an index knows stays known, and its failures stay, too. -/
structure Grows (index index' : UsageIndex) : Prop where
  candidates : index.candidates ⊆ index'.candidates
  publicUsages : index.publicUsages ⊆ index'.publicUsages
  parseFailures : index.parseFailures ⊆ index'.parseFailures

lemma Grows.refl (index : UsageIndex) : Grows index index :=
  ⟨List.Subset.refl _, List.Subset.refl _, List.Subset.refl _⟩

lemma Grows.trans (h : Grows index index') (h' : Grows index' index'') : Grows index index'' :=
  ⟨List.Subset.trans h.candidates h'.candidates, List.Subset.trans h.publicUsages h'.publicUsages,
    List.Subset.trans h.parseFailures h'.parseFailures⟩

lemma Covers.mono (h : Grows index index') (hc : index.Covers site r) : index'.Covers site r :=
  ⟨fun p hp => h.candidates (hc.1 p hp), fun hr => h.publicUsages (hc.2 hr)⟩

lemma grows_addFailure (index : UsageIndex) (file : Path) : Grows index (index.addFailure file) :=
  ⟨List.Subset.refl _, List.Subset.refl _, List.subset_append_left _ _⟩

lemma grows_addReference (site : Site) (index : UsageIndex) (r : Reference) :
    Grows index (addReference site index r) := by
  rw [addReference]
  cases r.kind with
  | dynamic => exact ⟨List.Subset.refl _, List.Subset.refl _, List.Subset.refl _⟩
  | static =>
      refine ⟨fun p hp => mem_foldl_addNew.mpr (Or.inl hp), fun u hu => ?_, List.Subset.refl _⟩
      simp only
      split
      · exact mem_addNew.mpr (Or.inl hu)
      · exact hu

lemma grows_foldl_addReference (site : Site) (references : List Reference) (index : UsageIndex) :
    Grows index (references.foldl (addReference site) index) := by
  induction references generalizing index with
  | nil => exact Grows.refl index
  | cons r references ih => exact (grows_addReference site index r).trans (ih _)

/-- A reference to resolve is known once it was added. -/
lemma covers_addReference (hr : r.kind = .static) : (addReference site index r).Covers site r := by
  rw [addReference, hr]
  refine ⟨fun p hp => mem_foldl_addNew.mpr (Or.inr hp), fun habs => ?_⟩
  simp only [habs, if_true]
  exact mem_addNew.mpr (Or.inr rfl)

lemma covers_foldl_addReference (hmem : r ∈ references) (hr : r.kind = .static) :
    (references.foldl (addReference site) index).Covers site r := by
  obtain ⟨front, back, rfl⟩ := List.append_of_mem hmem
  rw [List.foldl_append, List.foldl_cons]
  exact (covers_addReference hr).mono (grows_foldl_addReference site back _)

/-- An image that a known reference may denote is named. -/
lemma names_of_mem_candidates {image : Path} (hc : index.Covers site r)
    (h : image ∈ r.candidates site) : index.names image = true := by
  rw [names, Bool.or_eq_true, List.contains_iff_mem]
  exact Or.inl (hc.1 image h)

/-- An image that ends with what a known reference from the root names is named. -/
lemma names_of_endsWithUsage {image : Path} (hc : index.Covers site r)
    (hr : r.isRootAbsolute = true) (h : image.endsWithUsage r.publicSuffix = true) :
    index.names image = true := by
  rw [names, Bool.or_eq_true, List.any_eq_true]
  exact Or.inr ⟨r.publicSuffix, hc.2 hr, h⟩

end UsageIndex

/-! ### Files -/

/-- What the reading of a file gives: its text, and the literals in it. -/
structure Disk.ReadsAs (d : Disk) (parser : ParserOf) (file : Path) (source : Text)
    (literals : List Literal) : Prop where
  text : d.readText? file = .ok source
  parse : parser.literals? file source = some literals

section Files

variable {parser : ParserOf} {project file : Path} {codes : List Path} {h : Host}
  {index : UsageIndex} {d : Disk} {source source' : Text} {literals literals' : List Literal}

/-- A file is read in one way. -/
lemma Disk.ReadsAs.unique (hread : d.ReadsAs parser file source literals)
    (hread' : d.ReadsAs parser file source' literals') :
    source' = source ∧ literals' = literals := by
  obtain ⟨htext, hparse⟩ := hread
  obtain ⟨htext', hparse'⟩ := hread'
  have hsource : source' = source := Except.ok.inj (htext'.symm.trans htext)
  subst hsource
  exact ⟨rfl, Option.some.inj (hparse'.symm.trans hparse)⟩

/-- The references of a file that was read are all known. -/
def UsageIndex.CoversFile (index : UsageIndex) (parser : ParserOf) (d : Disk) (project : Path)
    (file : Path) : Prop :=
  ∃ source literals, d.ReadsAs parser file source literals ∧
    ∀ literal ∈ literals, ∀ r ∈ literal.references, r.kind = .static →
      index.Covers ⟨project, file⟩ r

lemma UsageIndex.CoversFile.mono {index index' : UsageIndex} (h : index.Grows index')
    (hc : index.CoversFile parser d project file) : index'.CoversFile parser d project file := by
  obtain ⟨source, literals, hread, hcover⟩ := hc
  exact ⟨source, literals, hread, fun l hl r hr hs => (hcover l hl r hr hs).mono h⟩

/-- All that is known of a file that was read is known of its literals. -/
lemma UsageIndex.CoversFile.covers (hc : index.CoversFile parser d project file)
    (hread : d.ReadsAs parser file source literals) :
    ∀ literal ∈ literals, ∀ r ∈ literal.references, r.kind = .static →
      index.Covers ⟨project, file⟩ r := by
  obtain ⟨source', literals', hread', hcover⟩ := hc
  obtain ⟨rfl, rfl⟩ := hread.unique hread'
  exact hcover

/-- Reading one file ends with `after`: it cannot be read or understood and becomes a failure, or its
references are added. -/
inductive IndexEnds (parser : ParserOf) (project : Path) (index : UsageIndex) (h : Host)
    (file : Path) : (after : UsageIndex × Host) → Prop
  | unread (e : OsError) (hread : h.answer .read file (·.readText? file) = .error e) :
      IndexEnds parser project index h file
        (index.addFailure (file.relativeTo project), h.tick.report (.failed .read file e.message))
  | unparsed (source : Text) (hread : h.answer .read file (·.readText? file) = .ok source)
      (hparse : parser.literals? file source = none) :
      IndexEnds parser project index h file
        (index.addFailure (file.relativeTo project),
          h.tick.report (.parseFailed .analysis file (Failure.parse file).message))
  | indexed (source : Text) (literals : List Literal)
      (hread : h.answer .read file (·.readText? file) = .ok source)
      (hparse : parser.literals? file source = some literals) :
      IndexEnds parser project index h file
        ((literals.flatMap Literal.references).foldl (UsageIndex.addReference ⟨project, file⟩) index,
          h.tick.reportAll
            ((literals.flatMap Literal.references).flatMap (referenceEvents ⟨project, file⟩)))

/-- **Reading one file ends in one of these ways.** -/
lemma indexEnds (parser : ParserOf) (project : Path) (index : UsageIndex) (h : Host)
    (file : Path) :
    IndexEnds parser project index h file (indexFile parser project (index, h) file) := by
  rw [indexFile, Host.look_eq]
  cases hread : h.answer .read file (·.readText? file) with
  | error e => exact .unread e hread
  | ok source =>
      cases hparse : parser.literals? file source with
      | none =>
          simp only [hparse]
          exact .unparsed source hread hparse
      | some literals =>
          simp only [hparse]
          exact .indexed source literals hread hparse

/-- Reading one file: it becomes a failure, or all its references become known. The tree and what is
bound to fail stay. -/
lemma indexFile_cases (parser : ParserOf) (project : Path) (index : UsageIndex) (h : Host)
    (file : Path) :
    let (index', h') := indexFile parser project (index, h) file
    h'.disk = h.disk ∧ h'.faults = h.faults ∧ index.Grows index' ∧
      (file.relativeTo project ∈ index'.parseFailures ∨
        index'.CoversFile parser h.disk project file) := by
  have hfailed : file.relativeTo project
      ∈ (index.addFailure (file.relativeTo project)).parseFailures := by
    simp [UsageIndex.addFailure]
  have hends := indexEnds parser project index h file
  generalize indexFile parser project (index, h) file = after at hends ⊢
  cases hends with
  | unread => exact ⟨rfl, rfl, index.grows_addFailure _, Or.inl hfailed⟩
  | unparsed => exact ⟨rfl, rfl, index.grows_addFailure _, Or.inl hfailed⟩
  | indexed source literals hread hparse =>
      refine ⟨rfl, rfl, UsageIndex.grows_foldl_addReference _ _ _,
        Or.inr ⟨source, literals, ⟨Host.eq_ok_of_answer hread, hparse⟩, fun l hl r hr hs => ?_⟩⟩
      exact UsageIndex.covers_foldl_addReference (List.mem_flatMap.mpr ⟨l, hl, hr⟩) hs

/-- A file that can be read, understood, and does not fail gives its references to the index. -/
lemma coversFile_indexFile {state : UsageIndex × Host}
    (hf : ∀ n, state.2.faults n .read file = none)
    (hread : state.2.disk.ReadsAs parser file source literals) :
    (indexFile parser project state file).1.CoversFile parser state.2.disk project file := by
  have hanswer : state.2.answer .read file (·.readText? file) = .ok source := by
    rw [Host.answer, hf]
    exact hread.text
  have hends := indexEnds parser project state.1 state.2 file
  generalize indexFile parser project state file = after at hends ⊢
  cases hends with
  | unread e hfail => exact absurd (hanswer.symm.trans hfail) (by simp)
  | unparsed source' hread' hparse =>
      obtain rfl := Except.ok.inj (hanswer.symm.trans hread')
      exact absurd (hread.parse.symm.trans hparse) (by simp)
  | indexed source' literals' hread' hparse =>
      refine ⟨source', literals', ⟨Host.eq_ok_of_answer hread', hparse⟩, fun l hl r hr hs => ?_⟩
      exact UsageIndex.covers_foldl_addReference (List.mem_flatMap.mpr ⟨l, hl, hr⟩) hs

lemma foldl_indexFile (parser : ParserOf) (project : Path) (codes : List Path)
    (state : UsageIndex × Host) :
    (codes.foldl (indexFile parser project) state).2.disk = state.2.disk ∧
      (codes.foldl (indexFile parser project) state).2.faults = state.2.faults ∧
      state.1.Grows (codes.foldl (indexFile parser project) state).1 := by
  induction codes generalizing state with
  | nil => exact ⟨rfl, rfl, UsageIndex.Grows.refl _⟩
  | cons file codes ih =>
      obtain ⟨hdisk, hfaults, hgrows, -⟩ := indexFile_cases parser project state.1 state.2 file
      obtain ⟨hd, hf, hg⟩ := ih (indexFile parser project state file)
      rw [List.foldl_cons]
      exact ⟨hd.trans hdisk, hf.trans hfaults, hgrows.trans hg⟩

@[simp] lemma disk_indexUsages (parser : ParserOf) (codes : List Path) (project : Path) (h : Host) :
    (indexUsages parser codes project h).2.disk = h.disk :=
  (foldl_indexFile parser project codes (UsageIndex.empty, h)).1

/-- **A file that is read gives all its references to the index,** whatever the others give. -/
lemma covers_indexUsages (hmem : file ∈ codes) (hf : ∀ n, h.faults n .read file = none)
    (hread : h.disk.ReadsAs parser file source literals) :
    (indexUsages parser codes project h).1.CoversFile parser h.disk project file := by
  obtain ⟨front, back, rfl⟩ := List.append_of_mem hmem
  rw [indexUsages, List.foldl_append, List.foldl_cons]
  obtain ⟨hd, hfaults, -⟩ :=
    foldl_indexFile parser project front (UsageIndex.empty, h)
  generalize front.foldl (indexFile parser project) (UsageIndex.empty, h) = state at hd hfaults
  have hfile :
      (indexFile parser project state file).1.CoversFile parser state.2.disk project file :=
    coversFile_indexFile (fun n => by rw [hfaults]; exact hf n) (by rw [hd]; exact hread)
  rw [hd] at hfile
  exact hfile.mono (foldl_indexFile parser project back _).2.2

/-- **Without failures every file was read,** and its references are known. -/
lemma covers_of_no_failures (hmem : file ∈ codes)
    (hno : (indexUsages parser codes project h).1.parseFailures = []) :
    (indexUsages parser codes project h).1.CoversFile parser h.disk project file := by
  obtain ⟨front, back, rfl⟩ := List.append_of_mem hmem
  rw [indexUsages, List.foldl_append, List.foldl_cons] at hno ⊢
  obtain ⟨hd, -, -⟩ :=
    foldl_indexFile parser project front (UsageIndex.empty, h)
  generalize front.foldl (indexFile parser project) (UsageIndex.empty, h) = state at hd hno ⊢
  obtain ⟨-, -, -, hcase⟩ := indexFile_cases parser project state.1 state.2 file
  have hback := (foldl_indexFile parser project back
    (indexFile parser project state file)).2.2
  rcases hcase with hfail | hcover
  · have hmem' := hback.parseFailures hfail
    rw [hno] at hmem'
    exact absurd hmem' (by simp)
  · rw [hd] at hcover
    exact hcover.mono hback

end Files

/-! ### Classifications -/

section Classify

variable {parser : ParserOf} {codes images : List Path} {project p : Path} {config : Config}
  {h : Host}

/-- The images are told apart by the index of the sources. -/
lemma classify_fst (parser : ParserOf) (codes images : List Path) (project : Path) (config : Config)
    (h : Host) :
    (classify parser codes images project config h).1
      = .ofIndex (indexUsages parser codes project h).1 (distinct (images.map Path.normal)) := rfl

@[simp] lemma disk_classify (parser : ParserOf) (codes images : List Path) (project : Path)
    (config : Config) (h : Host) :
    (classify parser codes images project config h).2.disk = h.disk := by
  simp only [classify]
  split <;> simp

lemma mem_used_iff :
    p ∈ (classify parser codes images project config h).1.used ↔
      p ∈ images.map Path.normal ∧ (indexUsages parser codes project h).1.names p = true := by
  rw [classify_fst, Classification.ofIndex, List.mem_filter, mem_distinct]

lemma mem_unused_iff :
    p ∈ (classify parser codes images project config h).1.unused ↔
      p ∈ images.map Path.normal ∧ (indexUsages parser codes project h).1.names p = false := by
  rw [classify_fst, Classification.ofIndex, List.mem_filter, mem_distinct, Bool.not_eq_true']

lemma nodup_used : (classify parser codes images project config h).1.used.Nodup := by
  rw [classify_fst]
  exact (nodup_distinct _).filter _

lemma nodup_unused : (classify parser codes images project config h).1.unused.Nodup := by
  rw [classify_fst]
  exact (nodup_distinct _).filter _

/-- Every image is used or unused. -/
lemma mem_used_or_mem_unused (hp : p ∈ images.map Path.normal) :
    p ∈ (classify parser codes images project config h).1.used ∨
      p ∈ (classify parser codes images project config h).1.unused := by
  rw [mem_used_iff, mem_unused_iff]
  cases (indexUsages parser codes project h).1.names p with
  | true => exact Or.inl ⟨hp, rfl⟩
  | false => exact Or.inr ⟨hp, rfl⟩

/-- No image is used and unused. -/
lemma not_mem_unused_of_mem_used (hp : p ∈ (classify parser codes images project config h).1.used) :
    p ∉ (classify parser codes images project config h).1.unused := by
  intro hq
  rw [mem_used_iff] at hp
  rw [mem_unused_iff] at hq
  exact absurd (hp.2.symm.trans hq.2) (by simp)

end Classify

end ImageMigration
