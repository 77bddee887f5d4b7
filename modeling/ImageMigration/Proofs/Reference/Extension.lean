/-
References with another extension.

All that a reference is resolved by, its marks in front and its steps, stands in front of the point
of its extension. So whatever is read off a reference carries the extension at its end, and does not
depend on it otherwise.

* `Reference.withExtension`: a reference with its image extension exchanged;
* `Reference.isSome_ofExtension?_iff`: extensions of images, of files and of references;
* `Reference.exists_stem`: the path of a reference is a stem and an image extension;
* `Reference.CarriesExtension`: what carries the extension of a reference at its end;
* `Reference.exists_candidate`: candidates, in their dependence on the extension;
* `Lookup.exists_suffixes`: so are the suffixes.
-/
import ImageMigration.Outcome
import ImageMigration.Proofs.Edit.Apply
import ImageMigration.Proofs.Path.LastName
import ImageMigration.Proofs.Reference.Place

namespace ImageMigration

open Disk (pathOf)

/-! ### Marks in front -/

namespace Text

/-- A mark without points stands in front of a text or of what comes before its point. -/
lemma startsWith_point {mark : Text} (hmark : '.' ∉ mark) (stem x : Text) :
    startsWith (stem ++ '.' :: x) mark = startsWith stem mark := by
  induction mark generalizing stem with
  | nil => cases stem <;> rfl
  | cons c mark ih =>
      rw [List.mem_cons, not_or] at hmark
      cases stem with
      | nil =>
          have hc : (c == '.') = false := by simpa using Ne.symm hmark.1
          simp [startsWith, List.isPrefixOf, hc]
      | cons d stem =>
          have hrest := ih hmark.2 stem
          simp only [startsWith, List.cons_append, List.isPrefixOf] at hrest ⊢
          rw [hrest]

lemma dropStart?_point {mark : Text} (hmark : '.' ∉ mark) (stem x : Text) :
    dropStart? (stem ++ '.' :: x) mark = (dropStart? stem mark).map (· ++ '.' :: x) := by
  have hstarts := startsWith_point hmark stem x
  simp only [startsWith] at hstarts
  rw [dropStart?, dropStart?, hstarts]
  split
  · next h =>
    have hlen := (List.isPrefixOf_iff_prefix.mp h).length_le
    rw [List.drop_append_of_le_length hlen]
    rfl
  · rfl

end Text

namespace Reference

variable {r : Reference} {value stem x e : Text}

/-! ### The extension -/

/-- The reference with its image extension exchanged. -/
def withExtension (r : Reference) (e : Text) : Reference :=
  let stem := r.clean.take (r.clean.length - (r.clean.imageExtension?.getD []).length)
  { r with raw := stem ++ '.' :: e ++ r.query, clean := stem ++ '.' :: e }

/-- The two ways to tell an image by its extension agree. -/
lemma isSome_ofExtension?_iff :
    (ImageFormat.ofExtension? x).isSome = true ↔ Text.lowerAscii ('.' :: x) ∈ imageExtensions := by
  have hlower : Text.lowerAscii ('.' :: x) = '.' :: x.map Char.toLower := rfl
  have hword : Text.lowerAscii ('.' :: x) ∈ imageExtensions ↔
      x.map Char.toLower = "png".toList ∨ x.map Char.toLower = "jpg".toList ∨
        x.map Char.toLower = "jpeg".toList := by
    rw [hlower]
    simp [imageExtensions]
  rw [hword, ImageFormat.ofExtension?]
  generalize x.map Char.toLower = lower
  by_cases hjpeg : lower = "jpg".toList ∨ lower = "jpeg".toList
  · rw [if_pos hjpeg]
    exact iff_of_true rfl (Or.inr hjpeg)
  · rw [if_neg hjpeg]
    split
    · next hpng => exact iff_of_true rfl (Or.inl hpng)
    · next hpng => exact iff_of_false (by simp) fun h => h.elim hpng hjpeg

/-- No character but the point itself has it as its lower-case form. -/
lemma eq_point_of_toLower {c : Char} (h : c.toLower = '.') : c = '.' := by
  by_cases hc : 'A'.val ≤ c.val ∧ c.val ≤ 'Z'.val
  · exfalso
    have hval : c.val + ('a'.val - 'A'.val) = '.'.val :=
      congrArg Char.val ((dif_pos hc : c.toLower = _).symm.trans h)
    have hnat := congrArg UInt32.toNat hval
    have hshift : ('a'.val - 'A'.val).toNat = 32 := by decide
    have hpoint : '.'.val.toNat = 46 := by decide
    have hlow : 65 ≤ c.val.toNat := hc.1
    have hhigh : c.val.toNat ≤ 90 := hc.2
    rw [UInt32.toNat_add, hshift, hpoint] at hnat
    omega
  · have hsame : c.toLower = c := dif_neg hc
    rwa [hsame] at h

/-- An image extension is a point and a word behind it. -/
lemma exists_word_of_imageExtension {e : Text} (he : e ∈ imageExtensions) (h : x.lowerAscii = e) :
    ∃ word, x = '.' :: word ∧ IsExtension word := by
  have hall : ∀ e ∈ imageExtensions,
      ∃ word, e = '.' :: word ∧ word ≠ [] ∧ '.' ∉ word ∧ '/' ∉ word := by
    simp [imageExtensions]
  obtain ⟨lower, rfl, hne, hdot, hslash⟩ := hall e he
  cases x with
  | nil => exact absurd h (by simp [Text.lowerAscii])
  | cons c word =>
      have hparts : c.toLower = '.' ∧ word.map Char.toLower = lower := by
        simpa [Text.lowerAscii] using h
      refine ⟨word, by rw [eq_point_of_toLower hparts.1], ⟨?_, ?_, ?_⟩⟩
      · rintro rfl
        exact hne hparts.2.symm
      · intro hmem
        exact hdot (hparts.2 ▸ List.mem_map.mpr ⟨'.', hmem, by decide⟩)
      · intro hmem
        exact hslash (hparts.2 ▸ List.mem_map.mpr ⟨'/', hmem, by decide⟩)

/-- **The path of a reference is a stem and an image extension,** and with another extension it is
the same stem and that one. The range of the extension is the end of the path. -/
lemma exists_stem_of_token {token : Token} (h : ofToken? token = some r) :
    ∃ stem x, IsExtension x ∧ Text.lowerAscii ('.' :: x) ∈ imageExtensions ∧
      r.clean = stem ++ '.' :: x ∧
      r.extensionRange?
        = some (r.offset + stem.bytes, r.offset + stem.bytes + Text.bytes ('.' :: x)) ∧
      ∀ e, r.withExtension e
        = { r with raw := stem ++ '.' :: e ++ r.query, clean := stem ++ '.' :: e } := by
  obtain ⟨stem, x, hclean, -, hending, hrange⟩ := exists_ending h
  have hmem := List.mem_of_find?_eq_some hending
  obtain ⟨word, rfl, hword⟩ := exists_word_of_imageExtension hmem rfl
  refine ⟨stem, word, hword, hmem, hclean, hrange, fun e => ?_⟩
  have hlen : (Text.lowerAscii ('.' :: word)).length = ('.' :: word).length := List.length_map ..
  have hstem : r.clean.take (r.clean.length - (Text.lowerAscii ('.' :: word)).length) = stem := by
    rw [hlen, hclean, List.length_append, Nat.add_sub_cancel]
    exact List.take_left
  simp only [withExtension, hending, Option.getD_some, hstem]

/-- A reference of a value is a stem, its extension, and its query. -/
lemma exists_stem (h : r ∈ ofValue value) :
    ∃ stem x, IsExtension x ∧ r.clean = stem ++ '.' :: x ∧
      r.extensionRange?
        = some (r.offset + stem.bytes, r.offset + stem.bytes + Text.bytes ('.' :: x)) ∧
      ∀ e, r.withExtension e
        = { r with raw := stem ++ '.' :: e ++ r.query, clean := stem ++ '.' :: e } := by
  obtain ⟨token, -, htoken⟩ := exists_token_of_mem_ofValue h
  obtain ⟨stem, x, hx, -, hrest⟩ := exists_stem_of_token htoken
  exact ⟨stem, x, hx, hrest⟩

/-- A reference with another extension is what an edit of its extension makes of it. -/
lemma spliced_withExtension (h : r ∈ ofValue value) (e : Text) :
    ∃ start stop, r.extensionRange? = some (r.offset + start, r.offset + stop) ∧
      Edit.Spliced r.raw [⟨start, stop, '.' :: e⟩] (r.withExtension e).raw := by
  obtain ⟨stem, x, -, hclean, hrange, hwith⟩ := exists_stem h
  refine ⟨stem.bytes, stem.bytes + Text.bytes ('.' :: x), by rw [hrange, Nat.add_assoc], ?_⟩
  rw [hwith, raw_eq_of_mem_ofValue h, hclean]
  exact .cons rfl rfl (.nil stem)

/-! ### Suffixes -/

/-- What is read off references with the given stem is a text, followed by the extension. -/
def CarriesExtension (stem : Text) (f : Reference → Text) (s : Text) : Prop :=
  ∀ (r : Reference) (x : Text), r.clean = stem ++ '.' :: x → f r = s ++ '.' :: x

lemma exists_publicSuffix (stem : Text) : ∃ s, CarriesExtension stem publicSuffix s := by
  refine ⟨(stem.dropStart? ['/']).getD stem, fun r x hr => ?_⟩
  rw [publicSuffix, hr, Text.dropStart?_point (by decide)]
  cases stem.dropStart? ['/'] <;> rfl

lemma exists_aliasSuffix (stem : Text) : ∃ s, CarriesExtension stem aliasSuffix s := by
  refine ⟨((aliasMarkers.findSome? fun mark => stem.dropStart? mark).getD stem).dropWhile
    (· == '/'), fun r x hr => ?_⟩
  have hfind : ∀ marks : List Text, (∀ mark ∈ marks, '.' ∉ mark) →
      (marks.findSome? fun mark => Text.dropStart? (stem ++ '.' :: x) mark)
        = (marks.findSome? fun mark => stem.dropStart? mark).map (· ++ '.' :: x) := by
    intro marks hmarks
    induction marks with
    | nil => rfl
    | cons mark marks ih =>
        have hrest := ih fun m hm => hmarks m (List.mem_cons_of_mem _ hm)
        rw [List.findSome?_cons, List.findSome?_cons, Text.dropStart?_point (hmarks mark (by simp)),
          hrest]
        cases stem.dropStart? mark <;> rfl
  have hdrop : ∀ s : Text, (s ++ '.' :: x).dropWhile (· == '/')
      = s.dropWhile (· == '/') ++ '.' :: x := by
    intro s
    induction s with
    | nil => rfl
    | cons c s ih =>
        rw [List.cons_append, List.dropWhile_cons, List.dropWhile_cons, ih]
        split <;> rfl
  rw [aliasSuffix, hr, hfind aliasMarkers (by decide), ← hdrop]
  cases aliasMarkers.findSome? fun mark => stem.dropStart? mark <;> rfl

/-- The conventions for a reference do not depend on its extension. -/
lemma conventions_eq {r r' : Reference} {x e : Text} (hr : r.clean = stem ++ '.' :: x)
    (hr' : r'.clean = stem ++ '.' :: e) : r'.style = r.style ∧ r'.conventions = r.conventions := by
  have hstyle : r'.style = r.style := by
    rw [style, style, isRootAbsolute, isRootAbsolute, hr, hr', Text.startsWith_point (by decide),
      Text.startsWith_point (by decide)]
  exact ⟨hstyle, by rw [conventions, conventions, hstyle]⟩

end Reference

/-! ### Candidates -/

section Candidates

open Reference (CarriesExtension)

variable {site : Site}

/-- The path that a convention names carries the extension of the reference. -/
lemma Convention.exists_resolve (hproject : site.project.isAbsolute = true)
    (hfile : site.file.isAbsolute = true) (stem : Text) (c : Convention) :
    ∃ w : Text, w.head? = some '/' ∧ CarriesExtension stem (fun r => (c.resolve r site).text) w := by
  have hjoin : ∀ {dir : Path} {f : Reference → Text} {s : Text}, dir.isAbsolute = true →
      CarriesExtension stem f s → ∃ w : Text, w.head? = some '/' ∧
        CarriesExtension stem (fun r => (dir.join ⟨f r⟩).text) w := by
    intro dir f s hdir hf
    obtain ⟨w, hw, hj⟩ := Path.exists_join_append dir s
    refine ⟨w, hw hdir, fun r x hr => ?_⟩
    calc (dir.join ⟨f r⟩).text = (dir.join ⟨s ++ '.' :: x⟩).text := by rw [hf r x hr]
      _ = w ++ '.' :: x := congrArg Path.text (hj _ (by simp))
  obtain ⟨s, hs⟩ := Reference.exists_publicSuffix stem
  obtain ⟨t, ht⟩ := Reference.exists_aliasSuffix stem
  have hclean : CarriesExtension stem Reference.clean stem := fun r x hr => hr
  have hdir : (site.file.parent?.getD site.project).isAbsolute = true := by
    cases hp : site.file.parent? with
    | none => exact hproject
    | some dir => exact Path.isAbsolute_parent? hfile hp
  cases c with
  | publicDir => exact hjoin (isAbsolute_join hproject _) hs
  | projectRoot => exact hjoin hproject hs
  | srcPublicDir => exact hjoin (isAbsolute_join (isAbsolute_join hproject _) _) hs
  | relativeToFile => exact hjoin hdir hclean
  | aliasRoot => exact hjoin hproject ht
  | aliasSrc => exact hjoin (isAbsolute_join hproject _) ht

/-- **Candidates, in their dependence on the extension:** places whose last name carries it. -/
lemma Reference.exists_candidate (hproject : site.project.isAbsolute = true)
    (hfile : site.file.isAbsolute = true) (stem : Text) (c : Convention) :
    ∃ l v, AreNames l ∧ '/' ∉ v ∧ ∀ (r : Reference) (x : Text), r.clean = stem ++ '.' :: x →
      IsExtension x → r.candidate site c = pathOf (l ++ [v ++ '.' :: x]) := by
  obtain ⟨w, hw, hresolve⟩ := c.exists_resolve hproject hfile stem
  obtain ⟨l, v, hl, hv, hnormal⟩ := Path.exists_normal_append hw
  refine ⟨l, v, hl, hv, fun r x hr hx => ?_⟩
  have hpath : c.resolve r site = ⟨w ++ '.' :: x⟩ := congrArg Path.mk (hresolve r x hr)
  rw [candidate, hpath]
  exact hnormal _ (isName_point hv hx)

/-- The suffixes by which a lookup is searched carry the extension of the reference. -/
lemma Lookup.exists_suffixes (stem : Text) :
    ∃ ws : List Text, ∀ (r : Reference) (x : Text), r.clean = stem ++ '.' :: x →
      suffixes r = ws.map fun w => ⟨w ++ '.' :: x⟩ := by
  obtain ⟨s, hs⟩ := Reference.exists_publicSuffix stem
  obtain ⟨t, ht⟩ := Reference.exists_aliasSuffix stem
  obtain ⟨w, -, hjoin⟩ := Path.exists_join_append ⟨"public".toList⟩ s
  have hstyle : ∀ (r : Reference) (x : Text), r.clean = stem ++ '.' :: x →
      r.style = if stem.startsWith ['/'] then .rootAbsolute else .relative := by
    intro r x hr
    rw [Reference.style, Reference.isRootAbsolute, hr, Text.startsWith_point (by decide)]
  by_cases hroot : stem.startsWith ['/'] = true
  · refine ⟨[w, s], fun r x hr => ?_⟩
    rw [suffixes, hstyle r x hr, if_pos hroot, hs r x hr, hjoin _ (by simp)]
    rfl
  · refine ⟨[t], fun r x hr => ?_⟩
    rw [suffixes, hstyle r x hr, if_neg hroot, ht r x hr]
    rfl

end Candidates

end ImageMigration
