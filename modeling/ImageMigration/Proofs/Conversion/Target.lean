/-
The targets of a batch.

The target of an image lies beside it, and an image that is itself such a target is its own target.
So an image that another image would replace shares the target with that image, and both are
refused.

* `Converter.target_pathOf`: the target of an image with any name;
* `Converter.collides_eq_false_iff`: when an image has its target for itself;
* `Converter.collides_of_target_mem`: **an image whose target is another image is refused.**
-/
import ImageMigration.Proofs.Conversion.Batch
import ImageMigration.Proofs.Path.LastName

namespace ImageMigration

open Disk (pathOf)

variable {l : Location} {n e : Text}

/-- An extension is added to a name that has none. -/
lemma withExtension_pathOf_of_none (h : AreNames (l ++ [n])) (hn : Path.splitName n = (n, none))
    (he : e ≠ []) : (pathOf (l ++ [n])).withExtension e = pathOf (l ++ [n ++ '.' :: e]) := by
  have hempty : e.isEmpty = false := by simpa using he
  have hbody : Path.ofSegments .root (l ++ [n]) = pathOf (l ++ [n]) := rfl
  have hsame : (⟨(pathOf (l ++ [n])).text⟩ : Path) = pathOf (l ++ [n]) := rfl
  rw [Path.withExtension, Path.extension?_pathOf h, hn]
  simp only [Option.getD_none, List.length_nil, Nat.sub_zero, List.take_length, hsame]
  rw [Path.setExtension, fileName?_pathOf h]
  simp only [segments_pathOf h (by simp), dropSilentEnd_names h, hbody, hn, Nat.sub_self,
    Nat.sub_zero, List.take_length, hempty, Bool.false_eq_true, if_false]
  rw [← text_pathOf_concat_append]

/-- A name that is not cut keeps all of its text as the stem. -/
lemma Path.splitName_fst_of_none {n stem : Text} (h : splitName n = (stem, none)) : stem = n := by
  rw [splitName] at h
  split at h <;> simp_all

/-- An absolute path in normal form with a file name. -/
def Path.IsEntry (p : Path) : Prop := ∃ l n, AreNames (l ++ [n]) ∧ p = pathOf (l ++ [n])

lemma Path.isEntry_of_normal {p : Path} (habs : p.isAbsolute = true) (hnormal : p.normal = p)
    (hname : p.fileName?.isSome = true) : p.IsEntry := by
  obtain ⟨l, hl, hp⟩ := exists_place_of_isAbsolute habs
  rw [hnormal] at hp
  rcases List.eq_nil_or_concat' l with rfl | ⟨front, n, rfl⟩
  · rw [hp] at hname
    exact absurd hname (by decide)
  · exact ⟨front, n, hl, hp⟩

lemma Path.IsEntry.isPlace {p : Path} (h : p.IsEntry) : p.IsPlace := by
  obtain ⟨l, n, hnames, rfl⟩ := h
  exact isPlace_pathOf hnames

namespace Converter

variable {c : Converter} {images : List Path} {i j : Path}

/-- **The target of an image with any name** is beside it and is its own target, unless the stem of
the name is a point. Then it is the way to the directory above. -/
lemma target_pathOf (he : IsExtension c.extension) (h : AreNames (l ++ [n])) :
    c.target (pathOf (l ++ [n])) = pathOf (l ++ [['.', '.']]) ∨
      ∃ n', AreNames (l ++ [n']) ∧ c.target (pathOf (l ++ [n])) = pathOf (l ++ [n']) ∧
        c.target (pathOf (l ++ [n'])) = pathOf (l ++ [n']) := by
  -- a name with the new extension is its own target
  have hnew : ∀ stem : Text, stem ≠ [] → stem ≠ ['.'] → AreNames (l ++ [stem ++ '.' :: c.extension]) →
      c.target (pathOf (l ++ [stem ++ '.' :: c.extension]))
        = pathOf (l ++ [stem ++ '.' :: c.extension]) := by
    intro stem hne hpoint hnames
    rw [target, withExtension_pathOf hnames he.no_dot hne he.ne_nil, if_neg hpoint]
  cases hs : Path.splitName n with
  | mk stem extension =>
      cases extension with
      | none =>
          obtain rfl := Path.splitName_fst_of_none hs
          have hnames : AreNames (l ++ [stem ++ '.' :: c.extension]) :=
            h.left.concat (isName_point h.last.no_slash he)
          have hpoint : stem ≠ ['.'] := by
            rintro rfl
            exact absurd h.last.not_silent (by decide)
          exact Or.inr ⟨_, hnames, withExtension_pathOf_of_none h hs he.ne_nil,
            hnew _ h.last.ne_nil hpoint hnames⟩
      | some old =>
          obtain ⟨rfl, hdot, hne⟩ := Path.splitName_eq_some_iff.mp hs
          have htarget : c.target (pathOf (l ++ [stem ++ '.' :: old]))
              = pathOf (l ++ [if stem = ['.'] then ['.', '.'] else stem ++ '.' :: c.extension]) :=
            withExtension_pathOf h hdot hne he.ne_nil
          by_cases hpoint : stem = ['.']
          · exact Or.inl (by rw [htarget, if_pos hpoint])
          · rw [if_neg hpoint] at htarget
            have hnames : AreNames (l ++ [stem ++ '.' :: c.extension]) :=
              h.left.concat (h.last.set_extension hne he.ne_nil he.no_slash)
            exact Or.inr ⟨_, hnames, htarget, hnew _ hne hpoint hnames⟩

/-- An image has its target for itself if no other image has it. -/
lemma collides_eq_false_iff (hnodup : images.Nodup) (hi : i ∈ images) :
    c.collides images i = false ↔
      ∀ j ∈ images, j ≠ i → (c.target j).same (c.target i) = false := by
  obtain ⟨front, back, rfl⟩ := List.append_of_mem hi
  have hself : (c.target i).same (c.target i) = true := by simp [Path.same]
  -- the other images stand in front of this one and behind it
  have hothers : ∀ j ∈ front ++ back, j ≠ i := by
    rw [List.nodup_middle, List.nodup_cons] at hnodup
    rintro j hj rfl
    exact hnodup.1 hj
  have hlength : c.collides (front ++ i :: back) i = false ↔
      (front.filter fun j => (c.target j).same (c.target i)) = [] ∧
        (back.filter fun j => (c.target j).same (c.target i)) = [] := by
    rw [collides, decide_eq_false_iff_not, List.filter_append, List.filter_cons, if_pos hself,
      List.length_append, List.length_cons, ← List.length_eq_zero_iff, ← List.length_eq_zero_iff]
    omega
  rw [hlength, List.filter_eq_nil_iff, List.filter_eq_nil_iff]
  constructor
  · rintro ⟨hfront, hback⟩ j hj hne
    rcases List.mem_append.mp hj with hj | hj
    · simpa using hfront j hj
    · simpa using hback j ((List.mem_cons.mp hj).resolve_left hne)
  · intro h
    refine ⟨fun j hj => ?_, fun j hj => ?_⟩
    · simp [h j (by simp [hj]) (hothers j (by simp [hj]))]
    · simp [h j (by simp [hj]) (hothers j (by simp [hj]))]

/-- **An image whose target is another image is refused,** for that image has the same target. -/
lemma collides_of_target_mem (he : IsExtension c.extension) (hi : i ∈ images)
    (ht : c.target i ∈ images) (hne : c.target i ≠ i) (hentry : i.IsEntry)
    (htarget : (c.target i).IsEntry) : c.collides images i = true := by
  obtain ⟨l, n, hnames, rfl⟩ := hentry
  refine collides_of_target_eq hi ht (Ne.symm hne) ?_
  rcases target_pathOf he hnames with hdots | ⟨n', -, hn', hself⟩
  · obtain ⟨l', n', hnames', hpath⟩ := htarget
    have hnone := fileName?_pathOf_dots l
    rw [← hdots, hpath, fileName?_pathOf hnames'] at hnone
    exact absurd hnone (by simp)
  · rw [hn', hself]

end Converter

end ImageMigration
