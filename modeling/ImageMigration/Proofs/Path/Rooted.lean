/-
Absolute paths in normal form are places.

Such a path is a slash and names with slashes between them, so it can be told by its list of names
alone. What the operations on paths do to it can be read off that list.

* `IsName`, `AreNames`: what a directory can list, and the places made of that;
* `exists_place_of_isAbsolute`: the normal form of an absolute path is the path of a place;
* `components_pathOf`, `place_pathOf`, `normal_pathOf`: the path of a place has the place as its
  steps, and is its own normal form; so `pathOf_injective`;
* `Path.IsPlace`, `isPlace_iff`: paths that are the paths of their places;
* `join_pathOf`, `fileName?_pathOf`: the path of a place and one more name.
-/
import Mathlib.Data.List.Induction
import ImageMigration.Disk.Listing
import ImageMigration.Path.Normal
import ImageMigration.Proofs.Text.Cut

namespace ImageMigration

open Disk (pathOf)
open ImageMigration.Path (isSilent Component)

/-- What a directory can list: a name that takes a step down, and only one. -/
structure IsName (n : Text) : Prop where
  not_silent : isSilent n = false
  ne_dots : n ≠ ['.', '.']
  no_slash : '/' ∉ n

/-- A place whose names directories can list. -/
def AreNames (l : Location) : Prop := ∀ n ∈ l, IsName n

instance (n : Text) : Decidable (IsName n) :=
  decidable_of_iff (isSilent n = false ∧ n ≠ ['.', '.'] ∧ '/' ∉ n)
    ⟨fun ⟨hs, hd, hn⟩ => ⟨hs, hd, hn⟩, fun h => ⟨h.not_silent, h.ne_dots, h.no_slash⟩⟩

instance (l : Location) : Decidable (AreNames l) :=
  inferInstanceAs (Decidable (∀ n ∈ l, IsName n))

namespace IsName

variable {n : Text}

lemma ne_nil (h : IsName n) : n ≠ [] := by
  intro hn
  have hs := h.not_silent
  rw [hn] at hs
  exact absurd hs (by decide)

lemma ofSegment (h : IsName n) : Component.ofSegment n = .name n := by
  rw [Component.ofSegment, if_neg h.ne_dots]

lemma head?_ne (h : IsName n) : n.head? ≠ some '/' := by
  intro hn
  exact h.no_slash (List.mem_of_mem_head? hn)

lemma getLast?_ne (h : IsName n) : n.getLast? ≠ some '/' := by
  intro hn
  exact h.no_slash (List.mem_of_mem_getLast? hn)

end IsName

namespace AreNames

variable {l l' : Location} {n : Text}

lemma append (h : AreNames l) (h' : AreNames l') : AreNames (l ++ l') := by
  intro m hm
  rcases List.mem_append.mp hm with hm | hm
  · exact h m hm
  · exact h' m hm

lemma left (h : AreNames (l ++ l')) : AreNames l :=
  fun m hm => h m (List.mem_append_left _ hm)

lemma right (h : AreNames (l ++ l')) : AreNames l' :=
  fun m hm => h m (List.mem_append_right _ hm)

lemma concat (h : AreNames l) (hn : IsName n) : AreNames (l ++ [n]) :=
  h.append fun m hm => by rwa [List.mem_singleton.mp hm]

lemma last (h : AreNames (l ++ [n])) : IsName n := h.right n (by simp)

lemma dropLast (h : AreNames l) : AreNames l.dropLast :=
  fun m hm => h m (List.dropLast_sublist l |>.mem hm)

end AreNames

/-! ### Steps -/

namespace Path

/-- The steps along names, silent ones taking none. -/
def stepsOf (names : List Text) : List Component :=
  (names.filter fun n => !isSilent n).map Component.ofSegment

lemma components_eq (p : Path) :
    p.components = p.segments.1.component?.toList ++ stepsOf p.segments.2 := rfl

lemma stepsOf_append (names names' : List Text) :
    stepsOf (names ++ names') = stepsOf names ++ stepsOf names' := by
  simp [stepsOf]

lemma stepsOf_names {l : Location} (h : AreNames l) : stepsOf l = l.map .name := by
  have hkeep : l.filter (fun n => !isSilent n) = l :=
    List.filter_eq_self.mpr fun n hn => by simp [(h n hn).not_silent]
  rw [stepsOf, hkeep]
  exact List.map_congr_left fun n hn => (h n hn).ofSegment

/-- A step along names that hold no slash goes up or to a name. -/
lemma mem_stepsOf {names : List Text} (h : ∀ n ∈ names, '/' ∉ n) {c : Component}
    (hc : c ∈ stepsOf names) : c = .parent ∨ ∃ n, IsName n ∧ c = .name n := by
  simp only [stepsOf, List.mem_map, List.mem_filter, Bool.not_eq_true'] at hc
  obtain ⟨n, ⟨hn, hs⟩, rfl⟩ := hc
  by_cases hd : n = ['.', '.']
  · exact Or.inl (by rw [Component.ofSegment, if_pos hd])
  · exact Or.inr ⟨n, ⟨hs, hd, h n hn⟩, by rw [Component.ofSegment, if_neg hd]⟩

lemma isAbsolute_iff {p : Path} : p.isAbsolute = true ↔ ∃ rest, p.text = '/' :: rest := by
  rw [isAbsolute]
  cases p.text with
  | nil => simp
  | cons c rest => simp

lemma components_of_text {p : Path} {rest : Text} (h : p.text = '/' :: rest) :
    p.components = .root :: stepsOf (Text.split '/' rest) := by
  have hseg : p.segments = (.root, Text.split '/' rest) := by
    rw [segments, h]
    rfl
  rw [components_eq, hseg]
  rfl

/-- The steps of a path that does not start at the root; a `.` in front of it is one. -/
lemma components_of_head {t : Text} (h : t.head? ≠ some '/') :
    (⟨t⟩ : Path).components
      = (if (Text.split '/' t).head? = some ['.'] then [.current] else [])
        ++ stepsOf (Text.split '/' t) := by
  rw [components_eq, segments]
  split
  · next rest heq =>
    simp only at heq
    rw [heq] at h
    exact absurd rfl h
  · simp only
    split
    · next names heq =>
      rw [heq]
      rfl
    · next hno =>
      have hfirst : (Text.split '/' t).head? ≠ some ['.'] := by
        intro hhead
        obtain ⟨names, hnames⟩ := List.head?_eq_some_iff.mp hhead
        exact hno names hnames
      rw [if_neg hfirst]
      rfl

end Path

/-! ### The path of a place -/

section PathOf

variable {l : Location} {n : Text}

lemma text_pathOf (l : Location) : (pathOf l).text = '/' :: Text.join '/' l := rfl

lemma isAbsolute_pathOf (l : Location) : (pathOf l).isAbsolute = true := rfl

/-- The names of a place are read off its path again, up to the empty name of the root. -/
lemma stepsOf_split_join (h : AreNames l) :
    Path.stepsOf (Text.split '/' (Text.join '/' l)) = l.map .name := by
  by_cases hl : l = []
  · rw [hl]
    rfl
  · rw [Text.split_join hl fun n hn => (h n hn).no_slash, Path.stepsOf_names h]

/-- The steps of the path of a place are the names of the place. -/
lemma components_pathOf (h : AreNames l) : (pathOf l).components = .root :: l.map .name := by
  rw [Path.components_of_text (text_pathOf l), stepsOf_split_join h]

lemma place_of_components {p : Path} (h : p.components = .root :: l.map .name) :
    Listing.place p = l := by
  rw [Listing.place, h]
  simp [List.filterMap_map]

lemma place_pathOf (h : AreNames l) : Listing.place (pathOf l) = l :=
  place_of_components (components_pathOf h)

lemma pathOf_injective {l l' : Location} (h : AreNames l) (h' : AreNames l')
    (hp : pathOf l = pathOf l') : l = l' := by
  rw [← place_pathOf h, hp, place_pathOf h']

lemma text_pathOf_concat (hl : l ≠ []) (n : Text) :
    (pathOf (l ++ [n])).text = (pathOf l).text ++ '/' :: n := by
  rw [text_pathOf, text_pathOf, Text.join_append hl (by simp)]
  rfl

lemma getLast?_text_pathOf (h : AreNames l) (hl : l ≠ []) :
    (pathOf l).text.getLast? ≠ some '/' := by
  obtain ⟨front, n, rfl⟩ := List.eq_nil_or_concat' l |>.resolve_left hl
  have hn : IsName n := h.last
  have hlast : ∀ s : Text, (s ++ n).getLast? ≠ some '/' := by
    intro s
    rw [List.getLast?_append_of_ne_nil _ hn.ne_nil]
    exact hn.getLast?_ne
  by_cases hf : front = []
  · rw [hf]
    exact hlast ['/']
  · rw [text_pathOf_concat hf]
    simpa using hlast ((pathOf front).text ++ ['/'])

/-- A name seen from a place. -/
lemma join_pathOf (h : AreNames l) (hn : n.head? ≠ some '/') :
    (pathOf l).join ⟨n⟩ = pathOf (l ++ [n]) := by
  have habs : (⟨n⟩ : Path).isAbsolute = false := by simpa [Path.isAbsolute] using hn
  have hne : (pathOf l).text.isEmpty = false := rfl
  rw [Path.join, if_neg (by simp [habs, hne])]
  by_cases hl : l = []
  · subst hl
    rfl
  · rw [if_neg (getLast?_text_pathOf h hl), ← text_pathOf_concat hl]

/-- The steps to a place, put together, are its path. -/
lemma ofComponents_names (h : AreNames l) :
    Path.ofComponents (.root :: l.map .name) = pathOf l := by
  induction l using List.reverseRecOn with
  | nil => rfl
  | append_singleton l n ih =>
      have hstep : Path.ofComponents (.root :: (l ++ [n]).map .name)
          = (Path.ofComponents (.root :: l.map .name)).join ⟨n⟩ := by
        simp [Path.ofComponents, Component.text]
      rw [hstep, ih h.left, join_pathOf h.left h.last.head?_ne]

end PathOf

/-! ### Normal forms -/

/-- One step from a place leads to a place. -/
lemma takeStep_place {l : Location} (h : AreNames l) {c : Component}
    (hc : c = .parent ∨ ∃ n, IsName n ∧ c = .name n) :
    ∃ l', AreNames l' ∧
      Path.takeStep (.root :: l.map .name).reverse c = (.root :: l'.map .name).reverse := by
  rcases hc with rfl | ⟨n, hn, rfl⟩
  · refine ⟨l.dropLast, h.dropLast, ?_⟩
    rcases List.eq_nil_or_concat' l with rfl | ⟨front, n, rfl⟩
    · rfl
    · simp [Path.takeStep]
  · refine ⟨l ++ [n], h.concat hn, ?_⟩
    simp [Path.takeStep]

lemma foldl_takeStep_place {l : Location} (h : AreNames l) {steps : List Component}
    (hs : ∀ c ∈ steps, c = .parent ∨ ∃ n, IsName n ∧ c = .name n) :
    ∃ l', AreNames l' ∧
      steps.foldl Path.takeStep (.root :: l.map .name).reverse
        = (.root :: l'.map .name).reverse := by
  induction steps generalizing l with
  | nil => exact ⟨l, h, rfl⟩
  | cons c steps ih =>
      obtain ⟨l₁, h₁, hstep⟩ := takeStep_place h (hs c (by simp))
      rw [List.foldl_cons, hstep]
      exact ih h₁ fun c hc => hs c (List.mem_cons_of_mem _ hc)

/-- Steps to names only are all kept. -/
lemma foldl_takeStep_names (l l' : Location) :
    (l'.map Component.name).foldl Path.takeStep (.root :: l.map .name).reverse
      = (.root :: (l ++ l').map .name).reverse := by
  induction l' generalizing l with
  | nil => simp
  | cons n l' ih =>
      have hstep : Path.takeStep (.root :: l.map .name).reverse (.name n)
          = (.root :: (l ++ [n]).map .name).reverse := by simp [Path.takeStep]
      rw [List.map_cons, List.foldl_cons, hstep, ih (l ++ [n])]
      simp

lemma resolvedSteps_of_components {p : Path} {steps : List Component}
    (h : p.components = .root :: steps) :
    p.resolvedSteps
      = (steps.foldl Path.takeStep (.root :: ([] : Location).map .name).reverse).reverse := by
  rw [Path.resolvedSteps, h, List.foldl_cons]
  rfl

lemma normal_of_resolvedSteps {p : Path} {l : Location} (h : AreNames l)
    (hp : p.resolvedSteps = .root :: l.map .name) : p.normal = pathOf l := by
  rw [Path.normal, hp]
  exact ofComponents_names h

/-- A path that only goes down from the root is, in normal form, the path of the place it names. -/
lemma normal_of_components {p : Path} {l : Location} (h : AreNames l)
    (hp : p.components = .root :: l.map .name) : p.normal = pathOf l := by
  refine normal_of_resolvedSteps h ?_
  rw [resolvedSteps_of_components hp, foldl_takeStep_names]
  simp

/-- **Absolute paths in normal form are the paths of places.** -/
lemma exists_place_of_isAbsolute {p : Path} (h : p.isAbsolute = true) :
    ∃ l, AreNames l ∧ p.normal = pathOf l := by
  obtain ⟨rest, ht⟩ := Path.isAbsolute_iff.mp h
  have hsteps : ∀ c ∈ Path.stepsOf (Text.split '/' rest),
      c = .parent ∨ ∃ n, IsName n ∧ c = .name n :=
    fun c hc => Path.mem_stepsOf (fun n hn => Text.not_mem_of_mem_split hn) hc
  obtain ⟨l, hl, hfold⟩ := foldl_takeStep_place (l := []) (by intro n hn; simp at hn) hsteps
  refine ⟨l, hl, normal_of_resolvedSteps hl ?_⟩
  rw [resolvedSteps_of_components (Path.components_of_text ht), hfold, List.reverse_reverse]

lemma normal_pathOf {l : Location} (h : AreNames l) : (pathOf l).normal = pathOf l :=
  normal_of_components h (components_pathOf h)

lemma isAbsolute_join {dir : Path} (h : dir.isAbsolute = true) (p : Path) :
    (dir.join p).isAbsolute = true := by
  obtain ⟨rest, ht⟩ := Path.isAbsolute_iff.mp h
  by_cases hp : p.isAbsolute = true
  · rwa [Path.join, if_pos (by simp [hp])]
  · rw [Path.join, if_neg (by simp [hp, ht])]
    split <;> simp [Path.isAbsolute, ht]

/-- A path that is the path of its place. -/
def Path.IsPlace (p : Path) : Prop := AreNames (Listing.place p) ∧ pathOf (Listing.place p) = p

instance (p : Path) : Decidable p.IsPlace :=
  inferInstanceAs (Decidable (AreNames (Listing.place p) ∧ pathOf (Listing.place p) = p))

lemma isPlace_pathOf {l : Location} (h : AreNames l) : (pathOf l).IsPlace := by
  rw [Path.IsPlace, place_pathOf h]
  exact ⟨h, rfl⟩

/-- The paths of places are the absolute paths in normal form. -/
lemma isPlace_iff {p : Path} : p.IsPlace ↔ p.isAbsolute = true ∧ p.normal = p := by
  constructor
  · rintro ⟨h, hp⟩
    rw [← hp]
    exact ⟨isAbsolute_pathOf _, normal_pathOf h⟩
  · rintro ⟨habs, hn⟩
    obtain ⟨l, hl, hp⟩ := exists_place_of_isAbsolute habs
    rw [← hn, hp]
    exact isPlace_pathOf hl

lemma isPlace_normal {p : Path} (h : p.isAbsolute = true) : p.normal.IsPlace := by
  obtain ⟨l, hl, hp⟩ := exists_place_of_isAbsolute h
  rw [hp]
  exact isPlace_pathOf hl

namespace Path.IsPlace

variable {p q : Path}

lemma isAbsolute (h : p.IsPlace) : p.isAbsolute = true := (isPlace_iff.mp h).1

lemma normal_eq (h : p.IsPlace) : p.normal = p := (isPlace_iff.mp h).2

lemma eq_of_place_eq (h : p.IsPlace) (h' : q.IsPlace)
    (hpq : Listing.place p = Listing.place q) : p = q := by
  rw [← h.2, ← h'.2, hpq]

end Path.IsPlace

/-! ### Parts -/

section Parts

variable {l : Location} {n : Text}

lemma segments_pathOf (h : AreNames l) (hl : l ≠ []) : (pathOf l).segments = (.root, l) := by
  rw [Path.segments, text_pathOf]
  simp only [Text.split_join hl fun n hn => (h n hn).no_slash]

lemma dropSilentEnd_names (h : AreNames l) : Path.dropSilentEnd l = l := by
  rw [Path.dropSilentEnd]
  rcases List.eq_nil_or_concat' l with rfl | ⟨front, n, rfl⟩
  · rfl
  · have hn := h.last.not_silent
    simp [hn]

lemma fileName?_pathOf (h : AreNames (l ++ [n])) : (pathOf (l ++ [n])).fileName? = some n := by
  rw [Path.fileName?, components_pathOf h]
  simp [List.getLast?_cons]

end Parts

end ImageMigration
