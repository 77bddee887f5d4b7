/-
The end of a path as the end of its last name.

What is written behind a path, without a slash, goes to the last name of it. As long as that is a
name and no silent one, the steps in front of it do not depend on it, and neither does what
normalization and comparison of whole steps make of them.

* `IsExtension`, `isName_point`: a text with an extension behind it is a name;
* `Path.exists_components_append`, `Path.exists_normal_append`: steps and normal form of a path in
  their dependence on what is written behind it;
* `Path.exists_join_append`: so is a join;
* `Path.isAbsolute_parent?`: the directory of an absolute path is absolute.
-/
import ImageMigration.Proofs.Path.Extension

namespace ImageMigration

open Disk (pathOf)
open ImageMigration.Path (isSilent Component)

/-- What can stand behind the last point of a name. -/
structure IsExtension (e : Text) : Prop where
  ne_nil : e ≠ []
  no_dot : '.' ∉ e
  no_slash : '/' ∉ e

/-- A text without slashes is a name once an extension stands behind it. -/
lemma isName_point {v e : Text} (hv : '/' ∉ v) (he : IsExtension e) : IsName (v ++ '.' :: e) where
  not_silent := by
    cases v with
    | nil => simp [isSilent, he.ne_nil]
    | cons c v => simp [isSilent]
  ne_dots := by
    intro h
    cases v with
    | nil =>
        have hdots : e = ['.'] := by simpa using h
        exact he.no_dot (by simp [hdots])
    | cons c v =>
        have hlen := congrArg List.length h
        have hpos := List.length_pos_of_ne_nil he.ne_nil
        simp only [List.cons_append, List.length_cons, List.length_append, List.length_nil] at hlen
        omega
  no_slash := by
    simp only [List.mem_append, List.mem_cons, not_or]
    exact ⟨hv, by decide, he.no_slash⟩

namespace Path

lemma stepsOf_concat (names : List Text) {n : Text} (hn : IsName n) :
    stepsOf (names ++ [n]) = stepsOf names ++ [.name n] := by
  have hone : AreNames [n] := fun m hm => by rwa [List.mem_singleton.mp hm]
  rw [stepsOf_append, stepsOf_names hone]
  rfl

/-- **The steps of a path, in their dependence on its end.** What is written behind a path goes to
the last name, and the steps in front of that name stay. -/
lemma exists_components_append (w : Text) :
    ∃ steps v, '/' ∉ v ∧ ∀ x, IsName (v ++ x) →
      (⟨w ++ x⟩ : Path).components = steps ++ [.name (v ++ x)] := by
  have hfree : ∀ {v x : Text}, IsName (v ++ x) → '/' ∉ x := fun hn hx =>
    hn.no_slash (List.mem_append_right _ hx)
  by_cases hw : w.head? = some '/'
  · obtain ⟨rest, rfl⟩ := List.head?_eq_some_iff.mp hw
    obtain ⟨pieces, v, hv, -, hsplit⟩ := Text.exists_split_append '/' rest
    refine ⟨.root :: stepsOf pieces, v, hv, fun x hx => ?_⟩
    rw [components_of_text (List.cons_append ..), hsplit x (hfree hx), stepsOf_concat pieces hx]
    rfl
  · obtain ⟨pieces, v, hv, -, hsplit⟩ := Text.exists_split_append '/' w
    refine ⟨(if pieces.head? = some ['.'] then [.current] else []) ++ stepsOf pieces, v, hv,
      fun x hx => ?_⟩
    have hhead : (w ++ x).head? ≠ some '/' := by
      cases w with
      | nil => exact fun h => hfree hx (List.mem_of_mem_head? h)
      | cons c w => exact hw
    -- the first piece is the last name only if that is no `.`
    have hfirst : (pieces ++ [v ++ x]).head? = some ['.'] ↔ pieces.head? = some ['.'] := by
      cases pieces with
      | nil =>
          have hne : v ++ x ≠ ['.'] := fun h => by
            have hs := hx.not_silent
            rw [h] at hs
            exact absurd hs (by decide)
          simp [hne]
      | cons p pieces => simp
    rw [components_of_head hhead, hsplit x (hfree hx), stepsOf_concat pieces hx, List.append_assoc]
    simp only [hfirst]

/-- **The normal form of an absolute path, in its dependence on its end.** -/
lemma exists_normal_append {w : Text} (hw : w.head? = some '/') :
    ∃ l v, AreNames l ∧ '/' ∉ v ∧ ∀ x, IsName (v ++ x) →
      (⟨w ++ x⟩ : Path).normal = pathOf (l ++ [v ++ x]) := by
  obtain ⟨rest, rfl⟩ := List.head?_eq_some_iff.mp hw
  obtain ⟨pieces, v, hv, hpieces, hsplit⟩ := Text.exists_split_append '/' rest
  have hnil : AreNames [] := fun n hn => absurd hn (by simp)
  obtain ⟨l, hl, hfold⟩ := foldl_takeStep_place hnil fun c hc => mem_stepsOf hpieces hc
  refine ⟨l, v, hl, hv, fun x hx => ?_⟩
  have hslash : '/' ∉ x := fun h => hx.no_slash (List.mem_append_right _ h)
  have hcomp : (⟨'/' :: rest ++ x⟩ : Path).components
      = .root :: (stepsOf pieces ++ [.name (v ++ x)]) := by
    rw [components_of_text (List.cons_append ..), hsplit x hslash, stepsOf_concat pieces hx]
  refine normal_of_resolvedSteps (hl.concat hx) ?_
  rw [resolvedSteps_of_components hcomp, List.foldl_append, hfold]
  simp [takeStep]

/-- A join, in its dependence on the end of what is joined. -/
lemma exists_join_append (dir : Path) (s : Text) :
    ∃ w, (dir.isAbsolute = true → w.head? = some '/') ∧
      ∀ x : Text, x.head? ≠ some '/' → dir.join ⟨s ++ x⟩ = ⟨w ++ x⟩ := by
  have habs : ∀ x : Text, x.head? ≠ some '/' →
      (⟨s ++ x⟩ : Path).isAbsolute = (s.head? == some '/') := by
    intro x hx
    cases s with
    | nil => simpa [isAbsolute] using hx
    | cons c s => rfl
  by_cases hs : s.head? = some '/'
  · refine ⟨s, fun _ => hs, fun x hx => ?_⟩
    rw [join, habs x hx, hs]
    rfl
  have hrel : (s.head? == some '/') = false := by simpa using hs
  cases hdir : dir.text with
  | nil =>
      refine ⟨s, fun h => ?_, fun x hx => ?_⟩
      · rw [isAbsolute, hdir] at h
        exact absurd h (by simp)
      · rw [join, habs x hx, hrel, hdir]
        rfl
  | cons c t =>
      have hroot : dir.isAbsolute = true → (c :: t : Text).head? = some '/' := by
        rw [isAbsolute, hdir]
        simp
      by_cases hlast : (c :: t).getLast? = some '/'
      · refine ⟨c :: t ++ s, fun h => hroot h, fun x hx => ?_⟩
        rw [join, habs x hx, hrel, hdir]
        simp [hlast]
      · refine ⟨c :: t ++ '/' :: s, fun h => hroot h, fun x hx => ?_⟩
        rw [join, habs x hx, hrel, hdir]
        simp [hlast]

/-- The directory of an absolute path is absolute. -/
lemma isAbsolute_parent? {p dir : Path} (h : p.isAbsolute = true) (hdir : p.parent? = some dir) :
    dir.isAbsolute = true := by
  obtain ⟨rest, hp⟩ := isAbsolute_iff.mp h
  have hseg : p.segments = (.root, Text.split '/' rest) := by
    rw [segments, hp]
    rfl
  rw [parent?, hseg] at hdir
  simp only at hdir
  split at hdir
  · next h => exact absurd h (by simp)
  · exact absurd hdir (by simp)
  · rw [Option.some.injEq] at hdir
    rw [← hdir]
    rfl

end Path

end ImageMigration
