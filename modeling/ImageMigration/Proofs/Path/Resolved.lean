/-
Normal forms of all paths, and the last name of a path.

What is left of the steps of a path when every `..` has cancelled a name are names below the root,
or names below a number of directories further up. Such steps can be written down and read again, so
the normal form of a path is its own normal form, and normal forms with the same steps are equal.

* `Path.IsResolved`: steps in which nothing is left to cancel;
* `Path.components_ofComponents`: such steps, written down and read again;
* `Path.normal_normal`, `Path.eq_of_same`: **normal forms are told apart by their steps**;
* `Path.fileName?_join`, `Path.fileName?_normal`, `Path.fileName?_of_endsWith`: the last name of a
  path is that of what is joined to it, of its normal form, and of what it ends with.
-/
import ImageMigration.Proofs.Path.LastName

namespace ImageMigration.Path

/-- Steps in which no `..` stands behind a name, and no `.` anywhere. -/
inductive IsResolved : List Component → Prop
  | rooted {l : Location} (h : AreNames l) : IsResolved (.root :: l.map .name)
  | relative (k : Nat) {l : Location} (h : AreNames l) :
      IsResolved (List.replicate k .parent ++ l.map .name)

/-- The step goes up, or to a name. -/
def IsMove (c : Component) : Prop := c = .parent ∨ ∃ n, IsName n ∧ c = .name n

variable {p q : Path} {c : Component} {steps : List Component} {n t : Text}

/-! ### Resolution -/

lemma takeStep_name (place : List Component) (n : Text) :
    takeStep place (.name n) = .name n :: place := by
  cases place <;> rfl

lemma takeStep_parent_replicate (k : Nat) :
    takeStep (List.replicate k .parent) .parent = List.replicate (k + 1) .parent := by
  cases k <;> rfl

lemma foldl_takeStep_map_name (place : List Component) (l : Location) :
    (l.map .name).foldl takeStep place = (l.map .name).reverse ++ place := by
  induction l generalizing place with
  | nil => rfl
  | cons n l ih => simp [takeStep_name, ih]

lemma IsResolved.takeStep (h : IsResolved steps) (hc : IsMove c) :
    ∃ steps', IsResolved steps' ∧ takeStep steps.reverse c = steps'.reverse := by
  cases h with
  | rooted h =>
      obtain ⟨l', hl', hstep⟩ := takeStep_place h hc
      exact ⟨_, .rooted hl', hstep⟩
  | @relative k l h =>
      rcases hc with rfl | ⟨n, hn, rfl⟩
      · rcases List.eq_nil_or_concat' l with rfl | ⟨front, n, rfl⟩
        · exact ⟨_, .relative (k + 1) h, by simpa using takeStep_parent_replicate k⟩
        · exact ⟨_, .relative k h.left, by simp [Path.takeStep]⟩
      · exact ⟨_, .relative k (h.concat hn), by simp [takeStep_name]⟩

lemma IsResolved.foldl_takeStep {moves : List Component} (h : IsResolved steps)
    (hm : ∀ c ∈ moves, IsMove c) :
    ∃ steps', IsResolved steps' ∧ moves.foldl Path.takeStep steps.reverse = steps'.reverse := by
  induction moves generalizing steps with
  | nil => exact ⟨steps, h, rfl⟩
  | cons c moves ih =>
      obtain ⟨next, hnext, hstep⟩ := h.takeStep (hm c (by simp))
      rw [List.foldl_cons, hstep]
      exact ih hnext fun c hc => hm c (List.mem_cons_of_mem _ hc)

/-- Nothing is left to cancel in the steps that are left of a path. -/
lemma isResolved_resolvedSteps (p : Path) : IsResolved p.resolvedSteps := by
  have hnil : AreNames [] := fun n hn => absurd hn (by simp)
  have hmoves : ∀ t : Text, ∀ c ∈ stepsOf (Text.split '/' t), IsMove c :=
    fun t c hc => mem_stepsOf (fun n hn => Text.not_mem_of_mem_split hn) hc
  by_cases hroot : p.text.head? = some '/'
  · obtain ⟨rest, ht⟩ := List.head?_eq_some_iff.mp hroot
    obtain ⟨steps, hsteps, hfold⟩ := (IsResolved.rooted hnil).foldl_takeStep (hmoves rest)
    rw [resolvedSteps_of_components (components_of_text ht), hfold, List.reverse_reverse]
    exact hsteps
  · obtain ⟨steps, hsteps, hfold⟩ := (IsResolved.relative 0 hnil).foldl_takeStep (hmoves p.text)
    have hcomp := components_of_head hroot
    -- a `.` in front of the path takes no step
    have hall : p.components.foldl Path.takeStep [] = steps.reverse := by
      rw [hcomp, List.foldl_append, ← hfold]
      split <;> rfl
    rw [resolvedSteps, hall, List.reverse_reverse]
    exact hsteps

/-- All of the steps are kept when nothing is left to cancel. -/
lemma IsResolved.resolve (h : IsResolved steps) : steps.foldl Path.takeStep [] = steps.reverse := by
  cases h with
  | @rooted l h =>
      have hnames := foldl_takeStep_names [] l
      rwa [List.nil_append] at hnames
  | @relative k l h =>
      have hup : (List.replicate k Component.parent).foldl Path.takeStep []
          = List.replicate k .parent := by
        induction k with
        | zero => rfl
        | succ k ih =>
            rw [List.replicate_succ', List.foldl_append, ih]
            simpa [List.replicate_succ'] using takeStep_parent_replicate k
      rw [List.foldl_append, hup, foldl_takeStep_map_name]
      simp

lemma IsResolved.isMove {l : Location} {k : Nat} (h : AreNames l) :
    ∀ c ∈ List.replicate k .parent ++ l.map .name, IsMove c := by
  intro c hc
  rcases List.mem_append.mp hc with hc | hc
  · exact Or.inl (List.eq_of_mem_replicate hc)
  · obtain ⟨n, hn, rfl⟩ := List.mem_map.mp hc
    exact Or.inr ⟨n, h n hn, rfl⟩

/-! ### Steps written down -/

namespace IsMove

lemma isSilent_text (h : IsMove c) : isSilent c.text = false := by
  rcases h with rfl | ⟨n, hn, rfl⟩
  · decide
  · exact hn.not_silent

lemma ofSegment_text (h : IsMove c) : Component.ofSegment c.text = c := by
  rcases h with rfl | ⟨n, hn, rfl⟩
  · rfl
  · exact hn.ofSegment

lemma not_mem_text (h : IsMove c) : '/' ∉ c.text := by
  rcases h with rfl | ⟨n, hn, rfl⟩
  · decide
  · exact hn.no_slash

lemma text_ne_nil (h : IsMove c) : c.text ≠ [] := fun hnil => by
  have hs := h.isSilent_text
  rw [hnil] at hs
  exact absurd hs (by decide)

end IsMove

/-- Moves, put together to a path, are written with slashes between them. -/
lemma ofComponents_moves (hne : steps ≠ []) (h : ∀ c ∈ steps, IsMove c) :
    ofComponents steps = ⟨Text.join '/' (steps.map Component.text)⟩ := by
  induction steps using List.reverseRecOn with
  | nil => exact absurd rfl hne
  | append_singleton steps c ih =>
      have hc : IsMove c := h c (by simp)
      have hrel : (⟨c.text⟩ : Path).isAbsolute = false := by
        have hhead : c.text.head? ≠ some '/' := fun hh => hc.not_mem_text (List.mem_of_mem_head? hh)
        simpa [isAbsolute] using hhead
      have hstep : ofComponents (steps ++ [c]) = (ofComponents steps).join ⟨c.text⟩ := by
        simp [ofComponents]
      rw [hstep]
      rcases List.eq_nil_or_concat' steps with rfl | ⟨front, d, rfl⟩
      · rw [join, if_pos (by simp [ofComponents])]
        rfl
      · have hd : IsMove d := h d (by simp)
        have hlast : (Text.join '/' ((front ++ [d]).map Component.text)).getLast?
            = d.text.getLast? := by
          rw [List.map_append]
          by_cases hf : front = []
          · rw [hf]
            rfl
          · rw [Text.join_append (by simpa using hf) (by simp), List.map_singleton, Text.join,
              ← List.singleton_append, ← List.append_assoc,
              List.getLast?_append_of_ne_nil _ hd.text_ne_nil]
        have hend : d.text.getLast? ≠ some '/' :=
          fun hh => hd.not_mem_text (List.mem_of_mem_getLast? hh)
        rw [ih (by simp) fun x hx => h x (List.mem_append_left _ hx), join]
        have hsome : Text.join '/' ((front ++ [d]).map Component.text) ≠ [] := by
          intro hnil
          rw [hnil] at hlast
          exact hd.text_ne_nil (List.getLast?_eq_none_iff.mp hlast.symm)
        rw [if_neg (by simpa [hrel] using hsome), if_neg (by rw [hlast]; exact hend),
          @List.map_append _ _ _ (front ++ [d]), Text.join_append (by simp) (by simp)]
        rfl

/-- **Steps in which nothing is left to cancel are read again as they are written.** -/
lemma components_ofComponents (h : IsResolved steps) (hne : steps ≠ []) :
    (ofComponents steps).components = steps := by
  cases h with
  | rooted h => rw [ofComponents_names h, components_pathOf h]
  | @relative k l h =>
      have hmoves := IsResolved.isMove (k := k) h
      generalize List.replicate k Component.parent ++ l.map .name = moves at hmoves hne
      have hfree : ∀ piece ∈ moves.map Component.text, '/' ∉ piece := by
        simpa using fun c hc => (hmoves c hc).not_mem_text
      have hsplit := Text.split_join (by simpa using hne) hfree
      have hsteps : stepsOf (moves.map Component.text) = moves := by
        have hloud : (moves.map Component.text).filter (fun n => !isSilent n)
            = moves.map Component.text :=
          List.filter_eq_self.mpr (by simpa using fun c hc => (hmoves c hc).isSilent_text)
        rw [stepsOf, hloud, List.map_map]
        exact (List.map_congr_left fun c hc => (hmoves c hc).ofSegment_text).trans (List.map_id _)
      obtain ⟨c, rest, rfl⟩ := List.exists_cons_of_ne_nil hne
      have hc : IsMove c := hmoves c (by simp)
      have hhead : (Text.join '/' ((c :: rest).map Component.text)).head? ≠ some '/' := by
        intro hh
        obtain ⟨t, ht⟩ := List.head?_eq_some_iff.mp hh
        have hfirst : [] :: Text.split '/' t = (c :: rest).map Component.text := by
          rw [← hsplit, ht]
          rfl
        rw [List.map_cons, List.cons.injEq] at hfirst
        exact hc.text_ne_nil hfirst.1.symm
      have hdot : (Text.split '/' (Text.join '/' ((c :: rest).map Component.text))).head?
          ≠ some ['.'] := by
        rw [hsplit]
        intro hh
        have hs := hc.isSilent_text
        rw [List.map_cons, List.head?_cons, Option.some.injEq] at hh
        rw [hh] at hs
        exact absurd hs (by decide)
      rw [ofComponents_moves hne hmoves, components_of_head hhead, if_neg hdot, hsplit, hsteps]
      rfl

/-! ### Normal forms -/

lemma normal_eq_of_components (h : p.components = q.components) : p.normal = q.normal := by
  rw [normal, normal, resolvedSteps, resolvedSteps, h]

/-- **The normal form of a path is its own normal form.** -/
lemma normal_normal (p : Path) : p.normal.normal = p.normal := by
  have hresolved := isResolved_resolvedSteps p
  by_cases hnil : p.resolvedSteps = []
  · have hdot : p.normal = ⟨['.']⟩ := by rw [normal, hnil]
    rw [hdot]
    decide
  · have hnormal : p.normal = ofComponents p.resolvedSteps := by
      rw [normal]
      split
      · next h => exact absurd h hnil
      · rfl
    have hcomp : p.normal.components = p.resolvedSteps := by
      rw [hnormal, components_ofComponents hresolved hnil]
    have hsame : p.normal.resolvedSteps = p.resolvedSteps := by
      rw [resolvedSteps, hcomp, hresolved.resolve, List.reverse_reverse]
    conv_lhs => rw [normal, hsame]
    rw [normal]

/-- **Paths in normal form that take the same steps are equal.** -/
lemma eq_of_same (hp : p.normal = p) (hq : q.normal = q) (h : p.same q = true) : p = q := by
  have hsteps : p.components = q.components := by simpa [same] using h
  rw [← hp, ← hq, normal_eq_of_components hsteps]

/-! ### Last names -/

lemma fileName?_eq_some_iff : p.fileName? = some n ↔ p.components.getLast? = some (.name n) := by
  rw [fileName?]
  split
  · next m hm => simp [hm]
  · next hno => exact iff_of_false (by simp) (hno n)

/-- The last name of a path is that of the pieces between its slashes. -/
lemma fileName?_iff_split :
    p.fileName? = some n ↔ (stepsOf (Text.split '/' p.text)).getLast? = some (.name n) := by
  rw [fileName?_eq_some_iff]
  by_cases hroot : p.text.head? = some '/'
  · obtain ⟨rest, ht⟩ := List.head?_eq_some_iff.mp hroot
    have hsplit : stepsOf (Text.split '/' p.text) = stepsOf (Text.split '/' rest) := by
      rw [ht, ← List.nil_append ('/' :: rest), Text.split_append_sep, stepsOf_append]
      rfl
    rw [components_of_text ht, hsplit, List.getLast?_cons]
    cases (stepsOf (Text.split '/' rest)).getLast? <;> simp
  · rw [components_of_head hroot, List.getLast?_append]
    cases (stepsOf (Text.split '/' p.text)).getLast? with
    | none => split <;> simp
    | some c => simp

lemma isName_of_fileName? (h : p.fileName? = some n) : IsName n := by
  have hmem := List.mem_of_getLast? (fileName?_iff_split.mp h)
  rcases mem_stepsOf (fun n hn => Text.not_mem_of_mem_split hn) hmem with hup | ⟨m, hm, heq⟩
  · exact absurd hup (by simp)
  · rw [Component.name.injEq] at heq
    rwa [heq]

/-- What stands in front of a slash has no part in the last name. -/
lemma fileName?_append_slash (s : Text) (h : (⟨t⟩ : Path).fileName? = some n) :
    (⟨s ++ '/' :: t⟩ : Path).fileName? = some n := by
  rw [fileName?_iff_split] at h ⊢
  rw [Text.split_append_sep, stepsOf_append, List.getLast?_append, h]
  rfl

lemma fileName?_slash_iff :
    (⟨'/' :: t⟩ : Path).fileName? = some n ↔ (⟨t⟩ : Path).fileName? = some n := by
  rw [fileName?_iff_split, fileName?_iff_split, ← List.nil_append ('/' :: t),
    Text.split_append_sep, stepsOf_append]
  rfl

/-- The last name of a join is that of the path that is joined. -/
lemma fileName?_join (dir : Path) (h : p.fileName? = some n) : (dir.join p).fileName? = some n := by
  rw [join]
  split
  · exact h
  · split
    · next hlast =>
      obtain ⟨front, hfront⟩ := List.getLast?_eq_some_iff.mp hlast
      rw [hfront, List.append_assoc]
      exact fileName?_append_slash front h
    · exact fileName?_append_slash dir.text h

/-- The last name of a path is that of its normal form. -/
lemma fileName?_normal (h : p.fileName? = some n) : p.normal.fileName? = some n := by
  have hn := isName_of_fileName? h
  obtain ⟨steps, hsteps⟩ := List.getLast?_eq_some_iff.mp (fileName?_eq_some_iff.mp h)
  have hresolved : p.resolvedSteps = (steps.foldl takeStep []).reverse ++ [.name n] := by
    rw [resolvedSteps, hsteps, List.foldl_append, List.foldl_cons, List.foldl_nil, takeStep_name,
      List.reverse_cons]
  have hnormal : p.normal = (ofComponents (steps.foldl takeStep []).reverse).join ⟨n⟩ := by
    rw [normal]
    split
    · next hnil =>
      rw [hresolved] at hnil
      exact absurd hnil (by simp)
    · rw [hresolved]
      simp [ofComponents, Component.text]
  rw [hnormal]
  refine fileName?_join _ ?_
  rw [fileName?_iff_split, Text.split_of_not_mem hn.no_slash, ← List.nil_append [n],
    stepsOf_concat [] hn]
  rfl

/-- The last name of a path is that of what it ends with. -/
lemma fileName?_of_endsWith (hends : p.endsWith q = true) (h : q.fileName? = some n) :
    p.fileName? = some n := by
  obtain ⟨front, hfront⟩ : q.components <:+ p.components := by simpa [endsWith] using hends
  rw [fileName?_eq_some_iff] at h ⊢
  rw [← hfront, List.getLast?_append, h]
  rfl

end ImageMigration.Path
