/-
Records whose members were moved, dropped and added to.

A field is found by its name alone. So the order of the members of an object does not matter, and
members with other names do not either; a field that was dropped is told to be missing.

* `IsRearranged`: the members of an object come from the fields of a record;
* `single?_of_perm`: a field is found whatever stands around it;
* `fields?_of_isRearranged`: **the fields of the record are found**, the dropped ones excepted;
* `Once`, `once_of_fields?`: fields that are found stand once, and their values are those of the
  members with their names.
-/
import Mathlib.Data.List.Perm.Basic
import ImageMigration.Proofs.Json.Printed

namespace ImageMigration.Json

variable {fields known others members named : List (Text × Json)} {dropped : List Text}
  {name : Text} {j : Json}

/-- The members of an object come from the fields of a record: some fields were dropped, members
with other names were added, and all of them were put into some order. What is written as the name
of a member has to be a text; half a surrogate pair is none. -/
structure IsRearranged (fields : List (Text × Json)) (dropped : List Text)
    (members : List (Text × Json)) : Prop where
  exists_perm : ∃ others : List (Text × Json),
    (∀ m ∈ others, ∃ name, unescape? m.1 = some name ∧ name ∉ fields.map Prod.fst) ∧
    members.Perm
      (((fields.filter fun field => field.1 ∉ dropped).map fun field => (escape field.1, field.2))
        ++ others)

/-- A record is an arrangement of its own fields. -/
lemma isRearranged_map (fields : List (Text × Json)) :
    IsRearranged fields [] (fields.map fun field => (escape field.1, field.2)) :=
  ⟨[], by simp, by simp⟩

/-- A member by the text of its name. -/
def decoded (m : Text × Json) : Text × Json := ((unescape? m.1).getD [], m.2)

lemma named?_eq (h : ∀ m ∈ members, (unescape? m.1).isSome = true) :
    named? members = some (members.map decoded) := by
  induction members with
  | nil => rfl
  | cons m members ih =>
      obtain ⟨name, hname⟩ := Option.isSome_iff_exists.mp (h m (by simp))
      have hrest := ih fun m' hm => h m' (by simp [hm])
      rw [named?] at hrest ⊢
      rw [List.mapM_cons, hrest, hname]
      simp [decoded, hname]

lemma isSome_of_named? (h : named? members = some named) :
    ∀ m ∈ members, (unescape? m.1).isSome = true := by
  induction members generalizing named with
  | nil => exact fun m hm => absurd hm (by simp)
  | cons m members ih =>
      rw [named?, List.mapM_cons] at h
      simp only [Option.bind_eq_bind, Option.bind_eq_some_iff, Option.map_eq_some_iff] at h
      obtain ⟨-, ⟨name, hname, -⟩, rest, hrest, -⟩ := h
      intro m' hm
      rcases List.mem_cons.mp hm with rfl | hm
      · rw [hname]
        rfl
      · exact ih hrest m' hm

/-- A field is found whatever stands around it, if nothing else has its name. -/
lemma single?_of_perm (h : named.Perm (known ++ others)) (hother : ∀ m ∈ others, m.1 ≠ name) :
    single? named name = single? known name := by
  have hnone : others.filter (fun m => m.1 == name) = [] := by
    rw [List.filter_eq_nil_iff]
    intro m hm
    simpa using hother m hm
  have hperm := h.filter fun m => m.1 == name
  rw [List.filter_append, hnone, List.append_nil] at hperm
  rw [single?, single?]
  generalize named.filter (fun m => m.1 == name) = found at hperm ⊢
  generalize known.filter (fun m => m.1 == name) = found' at hperm ⊢
  have hlength := hperm.length_eq
  match found', found with
  | [], _ => rw [hperm.eq_nil]
  | [m], _ => rw [hperm.eq_singleton]
  | _ :: _ :: _, [] => simp at hlength
  | _ :: _ :: _, [_] => simp at hlength
  | _ :: _ :: _, _ :: _ :: _ => rfl

/-- Among fields of different names, one has a given name at most. -/
lemma filter_eq_singleton (hnodup : (fields.map Prod.fst).Nodup) (hmem : (name, j) ∈ fields) :
    fields.filter (fun m => m.1 == name) = [(name, j)] := by
  induction fields with
  | nil => exact absurd hmem (by simp)
  | cons field fields ih =>
      rw [List.map_cons, List.nodup_cons] at hnodup
      rcases List.mem_cons.mp hmem with heq | hmem
      · have hrest : fields.filter (fun m => m.1 == name) = [] := by
          rw [List.filter_eq_nil_iff]
          intro m hm hname
          rw [beq_iff_eq] at hname
          refine hnodup.1 (List.mem_map.mpr ⟨m, hm, ?_⟩)
          rw [hname, ← heq]
        rw [← heq, List.filter_cons_of_pos (by simp), hrest]
      · have hne : field.1 ≠ name := fun heq =>
          hnodup.1 (List.mem_map.mpr ⟨(name, j), hmem, heq.symm⟩)
        rw [List.filter_cons_of_neg (by simpa using hne), ih hnodup.2 hmem]

lemma single?_filter (hnodup : (fields.map Prod.fst).Nodup) (hmem : (name, j) ∈ fields) :
    single? (fields.filter fun field => field.1 ∉ dropped) name
      = some (if name ∈ dropped then none else some j) := by
  rw [single?, List.filter_filter]
  by_cases hd : name ∈ dropped
  · have hnil : fields.filter (fun m => m.1 == name && decide (m.1 ∉ dropped)) = [] := by
      rw [List.filter_eq_nil_iff]
      intro m hm
      simp only [Bool.and_eq_true, beq_iff_eq, decide_eq_true_eq, not_and, not_not]
      rintro rfl
      exact hd
    rw [hnil, if_pos hd]
  · have hsame : fields.filter (fun m => m.1 == name && decide (m.1 ∉ dropped)) = [(name, j)] := by
      rw [← filter_eq_singleton hnodup hmem]
      refine List.filter_congr fun m hm => ?_
      by_cases hname : m.1 = name
      · simp [hname, hd]
      · simp [hname]
    rw [hsame, if_neg hd]

/-- The names of the members are texts. -/
lemma IsRearranged.isSome (h : IsRearranged fields dropped members) :
    ∀ m ∈ members, (unescape? m.1).isSome = true := by
  obtain ⟨others, hothers, hperm⟩ := h
  intro m hm
  rcases List.mem_append.mp (hperm.mem_iff.mp hm) with hm | hm
  · obtain ⟨field, -, rfl⟩ := List.mem_map.mp hm
    rw [unescape?_escape]
    rfl
  · obtain ⟨name, hname, -⟩ := hothers m hm
    rw [hname]
    rfl

/-- **The fields of a record are found** in an object that comes from it, the dropped ones
excepted. -/
theorem fields?_of_isRearranged (hnodup : (fields.map Prod.fst).Nodup)
    (h : IsRearranged fields dropped members) :
    fields? (fields.map Prod.fst) (.object members)
      = some (fields.map fun field => if field.1 ∈ dropped then none else some field.2) := by
  have hsome := h.isSome
  obtain ⟨others, hothers, hperm⟩ := h
  have hdecoded : (members.map decoded).Perm
      ((fields.filter fun field => field.1 ∉ dropped) ++ others.map decoded) := by
    have hmap := hperm.map decoded
    rw [List.map_append, List.map_map] at hmap
    have hback : (decoded ∘ fun field : Text × Json => (escape field.1, field.2)) = id := by
      funext field
      simp [decoded, unescape?_escape]
    rwa [hback, List.map_id] at hmap
  have hother : ∀ name ∈ fields.map Prod.fst, ∀ m ∈ others.map decoded, m.1 ≠ name := by
    rintro name hname m hm rfl
    obtain ⟨other, hmem, rfl⟩ := List.mem_map.mp hm
    obtain ⟨name, hread, hno⟩ := hothers other hmem
    rw [decoded, hread] at hname
    exact hno hname
  have hfield : ∀ field ∈ fields, single? (members.map decoded) field.1
      = some (if field.1 ∈ dropped then none else some field.2) := by
    intro field hmem
    rw [single?_of_perm hdecoded (hother field.1 (List.mem_map_of_mem hmem)),
      single?_filter hnodup hmem]
  rw [fields?, named?_eq hsome, Option.bind_some]
  clear hnodup hothers hperm hdecoded hother
  induction fields with
  | nil => rfl
  | cons field fields ih =>
      rw [List.map_cons, List.mapM_cons, hfield field (by simp),
        ih fun f hf => hfield f (by simp [hf])]
      rfl

/-! ### Fields that stand once -/

/-- A name stands exactly once among the members of an object. -/
def Once (members : List (Text × Json)) (name : Text) : Prop :=
  (members.filter fun m => unescape? m.1 == some name).length = 1

/-- A field that was found stands once, and has the value of the member with its name. -/
lemma once_of_single? (h : named? members = some named)
    (hfound : single? named name = some (some j)) :
    Once members name ∧ ∀ m ∈ members, unescape? m.1 = some name → m.2 = j := by
  have hsome := isSome_of_named? h
  rw [named?_eq hsome, Option.some.injEq] at h
  have hfilter : named.filter (fun m => m.1 == name)
      = (members.filter fun m => unescape? m.1 == some name).map decoded := by
    rw [← h, List.filter_map]
    congr 1
    refine List.filter_congr fun m hm => ?_
    obtain ⟨name', hname'⟩ := Option.isSome_iff_exists.mp (hsome m hm)
    simp [decoded, hname']
  rw [single?, hfilter] at hfound
  rw [Once]
  have hmem : ∀ m ∈ members, unescape? m.1 = some name →
      m ∈ members.filter fun m => unescape? m.1 == some name := fun m hm hname =>
    List.mem_filter.mpr ⟨hm, by simp [hname]⟩
  generalize members.filter (fun m => unescape? m.1 == some name) = found at hfound hmem ⊢
  match found with
  | [] => exact absurd hfound (by simp)
  | [m] =>
      simp only [List.map_cons, List.map_nil, Option.some.injEq] at hfound
      refine ⟨rfl, fun m' hm hname => ?_⟩
      rw [List.mem_singleton.mp (hmem m' hm hname)]
      exact hfound
  | _ :: _ :: _ => exact absurd hfound (by simp)

/-- The first field of a record, and the other ones. -/
lemma exists_single?_of_fields? {names : List Text} {field : Option Json}
    {found : List (Option Json)}
    (h : fields? (name :: names) (.object members) = some (field :: found)) :
    ∃ named, named? members = some named ∧ single? named name = some field ∧
      fields? names (.object members) = some found := by
  rw [fields?, Option.bind_eq_some_iff] at h
  obtain ⟨named, hnamed, h⟩ := h
  rw [List.mapM_cons] at h
  simp only [Option.bind_eq_bind, Option.bind_eq_some_iff, Option.pure_def, Option.some.injEq,
    List.cons.injEq] at h
  obtain ⟨field', hfound, rest, hrest, rfl, rfl⟩ := h
  exact ⟨named, hnamed, hfound, by rw [fields?, hnamed, Option.bind_some, hrest]⟩

/-- **Where all fields are found, each of them stands once,** and its value is that of the member
with its name. -/
lemma once_of_fields? {names : List Text} {values : List Json}
    (h : fields? names (.object members) = some (values.map some)) :
    (∀ name ∈ names, Once members name) ∧
      List.Forall₂ (fun name j => ∀ m ∈ members, unescape? m.1 = some name → m.2 = j)
        names values := by
  induction names generalizing values with
  | nil =>
      rw [fields?, Option.bind_eq_some_iff] at h
      obtain ⟨named, -, h⟩ := h
      cases values with
      | nil => exact ⟨by simp, .nil⟩
      | cons value values => exact absurd h (by simp)
  | cons name names ih =>
      cases values with
      | nil =>
          rw [fields?, Option.bind_eq_some_iff] at h
          obtain ⟨named, -, h⟩ := h
          rw [List.mapM_cons] at h
          simp [Option.bind_eq_some_iff] at h
      | cons value values =>
          obtain ⟨named, hnamed, hfound, hrest⟩ := exists_single?_of_fields? h
          obtain ⟨honce, hvalue⟩ := once_of_single? hnamed hfound
          obtain ⟨hall, hvalues⟩ := ih hrest
          refine ⟨fun name' hname => ?_, .cons hvalue hvalues⟩
          rcases List.mem_cons.mp hname with rfl | hname
          · exact honce
          · exact hall name' hname

/-- The value of a field, or its default if it was dropped. -/
lemma readOr?_ite {α : Type} {read : Json → Option α} {value default : α} {p : Prop} [Decidable p]
    (h : read j = some value) :
    readOr? read default (if p then none else some j) = some (if p then default else value) := by
  split
  · rfl
  · exact h

end ImageMigration.Json
