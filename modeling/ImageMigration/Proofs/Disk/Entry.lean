/-
Entries of a tree, and trees that differ in a few files.

What a run does to a tree is seen at its entries. A file is written or removed at one place, and the
entries at all other places stay; directories are never touched.

* `Disk.IsNamed`: what every tree has that can be listed, links among its entries or not;
* `Disk.IsTree`: what every tree of files and directories has, when no entry is a link;
* `Disk.node?_put`, `Disk.node?_erase`: the entries after one was put or erased;
* `Disk.IsTree.put`, `Disk.IsTree.erase`: a tree stays one when files are put or erased;
* `Disk.FilesChanged`: two trees that differ in files at some places only. The relation can be
  composed, so that a run of several steps is one such change;
* `Disk.KeepsEntries`: nothing was removed.
-/
import Mathlib.Data.List.Nodup
import ImageMigration.Proofs.Path.Rooted

namespace ImageMigration

/-- Whether an entry is a link. -/
def Node.isLink (n : Node) : Bool :=
  match n.content with
  | .link _ => true
  | _ => false

lemma Node.isLink_eq_false_of_isDir {n : Node} (h : n.isDir = true) : n.isLink = false := by
  obtain ⟨content, perms⟩ := n
  cases content with
  | dir => rfl
  | file bytes | link target => exact absurd h (by simp [Node.isDir])

instance : DecidableEq Content
  | .file bytes, .file bytes' => decidable_of_iff (bytes.data = bytes'.data)
      ⟨fun h => congrArg Content.file (ByteArray.ext h), fun h => by rw [Content.file.inj h]⟩
  | .dir, .dir => isTrue rfl
  | .link target, .link target' => decidable_of_iff (target = target')
      ⟨congrArg Content.link, Content.link.inj⟩
  | .file _, .dir | .file _, .link _ | .dir, .file _ | .dir, .link _ | .link _, .file _
  | .link _, .dir => isFalse Content.noConfusion

deriving instance DecidableEq for Node, Disk

namespace Disk

/-- A tree that can be listed, with links among its entries or without: one entry at each place, and
names that a directory can list. -/
structure IsNamed (d : Disk) : Prop where
  distinct : (d.nodes.map Prod.fst).Nodup
  names : ∀ entry ∈ d.nodes, AreNames entry.1

instance (d : Disk) : Decidable d.IsNamed :=
  decidable_of_iff ((d.nodes.map Prod.fst).Nodup ∧ ∀ entry ∈ d.nodes, AreNames entry.1)
    ⟨fun ⟨hd, hn⟩ => ⟨hd, hn⟩, fun h => ⟨h.distinct, h.names⟩⟩

/-- A tree of files and directories without links: one entry at each place, names that a directory
can list, and every entry in a directory. -/
structure IsTree (d : Disk) : Prop where
  distinct : (d.nodes.map Prod.fst).Nodup
  names : ∀ entry ∈ d.nodes, AreNames entry.1
  no_links : ∀ entry ∈ d.nodes, entry.2.isLink = false
  parents : ∀ entry ∈ d.nodes, (d.node? entry.1.dropLast).any Node.isDir = true

instance (d : Disk) : Decidable d.IsTree :=
  decidable_of_iff ((d.nodes.map Prod.fst).Nodup ∧ (∀ entry ∈ d.nodes, AreNames entry.1) ∧
      (∀ entry ∈ d.nodes, entry.2.isLink = false) ∧
      ∀ entry ∈ d.nodes, (d.node? entry.1.dropLast).any Node.isDir = true)
    ⟨fun ⟨hd, hn, hl, hp⟩ => ⟨hd, hn, hl, hp⟩,
      fun h => ⟨h.distinct, h.names, h.no_links, h.parents⟩⟩

/-- No entry is a link. -/
def HasNoLinks (d : Disk) : Prop := ∀ l n, d.node? l = some n → n.isLink = false

/-- The tree of some directories and files, all of them permitted, by their paths. -/
def ofPaths (dirs : List Text) (files : List (Text × Bytes)) : Disk :=
  { nodes := dirs.map (fun p => (Listing.place ⟨p⟩, ⟨.dir, .all⟩)) ++
      files.map fun f => (Listing.place ⟨f.1⟩, ⟨.file f.2, .all⟩)
    workingDir := [] }

/-- The path is that of an entry that the first tree has and the second has not. -/
def Removed (d d' : Disk) (p : Path) : Prop :=
  p.IsPlace ∧ (d.node? (Listing.place p)).isSome = true ∧ d'.node? (Listing.place p) = none

instance (d d' : Disk) (p : Path) : Decidable (Removed d d' p) :=
  inferInstanceAs (Decidable (p.IsPlace ∧ (d.node? (Listing.place p)).isSome = true ∧
    d'.node? (Listing.place p) = none))

/-! ### Single entries -/

section Entries

variable {d : Disk} {l l' : Location} {n n' : Node}

lemma checkEnter_eq_ok_iff :
    d.checkEnter l = .ok () ↔
      ∃ n, d.node? l = some n ∧ n.isDir = true ∧ n.permissions.enter = true := by
  rw [checkEnter]
  cases d.node? l with
  | none => simp
  | some n => cases hdir : n.isDir <;> cases hent : n.permissions.enter <;> simp [hdir, hent]

lemma node?_nil (d : Disk) : d.node? [] = some ⟨.dir, .all⟩ := by
  rw [node?, if_pos rfl]

lemma node?_of_ne_nil (h : l ≠ []) :
    d.node? l = (d.nodes.find? fun entry => entry.1 == l).map Prod.snd := by
  rw [node?, if_neg h]

lemma mem_of_node? (hl : l ≠ []) (h : d.node? l = some n) : (l, n) ∈ d.nodes := by
  rw [node?_of_ne_nil hl, Option.map_eq_some_iff] at h
  obtain ⟨⟨l', n'⟩, hfind, rfl⟩ := h
  have hmem := List.mem_of_find?_eq_some hfind
  have hkey : l' = l := by simpa using List.find?_some hfind
  rwa [hkey] at hmem

lemma find?_putIn_self (l : Location) (n : Node) (nodes : List (Location × Node)) :
    (putIn l n nodes).find? (fun entry => entry.1 == l) = some (l, n) := by
  induction nodes with
  | nil => simp [putIn]
  | cons entry nodes ih =>
      obtain ⟨k, m⟩ := entry
      rw [putIn]
      by_cases hk : k = l
      · simp [hk]
      · have hkl : (k == l) = false := by simpa using hk
        rw [if_neg hk, List.find?_cons]
        simp only [hkl, ih]

lemma find?_putIn_ne (h : l' ≠ l) (n : Node) (nodes : List (Location × Node)) :
    (putIn l n nodes).find? (fun entry => entry.1 == l')
      = nodes.find? (fun entry => entry.1 == l') := by
  induction nodes with
  | nil => simp [putIn, Ne.symm h]
  | cons entry nodes ih =>
      obtain ⟨k, m⟩ := entry
      rw [putIn]
      by_cases hk : k = l
      · simp [hk, Ne.symm h]
      · rw [if_neg hk, List.find?_cons, List.find?_cons, ih]

/-- The places after an entry was put. -/
lemma map_fst_putIn (l : Location) (n : Node) (nodes : List (Location × Node)) :
    (putIn l n nodes).map Prod.fst
      = if l ∈ nodes.map Prod.fst then nodes.map Prod.fst else nodes.map Prod.fst ++ [l] := by
  induction nodes with
  | nil => simp [putIn]
  | cons entry nodes ih =>
      obtain ⟨k, m⟩ := entry
      rw [putIn]
      by_cases hk : k = l
      · simp [hk]
      · rw [if_neg hk, List.map_cons, ih, List.map_cons]
        by_cases hmem : l ∈ nodes.map Prod.fst
        · rw [if_pos hmem, if_pos (List.mem_cons_of_mem _ hmem)]
        · rw [if_neg hmem, if_neg (by simpa [Ne.symm hk] using hmem)]
          rfl

lemma mem_putIn {entry : Location × Node} {nodes : List (Location × Node)}
    (h : entry ∈ putIn l n nodes) : entry = (l, n) ∨ entry ∈ nodes := by
  induction nodes with
  | nil => exact Or.inl (List.mem_singleton.mp h)
  | cons first nodes ih =>
      obtain ⟨k, m⟩ := first
      rw [putIn] at h
      split at h
      · exact (List.mem_cons.mp h).imp id (List.mem_cons_of_mem _)
      · rcases List.mem_cons.mp h with rfl | hrest
        · exact Or.inr (List.mem_cons_self ..)
        · exact (ih hrest).imp id (List.mem_cons_of_mem _)

/-- After an entry was put, it stands at its place, and elsewhere everything is as before. -/
lemma node?_put (hl : l ≠ []) (n : Node) (l' : Location) :
    (d.put l n).node? l' = if l' = l then some n else d.node? l' := by
  by_cases h : l' = l
  · rw [if_pos h, h, node?_of_ne_nil hl, put, find?_putIn_self]
    rfl
  · rw [if_neg h]
    by_cases hn : l' = []
    · rw [hn, node?_nil, node?_nil]
    · rw [node?_of_ne_nil hn, node?_of_ne_nil hn, put, find?_putIn_ne h]

/-- After an entry was erased, nothing is at its place, and elsewhere everything is as before. -/
lemma node?_erase (hl : l ≠ []) (l' : Location) :
    (d.erase l).node? l' = if l' = l then none else d.node? l' := by
  by_cases h : l' = l
  · rw [if_pos h, h, node?_of_ne_nil hl, erase]
    simp
  · rw [if_neg h]
    by_cases hn : l' = []
    · rw [hn, node?_nil, node?_nil]
    · rw [node?_of_ne_nil hn, node?_of_ne_nil hn, erase, List.find?_filter]
      congr 1
      refine congrArg (fun p => List.find? p d.nodes) (funext fun entry => ?_)
      by_cases he : entry.1 = l'
      · simp [he, h]
      · simp [he]

end Entries

/-- What an entry lists is what stands there. -/
lemma IsNamed.node?_of_mem {d : Disk} {l : Location} {n : Node} (h : d.IsNamed) (hl : l ≠ [])
    (hn : (l, n) ∈ d.nodes) : d.node? l = some n := by
  rw [node?_of_ne_nil hl]
  cases hfind : d.nodes.find? fun entry => entry.1 == l with
  | none =>
      have hno := List.find?_eq_none.mp hfind _ hn
      exact absurd hno (by simp)
  | some entry =>
      have hkey : entry.1 = l := by simpa using List.find?_some hfind
      have hsame : entry = (l, n) :=
        List.inj_on_of_nodup_map h.distinct (List.mem_of_find?_eq_some hfind) hn hkey
      rw [hsame]
      rfl

namespace IsTree

variable {d : Disk} {l : Location} {n : Node}

lemma isNamed (h : d.IsTree) : d.IsNamed := ⟨h.distinct, h.names⟩

lemma hasNoLinks (h : d.IsTree) : d.HasNoLinks := by
  intro l n hn
  by_cases hl : l = []
  · rw [hl, node?_nil] at hn
    simp only [Option.some.injEq] at hn
    rw [← hn]
    rfl
  · exact h.no_links _ (mem_of_node? hl hn)

lemma exists_parent (h : d.IsTree) {entry : Location × Node} (hentry : entry ∈ d.nodes) :
    ∃ up, d.node? entry.1.dropLast = some up ∧ up.isDir = true := by
  have hp := h.parents _ hentry
  rw [Option.any_eq_true] at hp
  obtain ⟨up, hup, hdir⟩ := hp
  exact ⟨up, by simpa using hup, hdir⟩

/-- An entry lies in a directory. -/
lemma isDir_dropLast (h : d.IsTree) (hn : d.node? l = some n) :
    ∃ up, d.node? l.dropLast = some up ∧ up.isDir = true := by
  by_cases hl : l = []
  · subst hl
    exact ⟨_, node?_nil d, rfl⟩
  · exact h.exists_parent (mem_of_node? hl hn)

/-- Everything above an entry is a directory. -/
lemma isDir_above (h : d.IsTree) {k : Nat} (hk : k < l.length) (hn : d.node? l = some n) :
    ∃ up, d.node? (l.take k) = some up ∧ up.isDir = true := by
  induction l using List.reverseRecOn generalizing n with
  | nil => simp at hk
  | append_singleton l name ih =>
      obtain ⟨up, hup, hdir⟩ := h.isDir_dropLast hn
      rw [List.dropLast_concat] at hup
      rw [List.length_append, List.length_singleton] at hk
      rw [List.take_append_of_le_length (by omega)]
      by_cases hlast : k = l.length
      · rw [hlast, List.take_length]
        exact ⟨up, hup, hdir⟩
      · exact ih (by omega) hup

/-- A tree with a file at a place of a directory is a tree, if the place was none of a directory. -/
lemma put (h : d.IsTree) (hl : AreNames l) (hne : l ≠ []) (hlink : n.isLink = false)
    (hup : ∃ up, d.node? l.dropLast = some up ∧ up.isDir = true)
    (hfree : ∀ old, d.node? l = some old → old.isDir = false) : (d.put l n).IsTree where
  distinct := by
    rw [Disk.put, map_fst_putIn]
    split
    · exact h.distinct
    · next hnew =>
      refine List.nodup_append.mpr ⟨h.distinct, List.nodup_singleton _, fun k hk k' hk' heq => ?_⟩
      rw [List.mem_singleton.mp hk'] at heq
      exact hnew (heq ▸ hk)
  names := fun entry hentry => by
    rcases mem_putIn hentry with rfl | hold
    · exact hl
    · exact h.names _ hold
  no_links := fun entry hentry => by
    rcases mem_putIn hentry with rfl | hold
    · exact hlink
    · exact h.no_links _ hold
  parents := fun entry hentry => by
    rw [node?_put hne]
    rcases mem_putIn hentry with rfl | hold
    · obtain ⟨up, hup, hdir⟩ := hup
      have hshort : l.dropLast ≠ l := fun heq => by
        have hlength := congrArg List.length heq
        have hpos := List.length_pos_of_ne_nil hne
        rw [List.length_dropLast] at hlength
        omega
      rw [if_neg hshort, hup]
      exact hdir
    · rw [if_neg]
      · exact h.parents _ hold
      · intro heq
        obtain ⟨up, hup, hdir⟩ := h.exists_parent hold
        rw [heq] at hup
        exact absurd hdir (by simp [hfree up hup])

/-- A tree without one of its files is a tree. -/
lemma erase (h : d.IsTree) (hne : l ≠ []) (hfile : ∀ n, d.node? l = some n → n.isDir = false) :
    (d.erase l).IsTree where
  distinct := h.distinct.sublist (List.filter_sublist.map Prod.fst)
  names := fun entry hentry => h.names _ (List.mem_filter.mp hentry).1
  no_links := fun entry hentry => h.no_links _ (List.mem_filter.mp hentry).1
  parents := fun entry hentry => by
    have hold := (List.mem_filter.mp hentry).1
    rw [node?_erase hne, if_neg]
    · exact h.parents _ hold
    · intro heq
      obtain ⟨up, hup, hdir⟩ := h.exists_parent hold
      rw [heq] at hup
      exact absurd hdir (by simp [hfile up hup])

end IsTree

/-! ### Trees that differ in files -/

/-- The second tree has, at some places only, other files than the first, or none. -/
def FilesChanged (places : Location → Prop) (d d' : Disk) : Prop :=
  ∀ l, d'.node? l = d.node? l ∨
    (places l ∧ (∀ n, d.node? l = some n → n.isDir = false) ∧
      ∀ n, d'.node? l = some n → ∃ bytes, n.content = .file bytes)

namespace FilesChanged

variable {places places' : Location → Prop} {d d' d'' : Disk} {l : Location}

lemma refl (places : Location → Prop) (d : Disk) : FilesChanged places d d := fun _ => Or.inl rfl

lemma mono (h : FilesChanged places d d') (hp : ∀ l, places l → places' l) :
    FilesChanged places' d d' := fun l =>
  (h l).imp id fun ⟨hl, hrest⟩ => ⟨hp l hl, hrest⟩

lemma trans (h : FilesChanged places d d') (h' : FilesChanged places d' d'') :
    FilesChanged places d d'' := by
  intro l
  rcases h l, h' l with ⟨hsame | ⟨hl, hdir, hfile⟩, hsame' | ⟨hl', hdir', hfile'⟩⟩
  · exact Or.inl (hsame'.trans hsame)
  · exact Or.inr ⟨hl', by rwa [hsame] at hdir', hfile'⟩
  · exact Or.inr ⟨hl, hdir, by rwa [hsame']⟩
  · exact Or.inr ⟨hl, hdir, hfile'⟩

lemma node?_eq (h : FilesChanged places d d') (hl : ¬ places l) : d'.node? l = d.node? l :=
  (h l).resolve_right fun hc => hl hc.1

/-- Directories stay. -/
lemma node?_eq_of_isDir (h : FilesChanged places d d') {n : Node} (hn : d.node? l = some n)
    (hdir : n.isDir = true) : d'.node? l = some n := by
  rcases h l with hsame | ⟨-, hno, -⟩
  · rw [hsame, hn]
  · exact absurd (hno n hn) (by simp [hdir])

lemma hasNoLinks (h : FilesChanged places d d') (hd : d.HasNoLinks) : d'.HasNoLinks := by
  intro l n hn
  rcases h l with hsame | ⟨-, -, hfile⟩
  · exact hd l n (hsame ▸ hn)
  · obtain ⟨bytes, hc⟩ := hfile n hn
    simp [Node.isLink, hc]

end FilesChanged

/-- The second tree has an entry wherever the first has one. -/
def KeepsEntries (d d' : Disk) : Prop := ∀ l, (d.node? l).isSome = true → (d'.node? l).isSome = true

namespace KeepsEntries

variable {d d' d'' : Disk} {l : Location}

lemma refl (d : Disk) : KeepsEntries d d := fun _ h => h

lemma trans (h : KeepsEntries d d') (h' : KeepsEntries d' d'') : KeepsEntries d d'' :=
  fun l hl => h' l (h l hl)

lemma put (hl : l ≠ []) (n : Node) : KeepsEntries d (d.put l n) := by
  intro l' h
  rw [node?_put hl]
  split
  · rfl
  · exact h

end KeepsEntries

end Disk

end ImageMigration
