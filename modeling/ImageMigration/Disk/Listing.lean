/-
Trees from listings, and what a command changed in one.

A listing has a line for every entry of a tree: its kind, its permissions in octal, and its absolute
path, with blanks between them. The first line names the directory that relative paths start from.

* `Listing.Entry.ofLine?`: an entry from its line;
* `Disk.ofListing`: the tree of listed files and directories;
* `Disk.changes`: what has to be done to turn one tree into another.
-/
import ImageMigration.Disk

namespace ImageMigration

/-! ### Listings -/

/-- The kinds of entries that a tree is built from. -/
inductive Listing.Kind where
  | file
  | dir
  deriving DecidableEq, Inhabited

/-- A line of a listing. -/
structure Listing.Entry where
  kind : Listing.Kind
  permissions : Permissions
  path : Path
  deriving DecidableEq, Inhabited

namespace Listing

/-- What an octal digit allows. -/
def permissionsOfDigit? (c : Char) : Option Permissions :=
  if '0' ≤ c ∧ c ≤ '7' then
    let bits := c.toNat - '0'.toNat
    some ⟨4 ≤ bits, bits / 2 % 2 = 1, bits % 2 = 1⟩
  else none

/-- What an octal mode allows the owner, whose digit is the third from the right. -/
def permissionsOfMode? (mode : Text) : Option Permissions :=
  mode.reverse[2]?.bind permissionsOfDigit?

/-- The kind of a letter. Links and other entries have none: a search passes them over. -/
def Kind.ofLetter? : Char → Option Kind
  | 'f' => some file
  | 'd' => some dir
  | _ => none

/-- The entry of a line. -/
def Entry.ofLine? (line : Text) : Option Entry :=
  match line with
  | letter :: ' ' :: rest => do
    let kind ← Kind.ofLetter? letter
    let permissions ← permissionsOfMode? (rest.takeWhile (· ≠ ' '))
    match rest.dropWhile (· ≠ ' ') with
    | _ :: path => some ⟨kind, permissions, ⟨path⟩⟩
    | [] => none
  | _ => none

/-- The place of a path from the root. -/
def place (p : Path) : Location :=
  p.components.filterMap fun c =>
    match c with
    | .name n => some n
    | _ => none

end Listing

/-- The directories above a place. -/
def Disk.above (l : Location) : List (Location × Node) :=
  (List.range l.length).map fun n => (l.take n, ⟨.dir, .all⟩)

/-- The tree of listed entries with their contents. The first entry is the working directory. -/
def Disk.ofListing (entries : List (Listing.Entry × Content)) : Disk :=
  let workingDir := (entries.head?.map fun e => Listing.place e.1.path).getD []
  { nodes := Disk.above workingDir ++
      entries.map fun e => (Listing.place e.1.path, ⟨e.2, e.1.permissions⟩)
    workingDir }

/-! ### Changes -/

/-- One change of a tree. -/
inductive Disk.Change where
  | makeDir (path : Path)
  | write (path : Path) (bytes : Bytes)
  | remove (path : Path)

namespace Disk

/-- The path of a place. -/
def pathOf (l : Location) : Path := Path.ofSegments .root l

/-- The change that makes an entry, if it is not there already. -/
def makingChange? (before : Disk) (l : Location) (n : Node) : Option Change :=
  match n.content, (before.node? l).map Node.content with
  | .file bytes, some (.file old) => if bytes == old then none else some (.write (pathOf l) bytes)
  | .file bytes, _ => some (.write (pathOf l) bytes)
  | .dir, none => some (.makeDir (pathOf l))
  | _, _ => none

/-- The changes that turn a tree into another one, in an order in which they can be made. -/
def changes (before after : Disk) : List Change :=
  (after.nodes.filterMap fun n => makingChange? before n.1 n.2) ++
    before.nodes.filterMap fun n =>
      if (after.node? n.1).isSome then none else some (.remove (pathOf n.1))

end Disk

end ImageMigration
