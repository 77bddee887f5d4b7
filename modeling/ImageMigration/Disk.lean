/-
A tree of files.

The tree is a list of entries by their place, in the order in which directories list them. What an
owner without privileges may do with an entry is part of it.

* `Disk.node?`, `Disk.put`, `Disk.erase`, `Disk.children`: single entries;
* `Disk.resolve?`: the place that a path denotes, links being followed;
* `Disk.size?`, `Disk.read?`, `Disk.list?`, `Disk.write?`, `Disk.remove?`, `Disk.makeDirs?`: what
  programs do with files. Each either fails and changes nothing, or does its work on one place.
-/
import ImageMigration.Failure
import ImageMigration.Text.Utf8

namespace ImageMigration

/-- A place in the tree: the names that lead to it from the root. -/
abbrev Location := List Text

/-- What stands at a place. -/
inductive Content where
  | file (bytes : Bytes)
  | dir
  | link (target : Path)
  deriving Inhabited

/-- What the owner may do. A directory that may be written can get and lose entries, one that may be
entered lets paths through. -/
structure Permissions where
  read : Bool
  write : Bool
  enter : Bool
  deriving DecidableEq, Inhabited

/-- Everything is allowed. -/
def Permissions.all : Permissions := ⟨true, true, true⟩

/-- An entry of the tree. -/
structure Node where
  content : Content
  permissions : Permissions
  deriving Inhabited

/-- Whether an entry is a directory. -/
def Node.isDir (n : Node) : Bool :=
  match n.content with
  | .dir => true
  | _ => false

/-- A tree of files, and the directory that relative paths start from. -/
structure Disk where
  nodes : List (Location × Node)
  workingDir : Location
  deriving Inhabited

namespace Disk

/-! ### Entries -/

/-- The entry at a place. The root is always a directory. -/
def node? (d : Disk) (l : Location) : Option Node :=
  if l = [] then some ⟨.dir, .all⟩ else (d.nodes.find? fun n => n.1 == l).map Prod.snd

/-- Puts an entry into a list of entries: in the place of an older one, or at the end. -/
def putIn (l : Location) (n : Node) : List (Location × Node) → List (Location × Node)
  | [] => [(l, n)]
  | (l', n') :: rest => if l' = l then (l, n) :: rest else (l', n') :: putIn l n rest

/-- The tree with an entry at a place. -/
def put (d : Disk) (l : Location) (n : Node) : Disk := { d with nodes := putIn l n d.nodes }

/-- The tree without the entry at a place. -/
def erase (d : Disk) (l : Location) : Disk :=
  { d with nodes := d.nodes.filter fun n => n.1 != l }

/-- The entries of a directory with their names. -/
def children (d : Disk) (l : Location) : List (Text × Node) :=
  d.nodes.filterMap fun n =>
    match n.1.getLast? with
    | some name => if n.1.dropLast = l then some (name, n.2) else none
    | none => none

/-- One more than the length of the longest place. -/
def height (d : Disk) : Nat := (d.nodes.map fun n => n.1.length).foldl max 0 + 1

/-! ### Places of paths -/

/-- Where a walk along names ends: at a place, or at a link with names left. -/
inductive Stop where
  | place (l : Location)
  | link (target : Path) (dir : Location) (rest : List Text)

/-- Whether a walk may go on from a place. -/
def checkEnter (d : Disk) (l : Location) : Except OsError Unit :=
  match d.node? l with
  | some n =>
    if !n.isDir then .error .notDirectory
    else if n.permissions.enter then .ok ()
    else .error .permissionDenied
  | none => .error .notFound

/-- Walks along names. The last name need not exist, and is followed on demand if it is a link. -/
def walk (d : Disk) (follow : Bool) : Location → List Text → Except OsError Stop
  | here, [] => .ok (.place here)
  | here, name :: rest =>
    match d.checkEnter here with
    | .error e => .error e
    | .ok () =>
      if Path.isSilent name then walk d follow here rest
      else if name = ['.', '.'] then walk d follow here.dropLast rest
      else match d.node? (here ++ [name]) with
        | none => if rest = [] then .ok (.place (here ++ [name])) else .error .notFound
        | some ⟨.link target, _⟩ =>
          if rest = [] ∧ !follow then .ok (.place (here ++ [name])) else .ok (.link target here rest)
        | some _ => walk d follow (here ++ [name]) rest

/-- Walks along names through no more than a number of links. -/
def walkLinks (d : Disk) (follow : Bool) : Nat → Location → List Text → Except OsError Location
  | 0, _, _ => .error .tooManyLinks
  | n + 1, here, names =>
    match d.walk follow here names with
    | .error e => .error e
    | .ok (.place l) => .ok l
    | .ok (.link target dir rest) =>
      walkLinks d follow n (if target.isAbsolute then [] else dir) (Text.split '/' target.text ++ rest)

/-- The place that a path denotes. -/
def resolve? (d : Disk) (follow : Bool) (p : Path) : Except OsError Location :=
  if p.text = [] then .error .notFound
  else d.walkLinks follow 41 (if p.isAbsolute then [] else d.workingDir) (Text.split '/' p.text)

/-- The entry that a path denotes, and its place. -/
def find? (d : Disk) (follow : Bool) (p : Path) : Except OsError (Location × Node) :=
  match d.resolve? follow p with
  | .error e => .error e
  | .ok l =>
    match d.node? l with
    | some n => .ok (l, n)
    | none => .error .notFound

/-! ### What programs do -/

/-- Whether a path denotes a directory. -/
def isDir (d : Disk) (p : Path) : Bool :=
  match d.find? true p with
  | .ok (_, n) => n.isDir
  | .error _ => false

/-- The size that is told for a directory. -/
def dirSize : Nat := 4096

/-- The size of a file. -/
def size? (d : Disk) (p : Path) : Except OsError Nat :=
  match d.find? true p with
  | .error e => .error e
  | .ok (_, ⟨.file bytes, _⟩) => .ok bytes.size
  | .ok _ => .ok dirSize

/-- The contents of a file. -/
def read? (d : Disk) (p : Path) : Except OsError Bytes :=
  match d.find? true p with
  | .error e => .error e
  | .ok (_, n) =>
    if !n.permissions.read then .error .permissionDenied
    else match n.content with
      | .file bytes => .ok bytes
      | _ => .error .isDirectory

/-- The text that a file holds. -/
def readText? (d : Disk) (p : Path) : Except OsError Text :=
  match d.read? p with
  | .error e => .error e
  | .ok bytes =>
    match Text.ofUtf8? bytes with
    | some t => .ok t
    | none => .error .notText

/-- The entries of a directory. -/
def list? (d : Disk) (p : Path) : Except OsError (List (Text × Node)) :=
  match d.find? true p with
  | .error e => .error e
  | .ok (l, n) =>
    if !n.isDir then .error .notDirectory
    else if !n.permissions.read then .error .permissionDenied
    else .ok (d.children l)

/-- Whether the directory of a place can get and lose entries. -/
def isChangeable (d : Disk) (l : Location) : Bool :=
  match d.node? l.dropLast with
  | some n => n.isDir && n.permissions.write && n.permissions.enter
  | none => false

/-- The tree after a file was written, anew or over an older one. -/
def write? (d : Disk) (p : Path) (bytes : Bytes) : Except OsError Disk :=
  match d.resolve? true p with
  | .error e => .error e
  | .ok l =>
    match d.node? l with
    | some n =>
      if n.isDir then .error .isDirectory
      else if n.permissions.write then .ok (d.put l ⟨.file bytes, n.permissions⟩)
      else .error .permissionDenied
    | none =>
      if d.isChangeable l then .ok (d.put l ⟨.file bytes, .all⟩) else .error .permissionDenied

/-- The tree after bytes were added at the end of a file, which is made if there is none. -/
def append? (d : Disk) (p : Path) (bytes : Bytes) : Except OsError Disk :=
  match d.find? true p with
  | .ok (_, ⟨.file old, _⟩) => d.write? p (old ++ bytes)
  | _ => d.write? p bytes

/-- The tree after a file or a link was removed. -/
def remove? (d : Disk) (p : Path) : Except OsError Disk :=
  match d.find? false p with
  | .error e => .error e
  | .ok (l, n) =>
    if !d.isChangeable l then .error .permissionDenied
    else if n.isDir then .error .isDirectory
    else .ok (d.erase l)

/-- A path without slashes at its end, the root excepted. -/
def trimSlashes (p : Path) : Path :=
  match (p.text.reverse.dropWhile (· == '/')).reverse with
  | [] => p
  | t => ⟨t⟩

/-- The tree after a directory was made. -/
def makeDir? (d : Disk) (p : Path) : Except OsError Disk :=
  match d.resolve? false (trimSlashes p) with
  | .error e => .error e
  | .ok l =>
    match d.node? l with
    | some _ => .error .alreadyExists
    | none => if d.isChangeable l then .ok (d.put l ⟨.dir, .all⟩) else .error .permissionDenied

/-- The tree after a file was made at a path of any form. One that ends with a slash names no file,
even where there is none yet. -/
def create? (d : Disk) (p : Path) (bytes : Bytes) : Except OsError Disk :=
  if trimSlashes p = p then d.write? p bytes
  else match d.resolve? true (trimSlashes p) with
    | .error e => .error e
    | .ok _ => .error .isDirectory

/-- A tree with a directory that was made, or that was there before. -/
def orExisting (d : Disk) (p : Path) : Except OsError Disk → Except OsError Disk
  | .ok made => .ok made
  | .error e => if d.isDir p then .ok d else .error e

/-- The tree after a directory was made together with those above it. The first argument bounds
their number. -/
def makeDirsFor (d : Disk) : Nat → Path → Except OsError Disk
  | 0, _ => .error .notFound
  | n + 1, p =>
    if p.text = [] then .ok d
    else match d.makeDir? p with
      | .ok d => .ok d
      | .error .notFound =>
        match p.parent? with
        | none => .error .notFound
        | some parent =>
          match makeDirsFor d n parent with
          | .error e => .error e
          | .ok d => d.orExisting p (d.makeDir? p)
      | .error e => d.orExisting p (.error e)

/-- The tree after a directory was made together with those above it. -/
def makeDirs? (d : Disk) (p : Path) : Except OsError Disk := d.makeDirsFor (p.text.length + 1) p

end Disk

end ImageMigration
