/-
The log of a run.

Every line of the log is an event with its data; how loud it is and how it reads are functions of
the event. Every change that a run makes to a file is one event of its own.

* `Operation`: what is done with files; `Pass`: the two passes over the source files;
* `Level`: how loud a line is;
* `Event`, `Event.level`, `Event.message`, `Event.line`.
-/
import ImageMigration.Edit
import ImageMigration.Failure
import ImageMigration.Megabytes
import ImageMigration.Resolution
import ImageMigration.Text.Escaped

namespace ImageMigration

/-- What is done with a file. -/
inductive Operation where
  | read
  | stat
  | encode
  | write
  | update
  | delete
  deriving DecidableEq, Inhabited

/-- The name of an operation. -/
def Operation.name : Operation → Text
  | read => "read".toList
  | stat => "stat".toList
  | encode => "encode".toList
  | write => "write".toList
  | update => "rewrite".toList
  | delete => "delete".toList

/-- The passes over the source files. -/
inductive Pass where
  /-- looking for references -/
  | analysis
  /-- updating them -/
  | codemod
  deriving DecidableEq, Inhabited

/-- The name of a pass. -/
def Pass.name : Pass → Text
  | analysis => "analysis".toList
  | codemod => "codemod".toList

/-- How loud a line of the log is. -/
inductive Level where
  | error
  | warn
  | info
  | debug
  | trace
  deriving DecidableEq, Inhabited

namespace Level

/-- The order from loud to quiet. -/
def rank : Level → Nat
  | error => 1
  | warn => 2
  | info => 3
  | debug => 4
  | trace => 5

/-- The name of a level in the log. -/
def label : Level → Text
  | error => "ERROR".toList
  | warn => "WARN".toList
  | info => "INFO".toList
  | debug => "DEBUG".toList
  | trace => "TRACE".toList

/-- The name of a level in a configuration. -/
def name : Level → Text
  | error => "Error".toList
  | warn => "Warn".toList
  | info => "Info".toList
  | debug => "Debug".toList
  | trace => "Trace".toList

/-- All levels. -/
def all : List Level := [error, warn, info, debug, trace]

/-- The level of a name. -/
def ofName? (t : Text) : Option Level := all.find? fun l => l.name == t

end Level

/-- A line of the log. -/
inductive Event where
  | loggingTo (file : Path)
  | starting
  | complete
  | scanning (dir : Path)
  | unreadableEntry (dir : Path) (e : OsError)
  | found (images codes : Nat)
  | noImages
  | candidate (reference : Text) (convention : Convention) (path : Path)
  | dynamicReference (chunk : Text) (file : Path)
  | targetDir (dir : Path)
  | inventory (images : List Path)
  | candidatePaths (paths : List Path)
  | publicUsages (usages : List Text)
  | identified (used unused : Nat)
  | noneUsed
  | converting (count : Nat) (extension : Text)
  | keeping (image : Path) (oldSize newSize : Nat)
  | converted (count : Nat) (saved : Megabytes)
  | updatingReferences
  | reemitting (value : Text) (file : Path)
  | droppingEdit (edit : Edit)
  | uneditedReferences (count : Nat) (file : Path)
  | updatedFiles (count : Nat)
  | deletionSkipped (unparseable unwritten unedited : Nat)
  | notDeleted (path : Path) (e : OsError)
  | deleted (replaced unused : Nat)
  | parserSkipped (count : Nat)
  | failed (operation : Operation) (path : Path) (message : Text)
  | parseFailed (pass : Pass) (file : Path) (message : Text)
  /-- a change to a file -/
  | changed (operation : Operation) (path : Path) (details : Option Text)
  deriving DecidableEq

namespace Event

/-- How loud an event is. -/
def level : Event → Level
  | failed .. => .error
  | unreadableEntry .. | uneditedReferences .. | deletionSkipped .. | notDeleted ..
  | parserSkipped .. | parseFailed .. => .warn
  | dynamicReference .. | reemitting .. | droppingEdit .. => .debug
  | candidate .. => .trace
  | _ => .info

/-- How an event reads. -/
def message : Event → Text
  | loggingTo file => "Logging to file: ".toList ++ file.text
  | starting => "Starting WebP migration...".toList
  | complete => "Migration complete".toList
  | scanning dir => "Scanning ".toList ++ dir.text ++ " for images and source files...".toList
  | unreadableEntry dir e =>
    "Skipping unreadable entry during scan: IO error for operation on ".toList ++ dir.text ++
      ": ".toList ++ e.message
  | found images codes =>
    "Found ".toList ++ Text.ofNat images ++ " images and ".toList ++ Text.ofNat codes ++
      " source files".toList
  | noImages => "No images found to process".toList
  | candidate reference convention path =>
    reference ++ " [".toList ++ convention.name ++ "] -> ".toList ++ path.text
  | dynamicReference chunk file =>
    "Dynamic reference ".toList ++ chunk.quoted ++ " in ".toList ++ file.text
  | targetDir dir => "Target dir: ".toList ++ dir.text
  | inventory images =>
    "Normalized inventory images: ".toList ++ quotedSet (images.map Path.quoted)
  | candidatePaths paths =>
    "Normalized candidate paths: ".toList ++ quotedSet (paths.map Path.quoted)
  | publicUsages usages => "Public usages: ".toList ++ quotedSet (usages.map Text.quoted)
  | identified used unused =>
    "Identified ".toList ++ Text.ofNat used ++ " used images and ".toList ++ Text.ofNat unused ++
      " unused images".toList
  | noneUsed => "No used images found in code; skipping conversion".toList
  | converting count extension =>
    "Converting ".toList ++ Text.ofNat count ++ " used images to ".toList ++ extension ++
      "...".toList
  | keeping image oldSize newSize =>
    "Keeping ".toList ++ image.text ++ " (".toList ++ Text.ofNat oldSize ++
      " bytes); re-encoded size would be ".toList ++ Text.ofNat newSize ++ " bytes".toList
  | converted count saved =>
    "Converted ".toList ++ Text.ofNat count ++ " images (saved ".toList ++ saved.render ++
      " MB)".toList
  | updatingReferences => "Updating source references...".toList
  | reemitting value file =>
    "Re-emitting escaped literal ".toList ++ value.quoted ++ " in ".toList ++ file.text
  | droppingEdit edit =>
    "Dropping overlapping edit at ".toList ++ Text.ofNat edit.start ++ "..".toList ++
      Text.ofNat edit.stop
  | uneditedReferences count file =>
    Text.ofNat count ++ " reference(s) to converted images in ".toList ++ file.text ++
      " could not be rewritten".toList
  | updatedFiles count => "Updated ".toList ++ Text.ofNat count ++ " source files".toList
  | deletionSkipped unparseable unwritten unedited =>
    "Skipped deleting originals/unused images: ".toList ++ Text.ofNat unparseable ++
      " source files could not be parsed, ".toList ++ Text.ofNat unwritten ++
      " could not be written, ".toList ++ Text.ofNat unedited ++
      " still reference converted images.".toList
  | notDeleted path e => "Failed to delete file ".toList ++ path.text ++ ": ".toList ++ e.message
  | deleted replaced unused =>
    "Deleted ".toList ++ Text.ofNat replaced ++ " converted originals and ".toList ++
      Text.ofNat unused ++ " unused images".toList
  | parserSkipped count =>
    "Parser skipped ".toList ++ Text.ofNat count ++ " source files during this run".toList
  | failed operation path message =>
    operation.name ++ " failed for ".toList ++ path.text ++ ": ".toList ++ message
  | parseFailed pass file message =>
    "Parse failed during ".toList ++ pass.name ++ " for ".toList ++ file.text ++ ": ".toList ++
      message
  | changed operation path none =>
    "FS CHANGE ".toList ++ operation.name ++ " ".toList ++ path.text
  | changed operation path (some details) =>
    "FS CHANGE ".toList ++ operation.name ++ " ".toList ++ path.text ++ " (".toList ++ details ++
      ")".toList

/-- An event as a line of the log. -/
def line (e : Event) : Text := e.level.label ++ ' ' :: e.message

/-- Whether an event is loud enough for a log. -/
def isLogged (level : Level) (e : Event) : Bool := e.level.rank ≤ level.rank

end Event

end ImageMigration
