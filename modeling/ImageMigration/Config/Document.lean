/-
Configuration files.

A configuration file is a JSON record of the settings. Settings that it does not mention have their
default values, and members that are no settings are passed over.

* `Config.toJson`, `Config.ofJson?`: the record;
* `Config.render`, `Config.ofBytes?`: the contents of a file;
* `Config.load?`, `Config.save?`: the file itself.
-/
import ImageMigration.Config
import ImageMigration.Json.Printer
import ImageMigration.Json.Reader
import ImageMigration.Json.Record

namespace ImageMigration

/-- The greatest count that a machine word holds. -/
def maxCount : Nat := (1 <<< 64) - 1

namespace Config

/-- The greatest quality that a document can give. Not all of them can be used. -/
def maxQuality : Nat := 255

/-- The names of the settings in their order. -/
def fieldNames : List Text :=
  ["target_dir".toList, "dry_run".toList, "quality".toList, "delete_originals".toList,
   "verbose".toList, "max_depth".toList, "extra_ignored_dirs".toList, "log_level".toList]

/-- A number or `null`. -/
def depthToJson : Option Nat → Json
  | none => .null
  | some n => Json.ofNat n

/-- The values of the settings in the order of their names. -/
def fieldValues (config : Config) : List Json :=
  [Json.ofText config.targetDir.text, .bool config.dryRun, Json.ofNat config.quality,
   .bool config.deleteReplaced, .bool config.verbose, depthToJson config.maxDepth,
   Json.ofList Json.ofText config.extraIgnoredDirs, Json.ofText config.logLevel.name]

/-- The settings as a record. -/
def toJson (config : Config) : Json :=
  .object ((fieldNames.map Json.escape).zip config.fieldValues)

/-- A level by its name. -/
def levelOfJson? (j : Json) : Option Level := j.asVariant?.bind Level.ofName?

/-- The settings of a record. -/
def ofJson? (j : Json) : Option Config :=
  match Json.fields? fieldNames j with
  | some [dir, dry, quality, delete, verbose, depth, ignored, level] => do
    let dir ← Json.readOr? Json.asText? default.targetDir.text dir
    let dry ← Json.readOr? Json.asBool? default.dryRun dry
    let quality ← Json.readOr? (Json.asNat? maxQuality) default.quality quality
    let delete ← Json.readOr? Json.asBool? default.deleteReplaced delete
    let verbose ← Json.readOr? Json.asBool? default.verbose verbose
    let depth ← Json.readOr? (Json.asOption? (Json.asNat? maxCount)) default.maxDepth depth
    let ignored ← Json.readOr? (Json.asList? Json.asText?) default.extraIgnoredDirs ignored
    let level ← Json.readOr? levelOfJson? default.logLevel level
    some
      { targetDir := ⟨dir⟩, dryRun := dry, quality, deleteReplaced := delete, verbose,
        maxDepth := depth, extraIgnoredDirs := ignored, logLevel := level }
  | _ => none

/-- The contents of a configuration file. -/
def render (config : Config) : Text := config.toJson.pretty

/-- What takes the place of a byte that belongs to no character: an escape without a meaning. So
such a byte does no harm in a string that nobody looks at, and makes any other unreadable. -/
def brokenByte : Text := "\\ud800".toList

/-- The settings that the contents of a file give. -/
def ofBytes? (contents : Bytes) : Option Config :=
  (Json.read? (Text.ofBytes brokenByte contents)).bind ofJson?

/-- The settings in a file. -/
def load? (disk : Disk) (file : Path) : Except Failure Config :=
  match disk.read? file with
  | .error .isDirectory => .error (.configuration .unparsed)
  | .error e => .error (.configuration (.unopened e))
  | .ok contents =>
    match ofBytes? contents with
    | some config => .ok config
    | none => .error (.configuration .unparsed)

/-- The tree after the settings were written to a file. -/
def save? (config : Config) (disk : Disk) (file : Path) : Except Failure Disk :=
  match disk.create? file config.render.toUtf8 with
  | .error e => .error (.configuration (.uncreated e))
  | .ok disk => .ok disk

end Config

end ImageMigration
