/-
Configuration files that are written and read again.

A configuration file may be edited by hand: its members may be moved and dropped, others may be
added, and white space is free. What is read then are the settings that were saved, with the default
values in the fields that were dropped.

* `Config.IsSized`: the settings fit into the words that hold them;
* `Config.resetting`: the settings with the default values in some fields;
* `Config.ofJson?_of_isRearranged`: **the record of a configuration is read back**;
* `Config.load?_round_trip`: **so are its files**, whatever was done to them by hand.
-/
import ImageMigration.Config.Document
import ImageMigration.Proofs.Disk.Reread
import ImageMigration.Proofs.Json.Rearranged

namespace ImageMigration

open Json (IsRearranged IsSpacing Spells)

namespace Config

/-- The settings fit into the words that hold them. -/
structure IsSized (config : Config) : Prop where
  quality_le : config.quality ≤ maxQuality
  maxDepth_le : ∀ n ∈ config.maxDepth, n ≤ maxCount

instance (config : Config) : Decidable config.IsSized :=
  decidable_of_iff (config.quality ≤ maxQuality ∧ ∀ n ∈ config.maxDepth, n ≤ maxCount)
    ⟨fun h => ⟨h.1, h.2⟩, fun h => ⟨h.1, h.2⟩⟩

/-- The settings with the default values in some fields. -/
def resetting (dropped : List Text) (config : Config) : Config :=
  { targetDir := if "target_dir".toList ∈ dropped then default.targetDir else config.targetDir
    dryRun := if "dry_run".toList ∈ dropped then default.dryRun else config.dryRun
    quality := if "quality".toList ∈ dropped then default.quality else config.quality
    deleteReplaced :=
      if "delete_originals".toList ∈ dropped then default.deleteReplaced else config.deleteReplaced
    verbose := if "verbose".toList ∈ dropped then default.verbose else config.verbose
    maxDepth := if "max_depth".toList ∈ dropped then default.maxDepth else config.maxDepth
    extraIgnoredDirs :=
      if "extra_ignored_dirs".toList ∈ dropped then default.extraIgnoredDirs
      else config.extraIgnoredDirs
    logLevel := if "log_level".toList ∈ dropped then default.logLevel else config.logLevel }

/-- The fields of the record of a configuration. -/
def fields (config : Config) : List (Text × Json) := fieldNames.zip config.fieldValues

variable {config : Config} {dropped : List Text} {members : List (Text × Json)}

lemma map_fst_fields (config : Config) : config.fields.map Prod.fst = fieldNames := rfl

lemma toJson_eq (config : Config) :
    config.toJson = .object (config.fields.map fun field => (Json.escape field.1, field.2)) := by
  simp [toJson, fields, List.zip, List.zipWith_map_left]

lemma depthOfJson (h : ∀ n ∈ config.maxDepth, n ≤ maxCount) :
    (depthToJson config.maxDepth).asOption? (Json.asNat? maxCount) = some config.maxDepth := by
  cases hd : config.maxDepth with
  | none => rfl
  | some n =>
      rw [depthToJson, Json.asOption?, Json.asNat?_ofNat (h n hd)]
      · rfl
      · simp [Json.ofNat]

lemma levelOfJson (level : Level) : levelOfJson? (Json.ofText level.name) = some level := by
  rw [levelOfJson?, Json.ofText, Json.asVariant?, Json.unescape?_escape]
  cases level <;> rfl

/-- The values of the fields, in the order of their names, where they were not dropped. -/
lemma map_fields (config : Config) (dropped : List Text) :
    (config.fields.map fun field => if field.1 ∈ dropped then none else some field.2) =
      [if "target_dir".toList ∈ dropped then none else some (Json.ofText config.targetDir.text),
       if "dry_run".toList ∈ dropped then none else some (.bool config.dryRun),
       if "quality".toList ∈ dropped then none else some (Json.ofNat config.quality),
       if "delete_originals".toList ∈ dropped then none else some (.bool config.deleteReplaced),
       if "verbose".toList ∈ dropped then none else some (.bool config.verbose),
       if "max_depth".toList ∈ dropped then none else some (depthToJson config.maxDepth),
       if "extra_ignored_dirs".toList ∈ dropped then none
       else some (Json.ofList Json.ofText config.extraIgnoredDirs),
       if "log_level".toList ∈ dropped then none else some (Json.ofText config.logLevel.name)] :=
  rfl

/-- **The record of a configuration is read back**, wherever its fields stand. -/
theorem ofJson?_of_isRearranged (h : config.IsSized)
    (hmembers : IsRearranged config.fields dropped members) :
    ofJson? (.object members) = some (config.resetting dropped) := by
  have hfields := Json.fields?_of_isRearranged (by rw [map_fst_fields]; decide) hmembers
  rw [map_fst_fields, map_fields] at hfields
  have hbool (b : Bool) : (Json.bool b).asBool? = some b := rfl
  have hignored : (Json.ofList Json.ofText config.extraIgnoredDirs).asList? Json.asText?
      = some config.extraIgnoredDirs := Json.asList?_ofList fun t _ => Json.asText?_ofText t
  have hdir : (⟨if "target_dir".toList ∈ dropped then default.targetDir.text
      else config.targetDir.text⟩ : Path)
        = if "target_dir".toList ∈ dropped then default.targetDir else config.targetDir := by
    split <;> rfl
  rw [ofJson?, hfields, resetting, ← hdir]
  dsimp only
  rw [Json.readOr?_ite (Json.asText?_ofText _), Json.readOr?_ite (hbool config.dryRun),
    Json.readOr?_ite (Json.asNat?_ofNat h.quality_le),
    Json.readOr?_ite (hbool config.deleteReplaced), Json.readOr?_ite (hbool config.verbose),
    Json.readOr?_ite (depthOfJson h.maxDepth_le), Json.readOr?_ite hignored,
    Json.readOr?_ite (levelOfJson _)]
  rfl

/-! ### Files -/

lemma isPrintable_toJson (config : Config) : config.toJson.IsPrintable := by
  rw [toJson_eq]
  refine Json.isPrintable_record fun field hfield => ?_
  have hvalue := (List.of_mem_zip hfield).2
  simp only [fieldValues, List.mem_cons, List.not_mem_nil, or_false] at hvalue
  rcases hvalue with h | h | h | h | h | h | h | h <;> rw [h]
  · exact Json.isPrintable_ofText _
  · exact .bool _
  · exact Json.isPrintable_ofNat _
  · exact .bool _
  · exact .bool _
  · cases config.maxDepth with
    | none => exact .null
    | some n => exact Json.isPrintable_ofNat n
  · exact Json.isPrintable_ofList Json.isPrintable_ofText _
  · exact Json.isPrintable_ofText _

/-- A text that spells an arrangement of the fields gives the settings. -/
lemma ofBytes?_of_spells {before text after : Text} (h : config.IsSized)
    (hmembers : IsRearranged config.fields dropped members) (hb : IsSpacing before)
    (hs : Spells (.value (.object members)) text) (ha : IsSpacing after) :
    ofBytes? (before ++ (text ++ after) : Text).toUtf8 = some (config.resetting dropped) := by
  rw [ofBytes?, Text.ofBytes, Text.ofUtf8?_eq_some_iff.mpr rfl]
  simp only
  rw [Json.read?_of_spells hb hs ha, Option.bind_some, ofJson?_of_isRearranged h hmembers]

lemma load?_eq_ok {disk : Disk} {file : Path} {contents : Bytes}
    (hread : disk.read? file = .ok contents) (h : ofBytes? contents = some config) :
    load? disk file = .ok config := by
  rw [load?, hread]
  simp only [h]

/-- **Configuration files are read back.** What was saved is loaded, if the file is new or could be
read before. And whoever moves the members of the saved record, drops some of its fields, adds
members with other names and any values, and adds white space, has the saved settings loaded with
the default values in the dropped fields. -/
theorem load?_round_trip (config : Config) (h : config.IsSized) :
    (∀ disk disk' file, config.save? disk file = .ok disk' →
      (∀ e, disk.read? file = .error e → e = .notFound) → load? disk' file = .ok config) ∧
    ∀ dropped members before text after disk file, IsRearranged config.fields dropped members →
      IsSpacing before → Spells (.value (.object members)) text → IsSpacing after →
      disk.read? file = .ok (Text.toUtf8 (before ++ (text ++ after))) →
      load? disk file = .ok (config.resetting dropped) := by
  constructor
  · intro disk disk' file hsave hread
    have hspells := Json.spells_prettyAt (isPrintable_toJson config) 0
    rw [toJson_eq] at hspells
    have hbytes := ofBytes?_of_spells h (Json.isRearranged_map _) Json.isSpacing_nil hspells
      Json.isSpacing_nil
    rw [save?] at hsave
    cases hc : disk.create? file config.render.toUtf8 with
    | error e => rw [hc] at hsave; exact absurd hsave (by simp)
    | ok made =>
        rw [hc, Except.ok.injEq] at hsave
        rw [hsave] at hc
        refine load?_eq_ok (Disk.read?_of_create? hc hread) ?_
        rw [render, toJson_eq, Json.pretty]
        simpa [resetting] using hbytes
  · intro dropped members before text after disk file hmembers hb hs ha hread
    exact load?_eq_ok hread (ofBytes?_of_spells h hmembers hb hs ha)

/-- Settings in which strings need escapes and the depth is the greatest one. -/
def awkward : Config :=
  { default with
    targetDir := ⟨['"', 'é', '\\']⟩, quality := 65, maxDepth := some maxCount
    extraIgnoredDirs := [['\n', '\x01']], logLevel := .trace }

/-- A record with a member that is no field and with two fields of `awkward`, in another order. -/
def editedText : Text :=
  ("\x7b\"theme\": [null , 1.5e3, \x7b\"\\ud800\":true\x7d],\n\t\"quality\":65,".toList ++
    " \"target_dir\" : \"\\\"é\\\\\"\x7d".toList)

lemma spells_editedText : Spells (.value (.object
    [("theme".toList, .array [.null, .number "1.5e3".toList,
        .object [("\\ud800".toList, .bool true)]]),
      ("quality".toList, Json.ofNat 65),
      ("target_dir".toList, Json.ofText awkward.targetDir.text)])) editedText := by
  have hnil : IsSpacing [] := by decide
  have hspace : IsSpacing [' '] := by decide
  have hlines : IsSpacing ['\n', '\t'] := by decide
  have hnumber : Json.IsNumber "1.5e3".toList :=
    .plain (.mk (.digits (by decide : Json.AreDigits ['1']) (by decide))
      (.point (by decide : Json.AreDigits ['5'])) (.unsigned (Or.inl rfl)
        (by decide : Json.AreDigits ['3'])))
  have hunit : Json.IsWritten "\\ud800".toList := .unit (by decide) .nil
  have hinner := Spells.object (.lastMember (.mk hnil hunit hnil hnil) .boolTrue hnil)
  have hlist := Spells.array (.item hnil .null hspace
    (.item hspace (.number hnumber) hnil (.lastItem hspace hinner hnil)))
  have hname (t : Text) (h : Json.escape t = t) : Json.IsWritten t := h ▸ Json.isWritten_escape t
  have hrecord := Spells.object
    (.member (.mk hnil (hname "theme".toList (by decide)) hnil hspace) hlist hnil
      (.member (.mk hlines (hname "quality".toList (by decide)) hnil hnil)
        (.number (Json.isNumber_ofNat 65)) hnil
        (.lastMember (.mk hspace (hname "target_dir".toList (by decide)) hspace hspace)
          (.string (Json.isWritten_escape awkward.targetDir.text)) hnil)))
  exact hrecord

/-- The fields that `editedText` does not have. -/
def editedAway : List Text :=
  ["dry_run".toList, "delete_originals".toList, "verbose".toList, "max_depth".toList,
   "extra_ignored_dirs".toList, "log_level".toList]

lemma isRearranged_editedText : IsRearranged awkward.fields editedAway
    [("theme".toList, .array [.null, .number "1.5e3".toList,
        .object [("\\ud800".toList, .bool true)]]),
      ("quality".toList, Json.ofNat 65),
      ("target_dir".toList, Json.ofText awkward.targetDir.text)] := by
  refine ⟨[("theme".toList, .array [.null, .number "1.5e3".toList,
    .object [("\\ud800".toList, .bool true)]])], ?_, ?_⟩
  · intro m hm
    rw [List.mem_singleton.mp hm]
    exact ⟨"theme".toList, by decide, by decide⟩
  · exact (List.reverse_perm _).symm

/-- The awkward settings are saved to a new file and loaded from it, and from the edited text only
two of them are loaded. -/
theorem load?_round_trip_of_awkward :
    (∃ disk', awkward.save? ⟨[], []⟩ ⟨['/', 'a']⟩ = .ok disk' ∧
      load? disk' ⟨['/', 'a']⟩ = .ok awkward) ∧
    load? ⟨[([['a']], ⟨.file (Text.toUtf8 ([' '] ++ (editedText ++ []))), .all⟩)], []⟩ ⟨['/', 'a']⟩
      = .ok { default with targetDir := awkward.targetDir, quality := 65 } := by
  have hround := load?_round_trip awkward (by decide)
  have hsave : awkward.save? ⟨[], []⟩ ⟨['/', 'a']⟩
      = .ok ⟨[([['a']], ⟨.file awkward.render.toUtf8, .all⟩)], []⟩ := rfl
  have hnew : Disk.read? ⟨[], []⟩ ⟨['/', 'a']⟩ = .error .notFound := rfl
  have hread : Disk.read?
      ⟨[([['a']], ⟨.file (Text.toUtf8 ([' '] ++ (editedText ++ []))), .all⟩)], []⟩ ⟨['/', 'a']⟩
        = .ok (Text.toUtf8 ([' '] ++ (editedText ++ []))) := rfl
  constructor
  · refine ⟨_, hsave, hround.1 _ _ _ hsave ?_⟩
    intro e he
    rw [hnew] at he
    exact (Except.error.inj he).symm
  · exact hround.2 editedAway _ [' '] editedText [] _ _ isRearranged_editedText (by decide)
      spells_editedText (by decide) hread

end Config

end ImageMigration
