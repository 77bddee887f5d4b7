/-
Summaries that are printed and read again.

A summary is a record, and so is the decision on the cleanup in it. In both of them the members may
stand in any order and among others; the name of the decision may come before its counts or after
them. But every field has to be there, and no field may come twice.

* `Summary.IsSized`: the counts of a summary fit into the words that hold them;
* `CleanupDecision.Tells`, `Summary.IsArranged`: the records that tell a decision and a summary;
* `CleanupDecision.IsFlawed`, `Summary.IsFlawed`: records in which a field is missing or comes twice;
* `Summary.read?_round_trip`: **the first ones are read back, and the others are not.**
-/
import ImageMigration.Proofs.Json.Held
import ImageMigration.Proofs.Json.Rearranged
import ImageMigration.Summary.Document

namespace ImageMigration

open Json (IsRearranged IsSpacing Once Spells)

/-! ### Decisions -/

namespace CleanupDecision

/-- The counts of a decision fit into the words that hold them. -/
def IsSized : CleanupDecision → Prop
  | blocked unparseable unwritten unedited =>
    unparseable ≤ maxCount ∧ unwritten ≤ maxCount ∧ unedited ≤ maxCount
  | _ => True

/-- The counts of a blocked cleanup with their names. -/
def countFields : CleanupDecision → List (Text × Json)
  | blocked unparseable unwritten unedited =>
    countNames.zip [Json.ofNat unparseable, Json.ofNat unwritten, Json.ofNat unedited]
  | _ => []

/-- The fields of the record of a decision. -/
def fields (d : CleanupDecision) : List (Text × Json) :=
  (statusName, Json.ofText d.status) :: d.countFields

/-- A record tells a decision: its fields stand in any order, and among others whose values can be
kept until the name of the decision is found. -/
inductive Tells (d : CleanupDecision) : Json → Prop
  | record {members : List (Text × Json)} (h : IsRearranged d.fields [] members)
      (hheld : ∀ m ∈ members, Json.isHeld maxLevels m.2 = true) : Tells d (.object members)

/-- In the record of a decision, the name of the decision is missing or comes twice, or a count of a
blocked cleanup does. -/
inductive IsFlawed : Json → Prop
  | status {members : List (Text × Json)} (h : ¬ Once members statusName) :
      IsFlawed (.object members)
  | count {members : List (Text × Json)} {name status written : Text} (hcount : name ∈ countNames)
      (hstatus : (status, .string written) ∈ members)
      (hname : Json.unescape? status = some statusName)
      (hblocked : Json.unescape? written = some "blocked".toList) (h : ¬ Once members name) :
      IsFlawed (.object members)

variable {d : CleanupDecision} {j : Json}

lemma toJson_eq (d : CleanupDecision) :
    d.toJson = .object (d.fields.map fun field => (Json.escape field.1, field.2)) := by
  cases d <;> rfl

/-- The fields of a decision can be kept. -/
lemma isHeld_fields (h : d.IsSized) :
    ∀ field ∈ d.fields, Json.isHeld maxLevels field.2 = true := by
  have hcount : ∀ n ≤ maxCount, Json.isHeld maxLevels (Json.ofNat n) = true := fun n hn =>
    Json.isHeld_ofNat _ (Nat.lt_of_le_of_lt hn (by decide))
  cases d with
  | notRequested | dryRun | allowed => simp [fields, countFields, Json.isHeld_ofText]
  | blocked unparseable unwritten unedited =>
      rw [IsSized] at h
      simp [fields, countFields, countNames, Json.isHeld_ofText, hcount _ h.1, hcount _ h.2.1,
        hcount _ h.2.2]

lemma tells_toJson (h : d.IsSized) : d.Tells d.toJson := by
  rw [toJson_eq]
  refine .record (Json.isRearranged_map _) fun m hm => ?_
  obtain ⟨field, hfield, rfl⟩ := List.mem_map.mp hm
  exact isHeld_fields h field hfield

lemma map_fst_fields (d : CleanupDecision) :
    d.fields.map Prod.fst = statusName :: d.countFields.map Prod.fst := rfl

lemma map_fst_countFields (unparseable unwritten unedited : Nat) :
    (blocked unparseable unwritten unedited).countFields.map Prod.fst = countNames := rfl

lemma map_snd_countFields (unparseable unwritten unedited : Nat) :
    (blocked unparseable unwritten unedited).countFields.map (fun field => some field.2)
      = [some (Json.ofNat unparseable), some (Json.ofNat unwritten),
        some (Json.ofNat unedited)] := rfl

lemma nodup_fields (d : CleanupDecision) : (d.fields.map Prod.fst).Nodup := by
  rw [map_fst_fields]
  cases d with
  | notRequested | dryRun | allowed => exact show [statusName].Nodup by decide
  | blocked unparseable unwritten unedited =>
      exact show (statusName :: countNames).Nodup by decide

/-- **A decision is read** from any record that tells it. -/
lemma ofJson?_of_tells (hsized : d.IsSized) (h : d.Tells j) : ofJson? j = some d := by
  obtain @⟨members, hmembers, hheld⟩ := h
  have hkept : Json.membersHeld maxLevels members = true :=
    Json.membersHeld_iff.mpr fun m hm => ⟨hmembers.isSome m hm, hheld m hm⟩
  have hfields := Json.fields?_of_isRearranged d.nodup_fields hmembers
  simp only [List.not_mem_nil, if_false] at hfields
  rw [map_fst_fields, fields, List.map_cons] at hfields
  obtain ⟨named, hnamed, hstatus, hcounts⟩ := Json.exists_single?_of_fields? hfields
  have hofStatus : ofJson? (.object members) = ofStatus? d.status (.object members) := by
    rw [ofJson?, if_pos hkept, hnamed, Option.bind_eq_bind, Option.bind_some, hstatus]
    simp [Json.asText?_ofText]
  rw [hofStatus]
  cases d with
  | notRequested | dryRun | allowed =>
      rw [ofStatus?, if_neg (by decide), if_neg (by simp [isPlain])]
      decide
  | blocked unparseable unwritten unedited =>
      rw [IsSized] at hsized
      rw [map_fst_countFields, map_snd_countFields] at hcounts
      rw [show ofStatus? (blocked unparseable unwritten unedited).status (.object members)
        = blockedOfJson? (.object members) from if_pos rfl, blockedOfJson?, hcounts]
      have hcount : ∀ n ≤ maxCount, countOfJson? (Json.ofNat n) = some n :=
        fun n hn => Json.asNat?_ofNat hn
      simp only [hcount _ hsized.1, hcount _ hsized.2.1, hcount _ hsized.2.2]
      rfl

/-- **A flawed record is refused.** -/
lemma ofJson?_eq_none_of_isFlawed (h : IsFlawed j) : ofJson? j = none := by
  by_contra hread
  obtain ⟨d, hread⟩ := Option.ne_none_iff_exists'.mp hread
  have hstatus : ∀ members, j = .object members → ∃ found status, Once members statusName ∧
      (∀ m ∈ members, Json.unescape? m.1 = some statusName → m.2 = found) ∧
      found.asText? = some status ∧ ofStatus? status (.object members) = some d := by
    rintro members rfl
    rw [ofJson?, Option.ite_none_right_eq_some] at hread
    simp only [Option.bind_eq_bind, Option.bind_eq_some_iff] at hread
    obtain ⟨-, named, hnamed, field, hfield, found, rfl, status, hstatus, hd⟩ := hread
    obtain ⟨honce, hvalue⟩ := Json.once_of_single? hnamed hfield
    exact ⟨found, status, honce, hvalue, hstatus, hd⟩
  cases h with
  | status h =>
      obtain ⟨-, -, honce, -⟩ := hstatus _ rfl
      exact h honce
  | @count members name status written hcount hmem hname hblocked h =>
      obtain ⟨found, status', -, hvalue, hstatus', hd⟩ := hstatus _ rfl
      rw [← hvalue _ hmem hname, Json.asText?, hblocked, Option.some.injEq] at hstatus'
      rw [← hstatus', ofStatus?, if_pos rfl, blockedOfJson?] at hd
      split at hd
      · next unparseable unwritten unedited hfound =>
        have hall := Json.once_of_fields?
          (show Json.fields? countNames (.object members)
            = some ([unparseable, unwritten, unedited].map some) from hfound)
        exact h (hall.1 name hcount)
      · exact absurd hd (by simp)

end CleanupDecision

/-! ### Summaries -/

namespace Summary

/-- The counts of a summary fit into the words that hold them. -/
structure IsSized (s : Summary) : Prop where
  counts : ∀ n ∈ [s.imagesFound, s.codeFilesFound, s.usedImages, s.converted, s.bytesSaved,
    s.updatedFiles, s.deletedReplaced, s.deletedUnused], n ≤ maxCount
  cleanup : s.cleanup.IsSized

/-- The name of the field of the decision. -/
def cleanupName : Text := "cleanup".toList

/-- The fields of the record of a summary, with any record of the decision. -/
def fields (s : Summary) (cleanup : Json) : List (Text × Json) :=
  (fieldNames.zip s.fieldValues).map fun field =>
    (field.1, if field.1 = cleanupName then cleanup else field.2)

/-- The members of an object tell a summary: its fields stand in any order, and among others, with
any record that tells its decision. -/
inductive IsArranged (s : Summary) (members : List (Text × Json)) : Prop
  | record {cleanup : Json} (hcleanup : s.cleanup.Tells cleanup)
      (h : IsRearranged (s.fields cleanup) [] members)

/-- In the record of a summary a field is missing or comes twice, or the record of the decision is
flawed. -/
inductive IsFlawed (members : List (Text × Json)) : Prop
  | field {name : Text} (hname : name ∈ fieldNames) (h : ¬ Once members name)
  | cleanup {m : Text × Json} (hmem : m ∈ members) (hname : Json.unescape? m.1 = some cleanupName)
      (h : CleanupDecision.IsFlawed m.2)

variable {s : Summary} {members : List (Text × Json)} {cleanup : Json}

lemma map_fst_fields (s : Summary) (cleanup : Json) :
    (s.fields cleanup).map Prod.fst = fieldNames := rfl

lemma map_snd_fields (s : Summary) (cleanup : Json) :
    (s.fields cleanup).map (fun field => some field.2) =
      [Json.ofNat s.imagesFound, Json.ofNat s.codeFilesFound, Json.ofNat s.usedImages,
       pathsToJson s.unusedImages, Json.ofNat s.converted, Json.ofNat s.bytesSaved,
       Json.ofNat s.updatedFiles, textsToJson s.warnings, textsToJson s.conversionErrors,
       pathsToJson s.trackerParseFailures, pathsToJson s.codemodParseFailures,
       pathsToJson s.codemodWriteFailures, pathsToJson s.codemodUneditedFiles, cleanup,
       Json.ofNat s.deletedReplaced, Json.ofNat s.deletedUnused].map some := rfl

lemma pathsOfJson?_pathsToJson (paths : List Path) :
    pathsOfJson? (pathsToJson paths) = some paths := by
  have htexts : (pathsToJson paths).asList? Json.asText? = some (paths.map Path.text) := by
    rw [← Json.asList?_ofList fun t _ => Json.asText?_ofText t, pathsToJson, Json.ofList,
      Json.ofList, List.map_map]
    rfl
  rw [pathsOfJson?, htexts, Option.map_some, List.map_map]
  simp [Function.comp_def]

lemma asList?_textsToJson (texts : List Text) :
    (textsToJson texts).asList? Json.asText? = some texts :=
  Json.asList?_ofList fun t _ => Json.asText?_ofText t

/-- A list of values, each of which is there. -/
lemma mapM_id_map_some (values : List Json) : (values.map some).mapM id = some values := by
  induction values with
  | nil => rfl
  | cons value values ih => simp [ih]

/-- **A summary is read** from any record that tells it. -/
lemma ofJson?_of_isArranged (hsized : s.IsSized) (h : s.IsArranged members) :
    ofJson? (.object members) = some s := by
  obtain ⟨hcleanup, hmembers⟩ := h
  rename_i cleanup
  have hfields := Json.fields?_of_isRearranged (by rw [map_fst_fields]; decide) hmembers
  simp only [List.not_mem_nil, if_false] at hfields
  rw [map_fst_fields, map_snd_fields] at hfields
  rw [ofJson?, hfields, Option.bind_eq_bind, Option.bind_some, mapM_id_map_some,
    Option.bind_eq_bind, Option.bind_some]
  have hcount : ∀ n ∈ [s.imagesFound, s.codeFilesFound, s.usedImages, s.converted, s.bytesSaved,
      s.updatedFiles, s.deletedReplaced, s.deletedUnused], countOfJson? (Json.ofNat n) = some n :=
    fun n hn => Json.asNat?_ofNat (hsized.counts n hn)
  simp only [List.forall_mem_cons] at hcount
  -- No field depends on another one, so that all of them are read before a bind is opened.
  simp only [ofFields?, hcount, pathsOfJson?_pathsToJson, asList?_textsToJson,
    CleanupDecision.ofJson?_of_tells hsized.cleanup hcleanup]
  rfl

/-- All of the values are there where they are listed. -/
lemma eq_map_some_of_mapM_id {found : List (Option Json)} {values : List Json}
    (h : found.mapM id = some values) : found = values.map some := by
  induction found generalizing values with
  | nil =>
      rw [List.mapM_nil, Option.pure_def, Option.some.injEq] at h
      rw [← h]
      rfl
  | cons field found ih =>
      rw [List.mapM_cons] at h
      simp only [id, Option.bind_eq_bind, Option.bind_eq_some_iff, Option.pure_def,
        Option.some.injEq] at h
      obtain ⟨value, hvalue, rest, hrest, rfl⟩ := h
      rw [hvalue, ih hrest]
      rfl

/-- **A flawed record is refused.** -/
lemma ofJson?_eq_none_of_isFlawed (h : IsFlawed members) : ofJson? (.object members) = none := by
  by_contra hread
  obtain ⟨s, hread⟩ := Option.ne_none_iff_exists'.mp hread
  rw [ofJson?] at hread
  simp only [Option.bind_eq_bind, Option.bind_eq_some_iff] at hread
  obtain ⟨found, hfound, values, hvalues, hread⟩ := hread
  rw [eq_map_some_of_mapM_id hvalues] at hfound
  obtain ⟨honce, hmembers⟩ := Json.once_of_fields? hfound
  cases h with
  | field hname h => exact h (honce _ hname)
  | @cleanup m hmem hname h =>
      unfold ofFields? at hread
      split at hread
      · simp only [fieldNames, List.forall₂_cons] at hmembers
        obtain ⟨-, -, -, -, -, -, -, -, -, -, -, -, -, hcleanup, -⟩ := hmembers
        rw [← hcleanup m hmem hname, CleanupDecision.ofJson?_eq_none_of_isFlawed h] at hread
        simp at hread
      · exact absurd hread (by simp)

/-! ### Documents -/

lemma isPrintable_cleanup (d : CleanupDecision) : ∀ field ∈ d.fields, field.2.IsPrintable := by
  cases d <;>
    simp [CleanupDecision.fields, CleanupDecision.countFields, CleanupDecision.countNames,
      Json.isPrintable_ofText, Json.isPrintable_ofNat]

lemma isPrintable_fields (s : Summary) (h : cleanup.IsPrintable) :
    ∀ field ∈ s.fields cleanup, field.2.IsPrintable := by
  have hpaths : ∀ paths, (pathsToJson paths).IsPrintable :=
    Json.isPrintable_ofList fun p => Json.isPrintable_ofText p.text
  have htexts : ∀ texts, (textsToJson texts).IsPrintable :=
    Json.isPrintable_ofList Json.isPrintable_ofText
  have hvalues : ∀ j ∈ (s.fields cleanup).map (fun field => some field.2),
      ∀ value ∈ j, value.IsPrintable := by
    rw [map_snd_fields]
    simp [Json.isPrintable_ofNat, hpaths, htexts, h]
  exact fun field hfield => hvalues _ (List.mem_map_of_mem hfield) _ rfl

lemma toJson_eq (s : Summary) :
    s.toJson = .object ((s.fields s.cleanup.toJson).map fun field =>
      (Json.escape field.1, field.2)) := rfl

lemma read?_eq {before text after : Text} (hb : IsSpacing before)
    (hs : Spells (.value (.object members)) text) (ha : IsSpacing after) :
    read? (before ++ (text ++ after)) = ofJson? (.object members) := by
  rw [read?, Json.read?_of_spells hb hs ha, Option.bind_some]

/-- **Summaries are read back.** What is printed for a summary is read as the summary. So is every
text that spells an object with its fields, in any order and among members with other names, where
this holds for the record of the decision, too. And no text is read that spells an object in which a
field is missing or comes twice, be it one of the decision. -/
theorem read?_round_trip (s : Summary) (h : s.IsSized) :
    read? s.render = some s ∧
    ∀ members before text after, IsSpacing before → Spells (.value (.object members)) text →
      IsSpacing after →
      (s.IsArranged members → read? (before ++ (text ++ after)) = some s) ∧
      (IsFlawed members → read? (before ++ (text ++ after)) = none) := by
  refine ⟨?_, fun members before text after hb hs ha => ⟨fun hmembers => ?_, fun hflawed => ?_⟩⟩
  · have hcleanup : s.cleanup.toJson.IsPrintable := by
      rw [CleanupDecision.toJson_eq]
      exact Json.isPrintable_record (isPrintable_cleanup s.cleanup)
    have hprinted := Json.read?_pretty (Json.isPrintable_record (s.isPrintable_fields hcleanup))
    rw [read?, render, toJson_eq, hprinted, Option.bind_some]
    exact ofJson?_of_isArranged h
      (.record (CleanupDecision.tells_toJson h.cleanup) (Json.isRearranged_map _))
  · rw [read?_eq hb hs ha, ofJson?_of_isArranged h hmembers]
  · rw [read?_eq hb hs ha, ofJson?_eq_none_of_isFlawed hflawed]

/-! ### A summary with its members moved -/

/-- The fields of a record with the first one moved to the end, and another member in front of it. -/
def moved (fields : List (Text × Json)) (name : Text) (j : Json) : List (Text × Json) :=
  fields.drop 1 ++ (name, j) :: fields.take 1

section Moved

variable {recordFields : List (Text × Json)} {name : Text} {j : Json}

lemma perm_moved (recordFields : List (Text × Json)) (name : Text) (j : Json) :
    (moved recordFields name j).Perm (recordFields ++ [(name, j)]) := by
  have hall : (recordFields.drop 1 ++ recordFields.take 1).Perm recordFields := by
    have hcomm := @List.perm_append_comm _ (recordFields.drop 1) (recordFields.take 1)
    rwa [List.take_append_drop] at hcomm
  rw [moved]
  refine List.Perm.trans List.perm_middle ?_
  exact (hall.cons _).trans (List.perm_append_singleton _ _).symm

lemma isRearranged_moved (h : name ∉ recordFields.map Prod.fst) :
    IsRearranged recordFields [] ((moved recordFields name j).map fun field =>
      (Json.escape field.1, field.2)) := by
  refine ⟨[(Json.escape name, j)], fun m hm => ?_, ?_⟩
  · rw [List.mem_singleton.mp hm]
    exact ⟨name, Json.unescape?_escape name, h⟩
  · have hperm := (perm_moved recordFields name j).map fun field => (Json.escape field.1, field.2)
    simpa using hperm

lemma isPrintable_moved (h : ∀ field ∈ recordFields, field.2.IsPrintable) (hj : j.IsPrintable) :
    (Json.object ((moved recordFields name j).map fun field =>
      (Json.escape field.1, field.2))).IsPrintable := by
  refine Json.isPrintable_record fun field hfield => ?_
  rcases List.mem_append.mp ((perm_moved recordFields name j).mem_iff.mp hfield) with hold | hnew
  · exact h field hold
  · rw [List.mem_singleton.mp hnew]
    exact hj

end Moved

/-- A summary of a blocked cleanup in which strings need escapes and a count is the greatest one. -/
def awkward : Summary :=
  { imagesFound := 3, codeFilesFound := 1, usedImages := 2
    unusedImages := [⟨['/', '"', 'é', '\\']⟩], converted := 2, bytesSaved := maxCount
    updatedFiles := 0, warnings := [['\n', '\x01']], conversionErrors := []
    trackerParseFailures := [], codemodParseFailures := [⟨"src/a.ts".toList⟩]
    codemodWriteFailures := [], codemodUneditedFiles := [], cleanup := .blocked 1 0 2
    deletedReplaced := 0, deletedUnused := 0 }

/-- The awkward summary is read as it is printed, and with the name of its decision behind the
counts and with other members; among those of the summary is half of a surrogate pair. With a second
list of warnings it is not read. -/
theorem read?_round_trip_of_awkward :
    let cleanup : Json := .object ((moved awkward.cleanup.fields "why".toList
      (.array [.number "2".toList])).map fun field => (Json.escape field.1, field.2))
    let arranged := (moved (awkward.fields cleanup) "note".toList (.string "\\ud800".toList)).map
      fun field => (Json.escape field.1, field.2)
    read? awkward.render = some awkward ∧
      read? (Json.object arranged).pretty = some awkward ∧
      read? (Json.object (("warnings".toList, .array []) :: arranged)).pretty = none := by
  intro cleanup arranged
  have hsized : awkward.IsSized := ⟨by decide, show _ ∧ _ ∧ _ by decide⟩
  obtain ⟨hprinted, hround⟩ := read?_round_trip awkward hsized
  have hcleanup : cleanup.IsPrintable :=
    isPrintable_moved (isPrintable_cleanup _)
      (.array fun j hj => by rw [List.mem_singleton.mp hj]; exact Json.isPrintable_ofNat 2)
  have hprintable : (Json.object arranged).IsPrintable :=
    isPrintable_moved (isPrintable_fields _ hcleanup) (.string (.unit (by decide) .nil))
  have htells : awkward.cleanup.Tells cleanup :=
    .record (isRearranged_moved (by decide)) (by decide +kernel)
  have harranged : awkward.IsArranged arranged :=
    .record htells (isRearranged_moved (by rw [map_fst_fields]; decide))
  have hflawed : IsFlawed (("warnings".toList, .array []) :: arranged) := by
    refine @IsFlawed.field _ "warnings".toList (by decide) ?_
    rw [Once]
    decide +kernel
  have hdoubled : (Json.object (("warnings".toList, .array []) :: arranged)).IsPrintable := by
    cases hprintable with
    | object hnames hvalues =>
        have hname : Json.IsWritten "warnings".toList := Json.isWritten_escape "warnings".toList
        have hnone : (Json.array []).IsPrintable := .array (by simp)
        exact .object (List.forall_mem_cons.mpr ⟨hname, hnames⟩)
          (List.forall_mem_cons.mpr ⟨hnone, hvalues⟩)
  have hspelled : ∀ members, (Json.object members).IsPrintable →
      (awkward.IsArranged members → read? (Json.object members).pretty = some awkward) ∧
      (IsFlawed members → read? (Json.object members).pretty = none) := by
    intro members hmembers
    have hall := hround members [] _ [] Json.isSpacing_nil (Json.spells_prettyAt hmembers 0)
      Json.isSpacing_nil
    rwa [List.nil_append, List.append_nil] at hall
  exact ⟨hprinted, (hspelled _ hprintable).1 harranged, (hspelled _ hdoubled).2 hflawed⟩

end Summary

end ImageMigration
