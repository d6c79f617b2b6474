import TidyLines.Proofs.Json.Records
import TidyLines.Proofs.Path.Spelled
import TidyLines.Report.Json
import TidyLines.Violation.Edit

/-!
# Reports that are written and read again

Violations and reports are read back from the JSON that they are written as, and from each of its
texts.  Counters must fit in 64 bits, and paths must be the reading of some spelling
(`Path.IsSpelled`), since nothing else of them is written.
-/

namespace TidyLines

/-! ## Paths and severities -/

theorem Path.IsSpelled.ofJson?_toJson {path : Path} (isSpelled : path.IsSpelled) :
    ofJson? path.toJson = some path := by
  rw [ofJson?, toJson, Json.string?_ofString, Option.map_some, isSpelled.ofString_text]

theorem Severity.ofJson?_toJson (severity : Severity) :
    ofJson? severity.toJson = some severity := by
  cases severity <;> decide

/-! ## Violations -/

/-- A place whose numbers fit in counters of 64 bits. -/
structure Location.IsStorable (location : Location) : Prop where
  file : location.file.IsSpelled
  line : location.line < Json.counterBound
  column : location.column < Json.counterBound
  offset : location.offset < Json.counterBound
  length : location.length < Json.counterBound

theorem Location.IsStorable.ofJson?_toJson {location : Location}
    (storable : location.IsStorable) : ofJson? location.toJson = some location := by
  rw [ofJson?, toJson, Json.fields?_record (by simp)]
  simp [List.lookup_cons, Json.required, storable.file.ofJson?_toJson,
    Json.counter?_ofNat storable.line, Json.counter?_ofNat storable.column,
    Json.counter?_ofNat storable.offset, Json.counter?_ofNat storable.length]

theorem Location.writable_toJson (location : Location) : location.toJson.Writable := by
  apply Json.writable_record
  simp only [List.forall_mem_cons, Json.writable_ofNat]
  exact ⟨.string _, trivial, trivial, trivial, trivial, by simp⟩

theorem Replacement.ofJson?_toJson {replacement : Replacement}
    (storable : replacement.location.IsStorable) :
    ofJson? replacement.toJson = some replacement := by
  rw [ofJson?, toJson, Json.fields?_record (by simp)]
  simp [List.lookup_cons, Json.required, storable.ofJson?_toJson]

theorem Replacement.writable_toJson (replacement : Replacement) :
    replacement.toJson.Writable := by
  apply Json.writable_record
  simp only [List.forall_mem_cons, replacement.location.writable_toJson]
  exact ⟨trivial, .string _, by simp⟩

theorem Suggestion.ofJson?_toJson {suggestion : Suggestion}
    (storable : ∀ replacement ∈ suggestion.replacement, replacement.location.IsStorable) :
    ofJson? suggestion.toJson = some suggestion := by
  have readsReplacement : Json.nullable Replacement.ofJson?
      (suggestion.replacement.map Replacement.toJson) = some suggestion.replacement := by
    refine Json.nullable_map ?_ fun _ _ => Json.noConfusion
    intro replacement present
    exact Replacement.ofJson?_toJson (storable replacement present)
  rw [ofJson?, toJson, Json.fields?_record (by simp)]
  simp [List.lookup_cons, Json.required, Json.nullable_optional, readsReplacement]

theorem Suggestion.writable_toJson (suggestion : Suggestion) : suggestion.toJson.Writable := by
  apply Json.writable_record
  have ofReplacement : (Json.optional (suggestion.replacement.map Replacement.toJson)).Writable :=
    Json.writable_optional fun json present => by
      obtain ⟨replacement, -, rfl⟩ := Option.map_eq_some_iff.mp present
      exact replacement.writable_toJson
  simp only [List.forall_mem_cons, ofReplacement]
  exact ⟨.string _, trivial, by simp⟩

namespace Violation

/-- A violation whose numbers fit in counters of 64 bits. -/
structure IsStorable (violation : Violation) : Prop where
  location : violation.location.IsStorable
  replacement : ∀ replacement ∈ violation.replacement?, replacement.location.IsStorable

/-- The name of the field that may be missing. -/
def suggestionKey : Option Text := some "suggestion".toList

/-- The fields of a violation as they are written. -/
def writtenFields (violation : Violation) : List (String × Json) := [
  ("code", .ofString violation.code),
  ("rule", .ofString violation.rule),
  ("severity", violation.severity.toJson),
  ("location", violation.location.toJson),
  ("message", .ofString violation.message)] ++ violation.suggestionField

theorem toJson_eq_record (violation : Violation) :
    violation.toJson = .record violation.writtenFields := rfl

theorem map_fst_writtenFields (violation : Violation) :
    violation.writtenFields.map Prod.fst = ["code", "rule", "severity", "location", "message"] ++
      if violation.suggestion.isSome then ["suggestion"] else [] := by
  rw [writtenFields, List.map_append, suggestionField]
  cases violation.suggestion <;> rfl

theorem nodup_map_fst_writtenFields (violation : Violation) :
    (violation.writtenFields.map Prod.fst).Nodup := by
  rw [map_fst_writtenFields]
  split <;> decide

theorem lookup_suggestionField (violation : Violation) :
    violation.suggestionField.lookup "suggestion" = violation.suggestion.map Suggestion.toJson := by
  rw [suggestionField]
  split
  next suggestion given => simp [given]
  next missing => simp [missing]

theorem ofJson?_toJson {violation : Violation} (storable : violation.IsStorable) :
    ofJson? violation.toJson = some violation := by
  have readsSuggestion : Json.nullable Suggestion.ofJson?
      (violation.suggestion.map Suggestion.toJson) = some violation.suggestion := by
    refine Json.nullable_map ?_ fun _ _ => Json.noConfusion
    intro suggestion given
    apply Suggestion.ofJson?_toJson
    intro replacement present
    exact storable.replacement replacement (Option.bind_eq_some_iff.mpr ⟨_, given, present⟩)
  rw [ofJson?, toJson_eq_record, Json.fields?_record violation.nodup_map_fst_writtenFields]
  simp [writtenFields, List.lookup_cons, lookup_suggestionField, Json.required,
    Severity.ofJson?_toJson, storable.location.ofJson?_toJson, readsSuggestion]

theorem writable_writtenFields (violation : Violation) :
    ∀ field ∈ violation.writtenFields, field.2.Writable := by
  have ofSuggestion : ∀ field ∈ violation.suggestionField, field.2.Writable := by
    rw [suggestionField]
    split
    next suggestion _ => exact List.forall_mem_singleton.mpr suggestion.writable_toJson
    next => simp
  intro field member
  rcases List.mem_append.mp member with always | optional
  · simp only [List.mem_cons, List.not_mem_nil, or_false] at always
    rcases always with rfl | rfl | rfl | rfl | rfl
    · exact .string _
    · exact .string _
    · exact .string _
    · exact violation.location.writable_toJson
    · exact .string _
  · exact ofSuggestion field optional

theorem writable_toJson (violation : Violation) : violation.toJson.Writable :=
  Json.writable_record violation.writable_writtenFields

/-- A suggestion that is `null` is read like one that is missing. -/
theorem ofJson?_insert_null {before after : List (Option Text × Json)}
    (missing : suggestionKey ∉ (before ++ after).map Prod.fst) :
    ofJson? (.object (before ++ (suggestionKey, .null) :: after)) =
      ofJson? (.object (before ++ after)) := by
  have isNull := Json.field?_insert missing .null
  have isMissing := Json.field?_missing missing
  have others (name : String) (differ : name ≠ "suggestion") :=
    Json.field?_insert_of_ne differ .null before after
  have allNamed : (before ++ (suggestionKey, Json.null) :: after).all (·.1.isSome) =
      (before ++ after).all (·.1.isSome) := by
    simp [suggestionKey]
  rw [suggestionKey] at allNamed ⊢
  rw [ofJson?, ofJson?, Json.fields?, Json.fields?, allNamed]
  simp only [List.mapM_cons, isNull, isMissing, others "code" (by decide),
    others "rule" (by decide), others "severity" (by decide), others "location" (by decide),
    others "message" (by decide)]
  cases (before ++ after).all (·.1.isSome) with
  | false => rfl
  | true =>
      -- A name that comes twice is refused in both objects.
      generalize Json.field? (before ++ after) "code" = code
      generalize Json.field? (before ++ after) "rule" = rule
      generalize Json.field? (before ++ after) "severity" = severity
      generalize Json.field? (before ++ after) "location" = location
      generalize Json.field? (before ++ after) "message" = message
      cases code <;> cases rule <;> cases severity <;> cases location <;> cases message <;> rfl

end Violation

/-! ## Reports -/

/-- A report whose numbers fit in counters of 64 bits. -/
structure LintReport.IsStorable (report : LintReport) : Prop where
  violations : ∀ violation ∈ report.violations, violation.IsStorable
  filesChecked : report.filesChecked < Json.counterBound

theorem LintReport.ofJson?_toJson {report : LintReport} (storable : report.IsStorable) :
    ofJson? report.toJson = some report := by
  have readsViolations : Json.list? Violation.ofJson?
      (.array (report.violations.map Violation.toJson)) = some report.violations :=
    Json.list?_map fun violation member =>
      Violation.ofJson?_toJson (storable.violations violation member)
  rw [ofJson?, toJson, Json.fields?_record (by simp)]
  simp [List.lookup_cons, Json.required, readsViolations, Json.counter?_ofNat storable.filesChecked]

theorem LintReport.writable_toJson (report : LintReport) : report.toJson.Writable := by
  apply Json.writable_record
  simp only [List.forall_mem_cons, Json.writable_ofNat]
  refine ⟨.array ?_, trivial, by simp⟩
  intro json member
  obtain ⟨violation, -, rfl⟩ := List.mem_map.mp member
  exact violation.writable_toJson

/-- A change whose number fits in a counter of 64 bits. -/
structure FileChange.IsStorable (change : FileChange) : Prop where
  file : change.file.IsSpelled
  fixed : change.fixed < Json.counterBound

theorem FileChange.ofJson?_toJson {change : FileChange} (storable : change.IsStorable) :
    ofJson? change.toJson = some change := by
  rw [ofJson?, toJson, Json.fields?_record (by simp)]
  simp [List.lookup_cons, Json.required, storable.file.ofJson?_toJson,
    Json.counter?_ofNat storable.fixed]

theorem FileChange.writable_toJson (change : FileChange) : change.toJson.Writable := by
  apply Json.writable_record
  simp only [List.forall_mem_cons, Json.writable_ofNat]
  exact ⟨.string _, trivial, by simp⟩

/-- A report whose numbers fit in counters of 64 bits. -/
structure FormatReport.IsStorable (report : FormatReport) : Prop where
  changed : ∀ change ∈ report.changed, change.IsStorable
  filesChecked : report.filesChecked < Json.counterBound

theorem FormatReport.ofJson?_toJson {report : FormatReport} (storable : report.IsStorable) :
    ofJson? report.toJson = some report := by
  have readsChanges : Json.list? FileChange.ofJson?
      (.array (report.changed.map FileChange.toJson)) = some report.changed :=
    Json.list?_map fun change member =>
      FileChange.ofJson?_toJson (storable.changed change member)
  rw [ofJson?, toJson, Json.fields?_record (by simp)]
  simp [List.lookup_cons, Json.required, readsChanges, Json.counter?_ofNat storable.filesChecked]

theorem FormatReport.writable_toJson (report : FormatReport) : report.toJson.Writable := by
  apply Json.writable_record
  simp only [List.forall_mem_cons, Json.writable_ofNat]
  refine ⟨.array ?_, trivial, by simp⟩
  intro json member
  obtain ⟨change, -, rfl⟩ := List.mem_map.mp member
  exact change.writable_toJson

/-! ## Texts -/

namespace Report

/-- A value that is read back from what is written is read back from each text of it. -/
theorem bind_parse?_text {Value : Type} {write : Value → Json} {read : Json → Option Value}
    {value : Value} (writable : (write value).Writable) (reads : read (write value) = some value)
    (layout : Json.Layout) :
    (Json.parse? (layout.text (write value))).bind read = some value := by
  rw [writable.parse?_text layout, Option.bind_some, reads]

/-- Violations and reports are read back from their texts in both layouts.  The text of a violation
has a suggestion exactly when the violation has one, and texts of violations in which it is missing
and in which it is `null` are read alike. -/
theorem encodings_read_back (layout : Json.Layout) :
    (∀ violation : Violation, violation.IsStorable →
      (Json.parse? (layout.text violation.toJson)).bind Violation.ofJson? = some violation) ∧
    (∀ report : LintReport, report.IsStorable →
      (Json.parse? (layout.text report.toJson)).bind LintReport.ofJson? = some report) ∧
    (∀ report : FormatReport, report.IsStorable →
      (Json.parse? (layout.text report.toJson)).bind FormatReport.ofJson? = some report) ∧
    (∀ violation : Violation, ∃ members,
      Json.parse? (layout.text violation.toJson) = some (.object members) ∧
        (Violation.suggestionKey ∉ members.map Prod.fst ↔ violation.suggestion = none)) ∧
    ∀ (missing null : Text) (before after : List (Option Text × Json)),
      Json.parse? missing = some (.object (before ++ after)) →
      Violation.suggestionKey ∉ (before ++ after).map Prod.fst →
      Json.parse? null = some (.object (before ++ (Violation.suggestionKey, .null) :: after)) →
        (Json.parse? missing).bind Violation.ofJson? =
          (Json.parse? null).bind Violation.ofJson? := by
  refine ⟨?_, ?_, ?_, ?_, ?_⟩
  · intro violation storable
    exact bind_parse?_text violation.writable_toJson (Violation.ofJson?_toJson storable) layout
  · intro report storable
    exact bind_parse?_text report.writable_toJson (LintReport.ofJson?_toJson storable) layout
  · intro report storable
    exact bind_parse?_text report.writable_toJson (FormatReport.ofJson?_toJson storable) layout
  · intro violation
    refine ⟨Json.membersOf violation.writtenFields,
      violation.writable_toJson.parse?_text layout, ?_⟩
    rw [Violation.suggestionKey, Json.mem_map_fst_membersOf, violation.map_fst_writtenFields]
    cases violation.suggestion <;> simp
  · intro missing null before after parsedMissing isMissing parsedNull
    rw [parsedMissing, parsedNull, Option.bind_some, Option.bind_some,
      Violation.ofJson?_insert_null isMissing]

/-- A violation without a suggestion, with characters that are written in escapes and the largest
number. -/
def escapedViolation : Violation where
  code := "\"\\/"
  rule := "\x01\n"
  severity := .info
  location := ⟨.ofString "a//é 😀", 1, 0xFFFFFFFFFFFFFFFF, 0, 0⟩
  message := ""

/-- The same violation with advice, and with a replacement if there is one. -/
def advisedViolation (replacement : Option Replacement) : Violation :=
  { escapedViolation with suggestion := some ⟨"null", replacement⟩ }

theorem isStorable_escapedViolation : escapedViolation.IsStorable where
  location := ⟨⟨_, rfl⟩, by decide, by decide, by decide, by decide⟩
  replacement _ := by rintro ⟨⟩

theorem isStorable_advisedViolation : (advisedViolation none).IsStorable where
  location := isStorable_escapedViolation.location
  replacement _ := by rintro ⟨⟩

theorem isStorable_mendableViolation :
    (advisedViolation (some ⟨escapedViolation.location, "\t"⟩)).IsStorable where
  location := isStorable_escapedViolation.location
  replacement := by
    rintro _ ⟨⟩
    exact isStorable_escapedViolation.location

theorem encodings_read_back_sample :
    let found : LintReport := ⟨[escapedViolation, advisedViolation none,
      advisedViolation (some ⟨escapedViolation.location, "\t"⟩)], 2⟩
    let changed : FormatReport := ⟨[⟨.ofString "b", 3⟩], 2⟩
    let withNull := Json.record (escapedViolation.writtenFields ++ [("suggestion", .null)])
    found.IsStorable ∧ changed.IsStorable ∧
      (Json.parse? escapedViolation.toJson.compact).bind Violation.ofJson? =
        some escapedViolation ∧
      (Json.parse? found.toJson.compact).bind LintReport.ofJson? = some found ∧
      (Json.parse? changed.toJson.compact).bind FormatReport.ofJson? = some changed ∧
      (Json.parse? escapedViolation.toJson.compact).bind Violation.ofJson? =
        (Json.parse? withNull.indented).bind Violation.ofJson? := by
  intro found changed withNull
  have foundStorable : found.IsStorable := by
    refine ⟨?_, by decide⟩
    simp only [found, List.forall_mem_cons, isStorable_escapedViolation,
      isStorable_advisedViolation, isStorable_mendableViolation]
    exact ⟨trivial, trivial, trivial, by simp⟩
  have changedStorable : changed.IsStorable := by
    refine ⟨?_, by decide⟩
    exact List.forall_mem_singleton.mpr ⟨⟨_, rfl⟩, by decide⟩
  have withNullWritable : withNull.Writable := by
    refine Json.writable_record fun field member => ?_
    rcases List.mem_append.mp member with own | isNull
    · exact escapedViolation.writable_writtenFields field own
    · obtain rfl := List.mem_singleton.mp isNull
      exact .null
  obtain ⟨ofViolation, ofFound, ofChanged, -, ofNull⟩ := encodings_read_back .compact
  refine ⟨foundStorable, changedStorable, ofViolation _ isStorable_escapedViolation,
    ofFound _ foundStorable, ofChanged _ changedStorable, ?_⟩
  exact ofNull _ _ (Json.membersOf escapedViolation.writtenFields) []
    (escapedViolation.writable_toJson.parse?_text .compact) (by decide)
    (withNullWritable.parse?_text .indented)

end Report

end TidyLines
