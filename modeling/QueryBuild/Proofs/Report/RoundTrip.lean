import QueryBuild.Proofs.Json.Decoding
import QueryBuild.ReportText
/-!
# Reports and their text

A report is read back from its text: whatever stands in its texts, whichever of the facts of a
diagnostic are absent, and however the text is laid out. The same holds of diagnostics and records
by themselves, and of units.
-/

namespace QueryBuild

open Json (Layout Reads Fits)

namespace Json

variable {l : Layout} {d : Decoder}

theorem reads_string (l : Layout) (s : String) : Reads l Decoder.string (.str s) :=
  reads_text l _ s

theorem reads_count (l : Layout) {n : Nat} (h : n < Nat.pow 2 64) :
    Reads l Decoder.count (.num n) := by
  have hn : n ≤ Nat.pow 2 64 - 1 := Nat.le_pred_of_lt h
  exact reads_counter l hn (Nat.le_refl _) _

theorem reads_short (l : Layout) {n : Nat} (h : n < Nat.pow 2 32) :
    Reads l Decoder.short (.num n) := by
  have hn : n ≤ Nat.pow 2 32 - 1 := Nat.le_pred_of_lt h
  exact reads_counter l hn (by decide) _

theorem reads_strings (l : Layout) (items : List String) :
    Reads l (Decoder.list Decoder.string) (Json.strings items) := by
  apply reads_list
  intro x hx
  obtain ⟨s, -, rfl⟩ := List.mem_map.mp hx
  exact reads_string l s

theorem map_asText_strings (items : List String) :
    (Json.strings items).asList.map asText = items := by
  rw [Json.strings, asList, List.map_map]
  exact List.map_id _

theorem Fits.ofOption {α : Type} {field : Field} {fields : List Field}
    {fs : List (String × Json)} {value : α → Json} (o : Option α)
    (hpresence : field.presence ≠ .required) (hvalue : ∀ x, Reads l field.decoder (value x))
    (hrest : Fits l fields fs) :
    Fits l (field :: fields) ((o.map fun x => (field.name, value x)).toList ++ fs) := by
  cases o with
  | none => exact .omitted hpresence hrest
  | some x => exact .written (hvalue x) hrest

/-- What is read from the text of a value is what the value was made from. -/
theorem ofText_text_eq {α : Type} {x : α} {toJson : α → Json} {ofJson : Json → α}
    (hreads : ∀ l, Reads l d (toJson x)) (hvalue : ofJson (toJson x) = x) (l : Layout) :
    (decode d (toJson x).text).map ofJson = .ok x ∧
      (decode d (l.text (toJson x))).map ofJson = .ok x := by
  have hlayout (l : Layout) : (decode d (l.text (toJson x))).map ofJson = .ok x := by
    rw [decode_text (hreads l), Except.map, hvalue]
  rw [text_eq_pretty]
  exact ⟨hlayout .pretty, hlayout l⟩

end Json

open Json

variable (l : Layout)

/-! ### Units and records -/

theorem BuildUnit.reads (u : BuildUnit) : Reads l decoder u.toJson := by
  refine Fits.reads ?_ (by decide) _
  exact .written (reads_string l _) (.written (reads_text l _ _) (.written (reads_text l _ _) .nil))

theorem BuildUnit.ofJson_toJson (u : BuildUnit) : ofJson u.toJson = u :=
  rfl

theorem UnitRecord.reads (r : UnitRecord) : Reads l decoder r.toJson := by
  have haction : Reads l (.choice (UnitAction.all.map UnitAction.key)) (.str r.action.key) := by
    apply reads_choice
    cases r.action <;> decide
  have hdigest : Fits l [⟨"source_sha256", .optional, .orNull .string⟩]
      ((r.sourceSha256.map fun digest => ("source_sha256", Json.str digest)).toList ++ []) :=
    .ofOption r.sourceSha256 (by decide)
      (fun digest => (reads_string l digest).orNull (by simp)) .nil
  rw [List.append_nil] at hdigest
  exact Fits.reads (.written (reads_string l _) (.written haction hdigest)) (by decide) _

theorem UnitRecord.ofJson_toJson (r : UnitRecord) : ofJson r.toJson = r := by
  obtain ⟨name, action, digest⟩ := r
  have haction : (UnitAction.ofKey? action.key).getD default = action := by
    rw [UnitAction.ofKey?_key, Option.getD_some]
  cases digest with
  | none => exact congrArg (UnitRecord.mk name · none) haction
  | some digest => exact congrArg (UnitRecord.mk name · (some digest)) haction

/-! ### Diagnostics -/

namespace Diagnostic

theorem reads_location (l : Layout) (location : Option String) :
    Reads l (.orNull locationDecoder) (match location with
      | none => .null
      | some file => .obj [("file", .str file)]) := by
  cases location with
  | none => exact reads_null l _
  | some file =>
    have hfile : Reads l locationDecoder (.obj [("file", .str file)]) :=
      Fits.reads (.written (reads_string l file) .nil) (by decide) _
    exact hfile.orNull (by simp)

theorem reads (d : Diagnostic) : Reads l decoder d.toJson := by
  have hcode : Reads l (.choice (Code.all.map Code.text)) (.str d.code.text) := by
    apply reads_choice
    cases d.code <;> decide
  have hseverity : Reads l (.choice (Severity.all.map Severity.text)) (.str d.severity.text) := by
    apply reads_choice
    cases d.severity <;> decide
  have hoptional (s : String) : Reads l (.orNull .string) (.str s) :=
    (reads_string l s).orNull (by simp)
  simp only [toJson, List.append_assoc, List.cons_append, List.nil_append]
  refine Fits.reads ?_ (by decide) _
  refine .written hcode (.written hseverity (.written (reads_string l d.message) ?_))
  refine .ofOption d.unit (by decide) hoptional (.written (reads_location l d.location) ?_)
  exact .ofOption d.detail (by decide) hoptional (.written (reads_strings l d.impact) .nil)

theorem ofJson_toJson (d : Diagnostic) : ofJson d.toJson = d := by
  obtain ⟨code, severity, message, unit, location, detail, impact⟩ := d
  have hcode : (Code.ofText? code.text).getD default = code := by
    rw [Code.ofText?_text, Option.getD_some]
  have hseverity : (Severity.ofText? severity.text).getD default = severity := by
    rw [Severity.ofText?_text, Option.getD_some]
  have himpact := map_asText_strings impact
  cases unit <;> cases location <;> cases detail
  all_goals
    change (⟨(Code.ofText? code.text).getD default, (Severity.ofText? severity.text).getD default,
      message, _, _, _, (Json.strings impact).asList.map asText⟩ : Diagnostic) = _
    rw [hcode, hseverity, himpact]
    rfl

end Diagnostic

/-! ### Reports -/

/-- The counters one by one. -/
def Summary.counters (s : Summary) : List Nat :=
  [s.total, s.errors, s.warnings, s.info, s.compiled, s.upToDate, s.executed]

/-- The numbers of a report fit into their width: 32 bits for those of the version, 64 for the
counters. -/
structure Report.Bounded (r : Report) : Prop where
  major : r.version.major < Nat.pow 2 32
  minor : r.version.minor < Nat.pow 2 32
  counters : ∀ n ∈ r.summary.counters, n < Nat.pow 2 64

theorem Summary.reads {s : Summary} (h : ∀ n ∈ s.counters, n < Nat.pow 2 64) :
    Reads l decoder s.toJson := by
  simp only [counters, List.forall_mem_cons] at h
  obtain ⟨htotal, herrors, hwarnings, hinfo, hcompiled, hupToDate, hexecuted, -⟩ := h
  refine Fits.reads ?_ (by decide) _
  refine .written (reads_count l htotal) (.written (reads_count l herrors) ?_)
  refine .written (reads_count l hwarnings) (.written (reads_count l hinfo) ?_)
  refine .written (reads_count l hcompiled) (.written (reads_count l hupToDate) ?_)
  exact .written (reads_count l hexecuted) .nil

namespace Report

variable {r : Report}

theorem reads_version (h : r.Bounded) : Reads l versionDecoder
    (.obj [("major", .num r.version.major), ("minor", .num r.version.minor)]) := by
  refine Fits.reads ?_ (by decide) _
  exact .written (reads_short l h.major) (.written (reads_short l h.minor) .nil)

theorem reads (h : r.Bounded) : Reads l decoder r.toJson := by
  have hunits : Reads l (.list UnitRecord.decoder) (.arr (r.units.map UnitRecord.toJson)) := by
    apply reads_list
    intro x hx
    obtain ⟨record, -, rfl⟩ := List.mem_map.mp hx
    exact record.reads l
  have hdiagnostics : Reads l (.list Diagnostic.decoder)
      (.arr (r.diagnostics.map Diagnostic.toJson)) := by
    apply reads_list
    intro x hx
    obtain ⟨d, -, rfl⟩ := List.mem_map.mp hx
    exact d.reads l
  refine Fits.reads ?_ (by decide) _
  refine .written (reads_version l h) (.written (reads_string l _) ?_)
  refine .written (reads_string l _) (.written (reads_string l _) ?_)
  refine .written (reads_strings l _) (.written (Summary.reads l h.counters) ?_)
  exact .written hunits (.written hdiagnostics .nil)

theorem ofJson_toJson (r : Report) : ofJson r.toJson = r := by
  obtain ⟨version, timestamp, command, directory, order, summary, units, diagnostics⟩ := r
  have horder := map_asText_strings order
  have hunits : (units.map UnitRecord.toJson).map UnitRecord.ofJson = units := by
    rw [List.map_map]
    exact List.map_id'' UnitRecord.ofJson_toJson units
  have hdiagnostics : (diagnostics.map Diagnostic.toJson).map Diagnostic.ofJson = diagnostics := by
    rw [List.map_map]
    exact List.map_id'' Diagnostic.ofJson_toJson diagnostics
  change (⟨version, timestamp, command, directory, (Json.strings order).asList.map asText, summary,
    (units.map UnitRecord.toJson).map UnitRecord.ofJson,
    (diagnostics.map Diagnostic.toJson).map Diagnostic.ofJson⟩ : Report) = _
  rw [horder, hunits, hdiagnostics]

end Report

/-- Reports, diagnostics, records and units are read back from their text, be it with every entry on
a line of its own or in any other layout. -/
theorem reports_read_back (l : Layout) :
    (∀ r : Report, r.Bounded → Report.ofText r.toJson.text = .ok r ∧
      Report.ofText (l.text r.toJson) = .ok r) ∧
    (∀ d : Diagnostic, Diagnostic.ofText d.toJson.text = .ok d ∧
      Diagnostic.ofText (l.text d.toJson) = .ok d) ∧
    (∀ r : UnitRecord, UnitRecord.ofText r.toJson.text = .ok r ∧
      UnitRecord.ofText (l.text r.toJson) = .ok r) ∧
    ∀ u : BuildUnit, BuildUnit.ofText u.toJson.text = .ok u ∧
      BuildUnit.ofText (l.text u.toJson) = .ok u := by
  refine ⟨fun r h => ?_, fun d => ?_, fun r => ?_, fun u => ?_⟩
  · exact ofText_text_eq (fun l => Report.reads l h) r.ofJson_toJson l
  · exact ofText_text_eq (fun l => d.reads l) d.ofJson_toJson l
  · exact ofText_text_eq (fun l => r.reads l) r.ofJson_toJson l
  · exact ofText_text_eq (fun l => u.reads l) u.ofJson_toJson l

/-- A report of a failure whose message has a line break and quotes in it is read back from its text
without white space. -/
theorem failure_read_back :
    let d := Diagnostic.error .ioError "a: cannot access \"/w/a.sql\":\n\ttoo many links"
    let r := ((Report.start "now" "all" "/w").setOrder ["a", "b"]).addDiagnostic d
    r.Bounded ∧ Report.ofText (Layout.compact.text r.toJson) = .ok r := by
  intro d r
  have hbounded : r.Bounded := ⟨by decide, by decide, by decide⟩
  exact ⟨hbounded, ((reports_read_back Layout.compact).1 r hbounded).2⟩

end QueryBuild
