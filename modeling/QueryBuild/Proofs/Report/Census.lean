import Mathlib.Data.List.Induction
import Mathlib.Tactic.Common
import QueryBuild.CommandLine.Performance
/-!
# The counters of a report

The counters of a report are kept beside its lists. Each operation on a report keeps them the census
of the lists: whatever a task records, the counters are the numbers of what is listed. The lists in
turn hold what was recorded, in its order.
-/

namespace QueryBuild

/-- The numbers of the records and diagnostics of each kind. -/
def Summary.census (units : List UnitRecord) (diagnostics : List Diagnostic) : Summary where
  total := diagnostics.length
  errors := diagnostics.countP (·.severity == .error)
  warnings := diagnostics.countP (·.severity == .warn)
  info := diagnostics.countP (·.severity == .info)
  compiled := units.countP (·.action == .compiled)
  upToDate := units.countP (·.action == .upToDate)
  executed := units.countP (·.action == .executed)

namespace Summary

theorem census_concat_record (units : List UnitRecord) (diagnostics : List Diagnostic)
    (record : UnitRecord) :
    census (units ++ [record]) diagnostics =
      (census units diagnostics).countAction record.action := by
  obtain ⟨name, action, digest⟩ := record
  cases action <;> simp [census, countAction, List.countP_append]

theorem census_concat_diagnostic (units : List UnitRecord) (diagnostics : List Diagnostic)
    (d : Diagnostic) :
    census units (diagnostics ++ [d]) = (census units diagnostics).countSeverity d.severity := by
  cases hseverity : d.severity <;>
    simp [census, countSeverity, List.countP_append, hseverity]

/-- Every diagnostic has one of three severities, and every record one of three actions. -/
theorem census_sums (units : List UnitRecord) (diagnostics : List Diagnostic) :
    (census units diagnostics).total = (census units diagnostics).errors +
        (census units diagnostics).warnings + (census units diagnostics).info ∧
      (census units diagnostics).compiled + (census units diagnostics).upToDate +
        (census units diagnostics).executed = units.length := by
  simp only [census]
  constructor
  · induction diagnostics with
    | nil => rfl
    | cons d diagnostics ih =>
      rw [List.length_cons, ih]
      cases hseverity : d.severity <;> simp [hseverity] <;> omega
  · induction units with
    | nil => rfl
    | cons record units ih =>
      rw [List.length_cons, ← ih]
      cases haction : record.action <;> simp [haction] <;> omega

end Summary

namespace Report

/-- Something that is entered into a report. -/
inductive Entry where
  | order (names : List String)
  | unit (record : UnitRecord)
  | diagnostic (d : Diagnostic)
deriving DecidableEq, Inhabited

def Entry.order? : Entry → Option (List String)
  | .order names => some names
  | .unit _ | .diagnostic _ => none

def Entry.unit? : Entry → Option UnitRecord
  | .unit record => some record
  | .order _ | .diagnostic _ => none

def Entry.diagnostic? : Entry → Option Diagnostic
  | .diagnostic d => some d
  | .order _ | .unit _ => none

def enter (r : Report) : Entry → Report
  | .order names => r.setOrder names
  | .unit record => r.addUnit record
  | .diagnostic d => r.addDiagnostic d

def enterAll (r : Report) (entries : List Entry) : Report :=
  entries.foldl enter r

/-- The counters of a report are those of its lists. -/
def Counted (r : Report) : Prop :=
  r.summary = .census r.units r.diagnostics

variable {r : Report}

theorem counted_start (timestamp command directory : String) :
    (start timestamp command directory).Counted :=
  rfl

theorem Counted.setOrder (h : r.Counted) (order : List String) : (r.setOrder order).Counted :=
  h

theorem Counted.addUnit (h : r.Counted) (record : UnitRecord) : (r.addUnit record).Counted := by
  rw [Counted] at h
  simp only [Counted, Report.addUnit]
  rw [h, Summary.census_concat_record]

theorem Counted.addDiagnostic (h : r.Counted) (d : Diagnostic) :
    (r.addDiagnostic d).Counted := by
  rw [Counted] at h
  simp only [Counted, Report.addDiagnostic]
  rw [h, Summary.census_concat_diagnostic]

theorem Counted.enter (h : r.Counted) (entry : Entry) : (r.enter entry).Counted := by
  cases entry with
  | order names => exact h.setOrder names
  | unit record => exact h.addUnit record
  | diagnostic d => exact h.addDiagnostic d

theorem Counted.enterAll (h : r.Counted) (entries : List Entry) : (r.enterAll entries).Counted := by
  induction entries generalizing r with
  | nil => exact h
  | cons entry entries ih => exact ih (h.enter entry)

theorem addUnits_eq_enterAll (r : Report) (records : List UnitRecord) :
    r.addUnits records = r.enterAll (records.map .unit) := by
  rw [addUnits, Report.enterAll, List.foldl_map]
  rfl

theorem Counted.addUnits (h : r.Counted) (records : List UnitRecord) :
    (r.addUnits records).Counted := by
  rw [addUnits_eq_enterAll]
  exact h.enterAll _

theorem Counted.addBuild (h : r.Counted) (outcome : Except BuildFailure (List UnitRecord)) :
    (r.addBuild outcome).Counted := by
  cases outcome with
  | ok records => exact h.addUnits records
  | error failure => exact (h.addUnits failure.completed).addDiagnostic failure.toDiagnostic

theorem Counted.hasErrors_iff (h : r.Counted) :
    r.hasErrors = true ↔ ∃ d ∈ r.diagnostics, d.severity = .error := by
  rw [Counted] at h
  rw [hasErrors, h, decide_eq_true_iff]
  simp only [Summary.census, gt_iff_lt, List.countP_pos_iff, beq_iff_eq]

/-! ### What is listed -/

/-- An entry is listed behind the others of its kind, and an order replaces the one before. -/
theorem enter_eq (r : Report) (entry : Entry) :
    (r.enter entry).units = r.units ++ entry.unit?.toList ∧
      (r.enter entry).diagnostics = r.diagnostics ++ entry.diagnostic?.toList ∧
      (r.enter entry).order = entry.order?.getD r.order := by
  cases entry with
  | order names => exact ⟨(List.append_nil _).symm, (List.append_nil _).symm, rfl⟩
  | unit record => exact ⟨rfl, (List.append_nil _).symm, rfl⟩
  | diagnostic d => exact ⟨(List.append_nil _).symm, rfl, rfl⟩

theorem enterAll_concat (r : Report) (entries : List Entry) (entry : Entry) :
    r.enterAll (entries ++ [entry]) = (r.enterAll entries).enter entry := by
  rw [enterAll, List.foldl_append]
  rfl

private theorem filterMap_concat {α β : Type} (f : α → Option β) (xs : List α) (x : α) :
    (xs ++ [x]).filterMap f = xs.filterMap f ++ (f x).toList := by
  rw [List.filterMap_append]
  cases hx : f x <;> simp [hx]

/-- The entries of each kind are listed in their order behind those that were there before, and the
last order counts. -/
theorem enterAll_eq (r : Report) (entries : List Entry) :
    (r.enterAll entries).units = r.units ++ entries.filterMap Entry.unit? ∧
      (r.enterAll entries).diagnostics = r.diagnostics ++ entries.filterMap Entry.diagnostic? ∧
      (r.enterAll entries).order = (entries.filterMap Entry.order?).getLast?.getD r.order := by
  induction entries using List.reverseRecOn with
  | nil => simp [enterAll]
  | append_singleton entries entry ih =>
    obtain ⟨hunits, hdiagnostics, horder⟩ := ih
    obtain ⟨hunits', hdiagnostics', horder'⟩ := (r.enterAll entries).enter_eq entry
    rw [enterAll_concat, filterMap_concat, filterMap_concat, filterMap_concat]
    refine ⟨?_, ?_, ?_⟩
    · rw [hunits', hunits, List.append_assoc]
    · rw [hdiagnostics', hdiagnostics, List.append_assoc]
    · rw [horder', horder]
      cases entry.order? <;> simp

theorem addUnits_eq (r : Report) (records : List UnitRecord) :
    (r.addUnits records).units = r.units ++ records ∧
      (r.addUnits records).diagnostics = r.diagnostics ∧ (r.addUnits records).order = r.order := by
  have hunits : (records.map Entry.unit).filterMap Entry.unit? = records := by
    rw [List.filterMap_map]
    exact List.filterMap_some
  have hdiagnostics : (records.map Entry.unit).filterMap Entry.diagnostic? = [] := by
    rw [List.filterMap_map]
    exact List.filterMap_eq_nil_iff.mpr fun _ _ => rfl
  have horder : (records.map Entry.unit).filterMap Entry.order? = [] := by
    rw [List.filterMap_map]
    exact List.filterMap_eq_nil_iff.mpr fun _ _ => rfl
  have hall := r.enterAll_eq (records.map .unit)
  rw [hunits, hdiagnostics, horder, List.append_nil] at hall
  rw [addUnits_eq_enterAll]
  exact hall

theorem addBuild_error_eq (r : Report) (f : BuildFailure) :
    (r.addBuild (.error f)).units = r.units ++ f.completed ∧
      (r.addBuild (.error f)).diagnostics = r.diagnostics ++ [f.toDiagnostic] ∧
      (r.addBuild (.error f)).order = r.order := by
  obtain ⟨hunits, hdiagnostics, horder⟩ := r.addUnits_eq f.completed
  exact ⟨hunits, congrArg (· ++ [f.toDiagnostic]) hdiagnostics, horder⟩

/-- Whatever is entered into a new report, in any order, its counters are the census of its lists:
there are as many diagnostics as errors, warnings and notes, and as many records as units that were
compiled, up to date and executed; it has errors if a diagnostic is one. The lists hold all that was
entered, in order, and the build order is the last one that was. -/
theorem enterAll_start (timestamp command directory : String) (entries : List Entry) :
    let r := (start timestamp command directory).enterAll entries
    r.summary = .census r.units r.diagnostics ∧
    r.summary.total = r.diagnostics.length ∧
    r.summary.total = r.summary.errors + r.summary.warnings + r.summary.info ∧
    r.summary.compiled + r.summary.upToDate + r.summary.executed = r.units.length ∧
    (r.hasErrors = true ↔ ∃ d ∈ r.diagnostics, d.severity = .error) ∧
    r.units = entries.filterMap Entry.unit? ∧
    r.diagnostics = entries.filterMap Entry.diagnostic? ∧
    r.order = (entries.filterMap Entry.order?).getLast?.getD [] := by
  intro r
  have hcounted : r.Counted := (counted_start timestamp command directory).enterAll entries
  have hsummary : r.summary = .census r.units r.diagnostics := hcounted
  obtain ⟨hunits, hdiagnostics, horder⟩ := (start timestamp command directory).enterAll_eq entries
  obtain ⟨htotal, hactions⟩ := Summary.census_sums r.units r.diagnostics
  rw [← hsummary] at htotal hactions
  have hlength : r.summary.total = r.diagnostics.length := by
    rw [hsummary]
    rfl
  exact ⟨hsummary, hlength, htotal, hactions, hcounted.hasErrors_iff, hunits, hdiagnostics, horder⟩

end Report

end QueryBuild
