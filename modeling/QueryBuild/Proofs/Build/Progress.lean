import QueryBuild.Proofs.Build.Phase
/-!
# The progress of a phase

A phase says when it starts and when it finishes work on a unit. The start is said in the middle
of the work, behind the checks that may end it before, and the end is said by the loop around it.
Read together they tell the build order and the records: a unit that is up to date is only
finished, every other one is started and then finished, and behind them there is at most the start
of the unit that failed. All calls for a unit are made between its start and the next thing that is
said.
-/

namespace QueryBuild

/-- What a phase does to each unit. -/
inductive Work where
  | compile (force : Bool)
  | run
deriving DecidableEq, Inhabited

/-- Whether an event tells the progress of a phase. -/
def Event.isProgress : Event → Bool
  | .started _ _ => true
  | .called _ _ _ => false
  | .finished _ _ => true

/-- What is said of the progress of a phase. -/
def Event.progress (events : List Event) : List Event :=
  events.filter Event.isProgress

/-- The record of work that is finished. -/
def Event.record? : Event → Option UnitRecord
  | .started _ _ => none
  | .called _ _ _ => none
  | .finished _ record => some record

/-- The validator, a compiler or an artifact is called for a unit. -/
def Call.IsFor (u : BuildUnit) : Call → Prop
  | validator unit _ => unit = u.name
  | compiler program made => program = u.program ∧ made = u.artifact
  | artifact unit => unit = u.name

/-- An event is a call for a unit. -/
def Event.CallFor (u : BuildUnit) : Event → Prop
  | started _ _ => False
  | called call _ _ => call.IsFor u
  | finished _ _ => False

namespace Work

/-- The phase of some work. -/
def phase : Work → Phase
  | compile _ => .compile
  | run => .run

/-- The work on one unit. -/
def step (help : Collaborators) : Work → BuildUnit → FileSystem → Step UnitRecord
  | compile force => BuildUnit.compile help force
  | run => BuildUnit.run help

/-- The action that is recorded of work that was started. -/
def action : Work → UnitAction
  | compile _ => .compiled
  | run => .executed

/-- The actions that work may record. -/
def actions : Work → List UnitAction
  | compile _ => [.upToDate, .compiled]
  | run => [.executed]

/-- What is said of the work on a unit that ends with a record: that it was started, unless the
unit was up to date, and that it is finished. -/
def told (work : Work) (record : UnitRecord) : List Event :=
  if record.action = .upToDate then [.finished work.phase record]
  else [.started work.phase record.name, .finished work.phase record]

/-- The events that a phase on units may have, with the records that it makes and the unit at which
it fails. -/
inductive Follows (work : Work) :
    List BuildUnit → List Event → List UnitRecord → Option BuildUnit → Prop
  | all : Follows work [] [] [] none
  | refused (u : BuildUnit) (units : List BuildUnit) : Follows work (u :: units) [] [] (some u)
  | failed (u : BuildUnit) (units : List BuildUnit) {calls : List Event}
      (hcalls : ∀ call ∈ calls, call.CallFor u) :
      Follows work (u :: units) (.started work.phase u.name :: calls) [] (some u)
  | passed {u : BuildUnit} {units : List BuildUnit} {record : UnitRecord} {later : List Event}
      {records : List UnitRecord} {failed : Option BuildUnit}
      (hname : record.name = u.name) (haction : record.action = .upToDate)
      (hallowed : record.action ∈ work.actions) (hlater : Follows work units later records failed) :
      Follows work (u :: units) (.finished work.phase record :: later) (record :: records) failed
  | worked {u : BuildUnit} {units : List BuildUnit} {calls : List Event} {record : UnitRecord}
      {later : List Event} {records : List UnitRecord} {failed : Option BuildUnit}
      (hcalls : ∀ call ∈ calls, call.CallFor u) (hname : record.name = u.name)
      (haction : record.action = work.action) (hlater : Follows work units later records failed) :
      Follows work (u :: units)
        (.started work.phase u.name :: (calls ++ .finished work.phase record :: later))
        (record :: records) failed

end Work

namespace BuildResult

/-- The records of a result, also of one that is a failure. -/
def completed (r : BuildResult) : List UnitRecord :=
  match r.outcome with
  | .ok records => records
  | .error f => f.completed

/-- The name of the unit at which a build failed. -/
def stoppedAt (r : BuildResult) : Option String :=
  match r.outcome with
  | .ok _ => none
  | .error f => f.unit

theorem completed_after (r : BuildResult) (records : List UnitRecord) (events : List Event) :
    (r.after records events).completed = records ++ r.completed := by
  obtain ⟨outcome, files, later⟩ := r
  cases outcome <;> rfl

theorem stoppedAt_after (r : BuildResult) (records : List UnitRecord) (events : List Event) :
    (r.after records events).stoppedAt = r.stoppedAt := by
  obtain ⟨outcome, files, later⟩ := r
  cases outcome <;> rfl

end BuildResult

namespace Event

theorem progress_of_calls {u : BuildUnit} {calls : List Event}
    (hcalls : ∀ call ∈ calls, call.CallFor u) : progress calls = [] := by
  rw [progress, List.filter_eq_nil_iff]
  intro event hevent
  have hcall := hcalls event hevent
  cases event with
  | called => exact Bool.false_ne_true
  | _ => exact hcall.elim

theorem progress_of_started (kind : Phase) {u : BuildUnit} {calls : List Event}
    (hcalls : ∀ call ∈ calls, call.CallFor u) :
    progress (.started kind u.name :: calls) = [.started kind u.name] :=
  congrArg _ (progress_of_calls hcalls)

end Event

open Event

namespace BuildUnit

variable {u : BuildUnit} {fs : FileSystem} {help : Collaborators} {force : Bool}

/-- All that happens while a unit is built are calls for it. -/
theorem callFor_of_build {event : Event} (h : event ∈ (u.build help fs).events) :
    event.CallFor u := by
  rcases build_cases help u fs with ⟨e, events, hproduced, hbuild⟩ | ⟨sql, written, -, -, -, hbuild⟩
  · rw [hbuild] at h
    obtain ⟨sql, -, rfl⟩ := hproduced.asked h
    rfl
  · rw [hbuild] at h
    rcases List.mem_cons.mp h with rfl | h
    · rfl
    · rw [List.mem_singleton.mp h]
      exact ⟨rfl, rfl⟩

theorem verdict_of_build {unit sql : String} {verdict : Except String Unit} {output : ByteArray}
    (h : .called (.validator unit sql) verdict output ∈ (u.build help fs).events) :
    verdict = help.validator sql := by
  rcases build_cases help u fs with
    ⟨e, events, hproduced, hstep⟩ | ⟨sql', written, -, hvalid, -, hstep⟩
  · rw [hstep] at h
    obtain ⟨sql', -, heq⟩ := hproduced.asked h
    cases heq
    rfl
  · rw [hstep] at h
    rcases List.mem_cons.mp h with heq | h
    · cases heq
      exact hvalid.symm
    · cases List.mem_singleton.mp h

/-- The answers of the validator are recorded as it gives them. -/
theorem verdict_of_compile {unit sql : String} {verdict : Except String Unit} {output : ByteArray}
    (h : .called (.validator unit sql) verdict output ∈ (u.compile help force fs).events) :
    verdict = help.validator sql := by
  rw [compile] at h
  split at h
  · cases h
  · split at h
    · cases h
    · rcases List.mem_cons.mp h with heq | h
      · cases heq
      · exact verdict_of_build h

theorem check_congr {validator other : Validator}
    (h : ∀ sql verdict output, .called (.validator u.name sql) verdict output ∈
      (u.check validator fs).events → other sql = validator sql) :
    u.check other fs = u.check validator fs := by
  rw [check] at h ⊢
  rw [check]
  cases hread : u.sourceText fs with
  | error e => rfl
  | ok sql =>
    rw [hread] at h
    have hsame : other sql = validator sql := h sql _ _ (List.mem_singleton_self _)
    simp only [hsame]

/-- Compiling is no other if another validator gives the same answers to what is asked. -/
theorem compile_congr_validator {validator : Validator}
    (h : ∀ sql verdict output, .called (.validator u.name sql) verdict output ∈
      (u.compile help force fs).events → validator sql = help.validator sql) :
    u.compile { help with validator := validator } force fs = u.compile help force fs := by
  rw [compile] at h ⊢
  rw [compile]
  split
  · rfl
  · rename_i staleness hstaleness
    simp only [hstaleness] at h
    split
    · rfl
    · rename_i hdue
      rw [if_neg hdue] at h
      have hcheck : u.check validator fs = u.check help.validator fs := by
        apply check_congr
        intro sql verdict output hasked
        refine h sql verdict output (List.mem_cons_of_mem _ ?_)
        exact Step.events_subset _ _ (Step.events_subset _ _ hasked)
      have hbuild : u.build { help with validator := validator } fs = u.build help fs := by
        rw [build, build, produce, produce, hcheck]
      simp only [hbuild]

end BuildUnit

/-! ### One unit -/

namespace Work

variable {help : Collaborators} {work : Work} {u : BuildUnit} {fs : FileSystem}

theorem namesUnit (help : Collaborators) (work : Work) : NamesUnit (work.step help) := by
  cases work with
  | compile force => exact BuildUnit.namesUnit_compile help force
  | run => exact BuildUnit.namesUnit_run help

theorem action_ne_upToDate (work : Work) : work.action ≠ .upToDate := by
  cases work <;> exact nofun

theorem action_mem (work : Work) : work.action ∈ work.actions := by
  cases work <;> simp [action, actions]

/-- The work on a unit ends before it starts, with an error or with the record that nothing is to
do, or it starts and then calls others for this unit only. -/
theorem step_cases (help : Collaborators) (work : Work) (u : BuildUnit) (fs : FileSystem) :
    ((work.step help u fs).events = [] ∧ ((∃ e, (work.step help u fs).result = .error e) ∨
      ∃ record, (work.step help u fs).result = .ok record ∧ record.action = .upToDate ∧
        record.action ∈ work.actions)) ∨
    ∃ calls, (work.step help u fs).events = .started work.phase u.name :: calls ∧
      (∀ call ∈ calls, call.CallFor u) ∧
      ∀ record, (work.step help u fs).result = .ok record → record.action = work.action := by
  cases work with
  | compile force =>
    rw [step, BuildUnit.compile]
    cases Staleness.ofUnit fs u with
    | error e => exact Or.inl ⟨rfl, Or.inl ⟨_, rfl⟩⟩
    | ok staleness =>
      dsimp only
      split
      · exact Or.inl ⟨rfl, Or.inr ⟨_, rfl, rfl, by simp [actions, UnitRecord.ofUnit]⟩⟩
      · refine Or.inr ⟨_, rfl, fun call hcall => BuildUnit.callFor_of_build hcall, ?_⟩
        intro record hrecord
        obtain ⟨-, -, rfl⟩ := ok_of_map hrecord
        rfl
  | run =>
    rw [step, BuildUnit.run]
    split
    · refine Or.inr ⟨_, rfl, ?_, ?_⟩
      · intro call hcall
        rw [List.mem_singleton.mp hcall]
        rfl
      · intro record hrecord
        obtain ⟨-, -, rfl⟩ := ok_of_map hrecord
        rfl
    · exact Or.inl ⟨rfl, Or.inl ⟨_, rfl⟩⟩

theorem step_congr_validator {validator : Validator}
    (h : ∀ unit sql verdict output, .called (.validator unit sql) verdict output ∈
      (work.step help u fs).events → validator sql = help.validator sql) :
    work.step { help with validator := validator } u fs = work.step help u fs := by
  cases work with
  | compile force => exact BuildUnit.compile_congr_validator (h u.name)
  | run => rfl

theorem verdict_of_step {unit sql : String} {verdict : Except String Unit} {output : ByteArray}
    (h : .called (.validator unit sql) verdict output ∈ (work.step help u fs).events) :
    verdict = help.validator sql := by
  cases work with
  | compile force => exact BuildUnit.verdict_of_compile h
  | run =>
    rw [step, BuildUnit.run] at h
    split at h <;> simp at h

/-! ### All units -/

variable {units : List BuildUnit}

/-- A phase is no other if another validator gives the same answers to what is asked in it. -/
theorem phase_congr_validator (plan : BuildPlan) {validator : Validator}
    (h : ∀ unit sql verdict output, .called (.validator unit sql) verdict output ∈
      (plan.phase work.phase (work.step help) units fs).events →
        validator sql = help.validator sql) :
    plan.phase work.phase (work.step { help with validator := validator }) units fs =
      plan.phase work.phase (work.step help) units fs := by
  induction units generalizing fs with
  | nil => rfl
  | cons u units ih =>
    cases hresult : (work.step help u fs).result with
    | error e =>
      rw [BuildPlan.phase_cons_error hresult] at h
      have hstep := step_congr_validator h
      have hresult' := hresult
      rw [← hstep] at hresult'
      rw [BuildPlan.phase_cons_error hresult, BuildPlan.phase_cons_error hresult', hstep]
    | ok record =>
      rw [BuildPlan.phase_cons_ok hresult, BuildResult.after] at h
      have hstep : work.step { help with validator := validator } u fs = work.step help u fs :=
        step_congr_validator fun unit sql verdict output hmem => h unit sql verdict output
          (List.mem_append_left _ (List.mem_append_left _ hmem))
      have hrest := ih fun unit sql verdict output hmem => h unit sql verdict output
        (List.mem_append_right _ hmem)
      have hresult' := hresult
      rw [← hstep] at hresult'
      rw [BuildPlan.phase_cons_ok hresult, BuildPlan.phase_cons_ok hresult', hstep, hrest]

/-- The events of a phase follow the order of the units and agree with the result. -/
theorem follows_phase (plan : BuildPlan) (help : Collaborators) (work : Work)
    (units : List BuildUnit) (fs : FileSystem) :
    let result := plan.phase work.phase (work.step help) units fs
    ∃ failed : Option BuildUnit, result.stoppedAt = failed.map BuildUnit.name ∧
      work.Follows units result.events result.completed failed := by
  induction units generalizing fs with
  | nil => exact ⟨none, rfl, .all⟩
  | cons u units ih =>
    dsimp only
    cases hresult : (work.step help u fs).result with
    | error e =>
      rw [BuildPlan.phase_cons_error hresult]
      refine ⟨some u, (work.namesUnit help).error u fs e hresult, ?_⟩
      rcases step_cases help work u fs with ⟨hnone, -⟩ | ⟨calls, hstarted, hcalls, -⟩
      · simp only [hnone]
        exact .refused u units
      · simp only [hstarted]
        exact .failed u units hcalls
    | ok record =>
      obtain ⟨failed, hstopped, hlater⟩ := ih (work.step help u fs).files
      have hname := (work.namesUnit help).record u fs record hresult
      rw [BuildPlan.phase_cons_ok hresult, BuildResult.stoppedAt_after,
        BuildResult.completed_after, BuildResult.after, List.append_assoc]
      refine ⟨failed, hstopped, ?_⟩
      rcases step_cases help work u fs with
        ⟨hnone, ⟨e, herror⟩ | ⟨record', hrecord, haction, hallowed⟩⟩ |
        ⟨calls, hstarted, hcalls, hdone⟩
      · cases hresult.symm.trans herror
      · cases hresult.symm.trans hrecord
        simp only [hnone]
        exact .passed hname haction hallowed hlater
      · simp only [hstarted]
        exact .worked hcalls hname (hdone record hresult) hlater

/-! ### What can be read off the events -/

namespace Follows

variable {events : List Event} {records : List UnitRecord} {failed : Option BuildUnit}

theorem told_of_worked {record : UnitRecord} (hname : record.name = u.name)
    (haction : record.action = work.action) :
    work.told record = [.started work.phase u.name, .finished work.phase record] := by
  have hworked : record.action ≠ .upToDate := haction ▸ work.action_ne_upToDate
  rw [told, if_neg hworked, hname]

theorem progress_of_worked {calls : List Event} {record : UnitRecord}
    (hcalls : ∀ call ∈ calls, call.CallFor u) (hname : record.name = u.name)
    (haction : record.action = work.action) (later : List Event) :
    progress (.started work.phase u.name :: (calls ++ .finished work.phase record :: later)) =
      work.told record ++ progress later := by
  have hsilent := progress_of_calls hcalls
  rw [progress] at hsilent
  rw [told_of_worked hname haction, progress, List.filter_cons_of_pos rfl, List.filter_append,
    hsilent, List.nil_append, List.filter_cons_of_pos rfl]
  rfl

theorem progress_of_passed {record : UnitRecord} (haction : record.action = .upToDate)
    (later : List Event) :
    progress (.finished work.phase record :: later) = work.told record ++ progress later := by
  rw [told, if_pos haction]
  rfl

/-- What is said is what the records say, and at most that the failed unit was started. -/
theorem progress_eq (h : work.Follows units events records failed) :
    ∃ last, progress events = records.flatMap work.told ++ last ∧
      (last = [] ∨ ∃ u, failed = some u ∧ last = [.started work.phase u.name]) := by
  induction h with
  | all => exact ⟨[], rfl, Or.inl rfl⟩
  | refused u units => exact ⟨[], rfl, Or.inl rfl⟩
  | failed u units hcalls =>
    exact ⟨_, progress_of_started work.phase hcalls, Or.inr ⟨u, rfl, rfl⟩⟩
  | passed hname haction hallowed hlater ih =>
    obtain ⟨last, hlast, hcase⟩ := ih
    refine ⟨last, ?_, hcase⟩
    rw [progress_of_passed haction, hlast, List.flatMap_cons, List.append_assoc]
  | worked hcalls hname haction hlater ih =>
    obtain ⟨last, hlast, hcase⟩ := ih
    refine ⟨last, ?_, hcase⟩
    rw [progress_of_worked hcalls hname haction, hlast, List.flatMap_cons, List.append_assoc]

/-- The records are those of the first units, and the failed unit is the next one. -/
theorem records_eq (h : work.Follows units events records failed) :
    records.map UnitRecord.name = (units.take records.length).map BuildUnit.name ∧
      units[records.length]? = failed ∧ ∀ record ∈ records, record.action ∈ work.actions := by
  induction h with
  | all => exact ⟨rfl, rfl, by simp⟩
  | refused u units => exact ⟨rfl, rfl, by simp⟩
  | failed u units hcalls => exact ⟨rfl, rfl, by simp⟩
  | passed hname haction hallowed hlater ih =>
    obtain ⟨hnames, hnext, hactions⟩ := ih
    refine ⟨?_, hnext, List.forall_mem_cons.mpr ⟨hallowed, hactions⟩⟩
    rw [List.length_cons, List.take_succ_cons, List.map_cons, List.map_cons, hname, hnames]
  | worked hcalls hname haction hlater ih =>
    obtain ⟨hnames, hnext, hactions⟩ := ih
    refine ⟨?_, hnext, List.forall_mem_cons.mpr ⟨haction ▸ work.action_mem, hactions⟩⟩
    rw [List.length_cons, List.take_succ_cons, List.map_cons, List.map_cons, hname, hnames]

/-- What a call finds said before it: all that the records of the units in front say, and that its
own unit was started. -/
theorem call_between (h : work.Follows units events records failed)
    {before after : List Event} {call : Call} {answer : call.Answer} {output : ByteArray}
    (hsplit : events = before ++ .called call answer output :: after) :
    ∃ position u, position ≤ records.length ∧ units[position]? = some u ∧ call.IsFor u ∧
      progress before =
        (records.take position).flatMap work.told ++ [.started work.phase u.name] := by
  induction h generalizing before with
  | all => exact absurd hsplit (by simp)
  | refused u units => exact absurd hsplit (by simp)
  | failed u units hcalls =>
    rcases List.cons_eq_append_iff.mp hsplit with ⟨rfl, hhead⟩ | ⟨front, rfl, hfront⟩
    · cases hhead
    · subst hfront
      refine ⟨0, u, Nat.le_refl _, rfl, hcalls (.called call answer output) (by simp),
        progress_of_started work.phase ?_⟩
      exact fun other hother => hcalls other (List.mem_append_left _ hother)
  | passed hname haction hallowed hlater ih =>
    rcases List.cons_eq_append_iff.mp hsplit with ⟨rfl, hhead⟩ | ⟨front, rfl, hfront⟩
    · cases hhead
    · obtain ⟨position, u, hle, hu, hfor, hsaid⟩ := ih hfront
      refine ⟨position + 1, u, Nat.succ_le_succ hle, hu, hfor, ?_⟩
      rw [progress_of_passed haction, hsaid, List.take_succ_cons, List.flatMap_cons,
        List.append_assoc]
  | @worked u units calls record later records failed hcalls hname haction hlater ih =>
    rcases List.cons_eq_append_iff.mp hsplit with ⟨rfl, hhead⟩ | ⟨front, rfl, hfront⟩
    · cases hhead
    · rcases List.append_eq_append_iff.mp hfront with
        ⟨middle, rfl, hmiddle⟩ | ⟨middle, rfl, hmiddle⟩
      · -- the call is one of a later unit
        rcases List.cons_eq_append_iff.mp hmiddle with ⟨rfl, hhead⟩ | ⟨rest, rfl, hrest⟩
        · cases hhead
        · obtain ⟨position, v, hle, hv, hfor, hsaid⟩ := ih hrest
          refine ⟨position + 1, v, Nat.succ_le_succ hle, hv, hfor, ?_⟩
          rw [progress_of_worked hcalls hname haction, hsaid, List.take_succ_cons,
            List.flatMap_cons, List.append_assoc]
      · rcases List.cons_eq_append_iff.mp hmiddle with ⟨rfl, hhead⟩ | ⟨rest, rfl, hrest⟩
        · cases hhead
        · refine ⟨0, u, Nat.zero_le _, rfl, hcalls (.called call answer output) (by simp),
            progress_of_started work.phase ?_⟩
          exact fun other hother => hcalls other (List.mem_append_left _ hother)

end Follows

theorem finished_of_progress (work : Work) {said last : List Event} {records : List UnitRecord}
    (hsaid : Event.progress said = records.flatMap work.told ++ last)
    (hlast : last.filterMap Event.record? = []) : said.filterMap Event.record? = records := by
  have hprogress : ∀ events : List Event,
      events.filterMap Event.record? = (Event.progress events).filterMap Event.record? := by
    intro events
    rw [Event.progress, List.filterMap_filter]
    apply List.filterMap_congr
    intro event _
    cases event <;> rfl
  have htold : ∀ record, (work.told record).filterMap Event.record? = [record] := by
    intro record
    rw [told]
    split <;> rfl
  rw [hprogress, hsaid, List.filterMap_append, hlast, List.append_nil, List.filterMap_flatMap]
  simp only [htold, List.flatMap_singleton']

end Work

namespace BuildPlan

/-- Does some work on all units of a plan. -/
def carryOut (plan : BuildPlan) (help : Collaborators) (work : Work) (fs : FileSystem) :
    BuildResult :=
  match work with
  | .compile force => plan.compile help force fs
  | .run => plan.run help fs

theorem carryOut_eq (plan : BuildPlan) (help : Collaborators) (work : Work) (fs : FileSystem) :
    plan.carryOut help work fs = plan.phase work.phase (work.step help) plan.order fs := by
  cases work <;> rfl

/-- Whatever the plan, the work and those who help: what is said of a phase is what its records
say, in their order, and behind it at most that work on the failed unit was started. The records are
those of the first units of the plan, with the actions that the work allows; the finished ones are
just these, and the next unit, if there is one, is the one that failed. Every call of the validator,
the compiler or an artifact is one for a unit of the plan, and it finds said what the records of the
units in front say, and that its own unit was started, and no more. What the validator answers is
recorded, and no question to it is missing among the events: with any validator that answers them
alike the phase is the same. -/
theorem progress_follows_order (plan : BuildPlan) (help : Collaborators) (work : Work)
    (fs : FileSystem) :
    let result := plan.carryOut help work fs
    (∃ last, progress result.events = result.completed.flatMap work.told ++ last ∧
      (last = [] ∨ ∃ name, result.stoppedAt = some name ∧ last = [.started work.phase name])) ∧
    result.completed.map UnitRecord.name =
      (plan.order.take result.completed.length).map BuildUnit.name ∧
    plan.order[result.completed.length]?.map BuildUnit.name = result.stoppedAt ∧
    (∀ record ∈ result.completed, record.action ∈ work.actions) ∧
    result.events.filterMap Event.record? = result.completed ∧
    (∀ before call answer output after,
      result.events = before ++ .called call answer output :: after →
      ∃ position u, position ≤ result.completed.length ∧ plan.order[position]? = some u ∧
        call.IsFor u ∧ progress before =
          (result.completed.take position).flatMap work.told ++ [.started work.phase u.name]) ∧
    (∀ unit sql verdict output,
      .called (.validator unit sql) verdict output ∈ result.events →
        verdict = help.validator sql) ∧
    ∀ validator : Validator,
      (∀ unit sql verdict output,
        .called (.validator unit sql) verdict output ∈ result.events →
          validator sql = help.validator sql) →
      plan.carryOut { help with validator := validator } work fs = result := by
  intro result
  have hresult : result = plan.phase work.phase (work.step help) plan.order fs :=
    plan.carryOut_eq help work fs
  obtain ⟨failed, hstopped, hfollows⟩ := work.follows_phase plan help plan.order fs
  rw [← hresult] at hstopped hfollows
  obtain ⟨hnames, hnext, hactions⟩ := hfollows.records_eq
  obtain ⟨last, hsaid, hlast⟩ := hfollows.progress_eq
  refine ⟨⟨last, hsaid, ?_⟩, hnames, ?_, hactions, ?_, ?_, ?_, ?_⟩
  · apply hlast.imp_right
    intro hcase
    obtain ⟨u, rfl, hstarted⟩ := hcase
    exact ⟨u.name, hstopped, hstarted⟩
  · rw [hnext, hstopped]
  · apply work.finished_of_progress hsaid
    rcases hlast with rfl | ⟨u, -, rfl⟩ <;> rfl
  · intro before call answer output after hsplit
    exact hfollows.call_between hsplit
  · intro unit sql verdict output hasked
    rw [hresult] at hasked
    rcases mem_phase hasked with ⟨record, hend⟩ | ⟨u, -, now, hwork⟩
    · cases hend
    · exact Work.verdict_of_step hwork
  · intro validator hagrees
    rw [hresult] at hagrees ⊢
    rw [carryOut_eq, work.phase_congr_validator plan hagrees]

end BuildPlan

end QueryBuild
