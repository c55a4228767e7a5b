import QueryBuild.Proofs.Query.Phrases
/-!
# Queries stop at semicolons

Tables, selections and changes respect a wall if the rules that they use do, and so does every rule
of the grammar by induction on the depth.
-/

namespace QueryBuild.Query.Grammar

set_option synthInstance.maxSize 1000000

section Table

variable {w : Wall} {rules : Rules} [hr : RulesRespect w rules]

instance : Respects w (aliasColumn rules) := by
  unfold aliasColumn; infer_instance

instance : Respects w (aliasColumns rules) := by
  unfold aliasColumns; infer_instance

instance : Respects w (tableAlias rules) := by
  unfold tableAlias; infer_instance

instance : Respects w settings := by
  unfold settings; dsimp only; infer_instance

instance : Respects w (tableArguments rules) := by
  unfold tableArguments; infer_instance

instance : Respects w (derivedTable rules) := by
  unfold derivedTable; infer_instance

instance : Respects w (pivotAggregate rules) := by
  unfold pivotAggregate
  dsimp only
  refine .next (fun item => ?_) fun place => ?_
  · split <;> infer_instance
  · exact Returns.bind (p := expectedHere "a function identifier")

instance : Respects w (pivotValues rules) := by
  unfold pivotValues; infer_instance

instance : Respects w (pivot rules) := by
  unfold pivot; infer_instance

instance : Respects w (unpivot rules) := by
  unfold unpivot; infer_instance

instance : Respects w (pivots rules) := by
  unfold pivots
  have : Respects w (do
      match ← acceptOneOf ["PIVOT", "UNPIVOT"] with
      | some "PIVOT" =>
        pivot rules
        return some ()
      | some _ =>
        unpivot rules
        return some ()
      | none => return none) := by
    refine Respects.andThen fun found => ?_
    split <;> infer_instance
  infer_instance

instance : Respects w (valueRows rules) := by
  unfold valueRows; infer_instance

instance {natural : Bool} : Respects w (joinConstraint rules natural) := by
  unfold joinConstraint; infer_instance

instance : Respects w (anyTable rules) := by
  unfold anyTable; infer_instance

instance {side : String} : Respects w (outerJoin side) := by
  unfold outerJoin
  refine Respects.andThen fun found => ?_
  split <;> infer_instance

instance {natural : Bool} : Respects w (joinWords natural) := by
  unfold joinWords
  refine .peekKeyword (fun keyword => ?_) ?_
  · split <;> infer_instance
  · exact Respects.ite

instance : Respects w (join rules) := by
  unfold join; dsimp only; infer_instance

instance : Respects w (tableWithJoins rules) := by
  unfold tableWithJoins; infer_instance

instance : Respects w (tables rules) := by
  unfold tables; infer_instance

instance : Respects w (namedTable rules) := by
  unfold namedTable
  refine .dialect ?_
  simp only [beq_iff_eq, reduceCtorEq, if_false]
  infer_instance

instance : Respects w (unnest rules) := by
  unfold unnest; infer_instance

instance : Respects w documentFallbacks := by
  unfold documentFallbacks
  have : Respects w (do
      match ← acceptOneOf ["NULL", "ERROR", "DEFAULT"] with
      | none => return none
      | some keyword =>
        if keyword == "DEFAULT" then
          let _ ← value
        requireWord "ON"
        unless ← acceptWord "EMPTY" do requireWord "ERROR"
        return some ()) := by
    refine Respects.andThen fun found => ?_
    split <;> infer_instance
  infer_instance

instance : Respects w (documentColumn rules) := by
  unfold documentColumn; infer_instance

instance : Respects w (documentTable rules) := by
  unfold documentTable; infer_instance

instance : Respects w (openedColumn rules) := by
  unfold openedColumn
  have : Respects w (do
      match (← peek).map Item.token with
      | some (.string .plain _) => skip
      | _ => pure ()
      afterWord "AS" (requireWord "JSON")) := by
    refine .peek (fun item => ?_) fun place => ?_
    · split <;> infer_instance
    · exact (inferInstance : Respects w (afterWord "AS" (requireWord "JSON")))
  infer_instance

instance : Respects w (openedDocument rules) := by
  unfold openedDocument; infer_instance

instance : Respects w (tableInParentheses rules) := by
  unfold tableInParentheses; dsimp only; infer_instance

instance : Respects w (tableFactor rules) := by
  unfold tableFactor
  refine .dialect ?_
  simp only [beq_iff_eq, Bool.and_eq_true, reduceCtorEq, false_and, if_false]
  infer_instance

end Table

section Select

variable {w : Wall} {rules : Rules} [hr : RulesRespect w rules] {lone : Bool}

instance {p : Recognizer Unit} [Respects w p] : Respects w (oneOrMoreInParentheses p) := by
  unfold oneOrMoreInParentheses; infer_instance

instance : Respects w (wildcardOptions rules) := by
  unfold wildcardOptions
  refine .dialect ?_
  simp only [beq_iff_eq, reduceCtorEq, if_false]
  infer_instance

instance : Respects w (selectItem rules) := by
  unfold selectItem
  dsimp only
  refine Respects.andThen fun shape => ?_
  split <;> infer_instance

instance : Respects w (distinctness rules) := by
  unfold distinctness; infer_instance

instance : Respects w (top rules) := by
  unfold top; dsimp only; infer_instance

instance : Respects w intoTable := by
  unfold intoTable; infer_instance

instance : Respects w (lateralViews rules) := by
  unfold lateralViews; infer_instance

instance : Respects w (tuple rules lone) := by
  unfold tuple; infer_instance

instance : Respects w (groupKey rules) := by
  unfold groupKey
  have : Respects w (do
      if (← symbolAt 0 .leftParen) && (← symbolAt 1 .rightParen) then
        skip
        skip
      else anyExpression rules) := by
    refine ⟨fun {c a c'} h hc => ?_⟩
    obtain ⟨_, c1, h1, h⟩ := bind_ok h
    obtain ⟨_, c2, h2, h⟩ := bind_ok h
    cases h1
    cases h2
    split at h
    · rename_i hfound
      rw [Bool.and_eq_true] at hfound
      cases h
      have hopen : c.index ≠ w.index := fun heq => by
        rw [Nat.add_zero, heq, w.stands] at hfound
        exact nomatch eq_of_beq hfound.1
      have hclose : c.index + 1 ≠ w.index := fun heq => by
        rw [heq, w.stands] at hfound
        exact nomatch eq_of_beq hfound.2
      show c.index + 1 + 1 ≤ w.index
      omega
    · exact Respects.respects h hc
  infer_instance

instance : Respects w (grouping rules) := by
  unfold grouping; dsimp only; infer_instance

instance : Respects w (windowsAndCondition rules) := by
  unfold windowsAndCondition; dsimp only; infer_instance

instance : Respects w (select rules) := by
  unfold select
  refine .dialect ?_
  simp only [beq_iff_eq, Bool.and_eq_true, reduceCtorEq, false_and, if_false]
  infer_instance

theorem next_ok {source : Source} {c c' : Cursor} {item : Option Item}
    (h : next source c = .ok (item, c')) :
    source.items[c.index]? = item ∧ c'.index = c.index + 1 := by
  cases h
  exact ⟨rfl, rfl⟩

/-- A table as a query is a word and two more tokens, whatever they are. -/
theorem tableQuery_ok {source : Source} {c c' : Cursor}
    (h : tableQuery source c = .ok ((), c')) :
    source.items[c.index]?.map Item.token ≠ some (.symbol .semicolon) ∧
      c'.index = c.index + 3 := by
  unfold tableQuery at h
  obtain ⟨first, c1, h1, h⟩ := bind_ok h
  obtain ⟨second, c2, h2, h⟩ := bind_ok h
  obtain ⟨third, c3, h3, h⟩ := bind_ok h
  obtain ⟨hfirst, hc1⟩ := next_ok h1
  have hc3 : c3.index = c.index + 3 := by rw [(next_ok h3).2, (next_ok h2).2, hc1]
  rw [hfirst, ← hc3]
  dsimp only at h
  refine ⟨fun hsemicolon => ?_, ?_⟩
  · simp only [hsemicolon, Bool.false_eq_true, if_false] at h
    split at h <;> cases h
  · exact congrArg Cursor.index (Looks.looks h)

theorem acceptWord_true {source : Source} {c c' : Cursor} {keyword : String}
    (h : acceptWord keyword source c = .ok (true, c')) :
    source.keyword c.index = keyword ∧ c'.index = c.index + 1 := by
  obtain ⟨found, c1, h1, h⟩ := bind_ok h
  cases h1
  split at h
  · rename_i hfound
    cases h
    exact ⟨eq_of_beq hfound, rfl⟩
  · cases h

instance {α : Type} {p : Recognizer α} {f : Unit → Recognizer α} [hf : ∀ u, Respects w (f u)]
    [hp : Respects w p] :
    Respects w (acceptWord "TABLE" >>= fun found => if found then tableQuery >>= f else p) where
  respects {c a c'} h hc := by
    obtain ⟨found, c1, h1, h⟩ := bind_ok h
    have hc1 : c1.index ≤ w.index := Respects.respects h1 hc
    cases found with
    | false => exact hp.respects h hc1
    | true =>
      obtain ⟨⟨⟩, c2, h2, h⟩ := bind_ok h
      refine (hf ()).respects h ?_
      obtain ⟨hfirst, hc2⟩ := tableQuery_ok h2
      obtain ⟨htable, hc1'⟩ := acceptWord_true h1
      have hsight := w.inSight _ htable
      have hne : c1.index ≠ w.index := fun heq => hfirst (by rw [heq, w.stands]; rfl)
      omega

instance : Respects w setQuantifier := by
  unfold setQuantifier; infer_instance

instance {strength : Nat} : Respects w (queryBody rules strength) := by
  unfold queryBody
  dsimp only
  have : Respects w (repeatFrom () fun _ => do
    let next := setOperatorStrength (← peekKeyword)
    if strength ≥ next then return none
    skip
    setQuantifier
    rules (.body next)
    return some ()) := by
    have : Respects w (do
        let next := setOperatorStrength (← peekKeyword)
        if strength ≥ next then return none
        skip
        setQuantifier
        rules (.body next)
        return some ()) := by
      dsimp only
      refine .peekKeyword (fun keyword => inferInstance) ?_
      rw [if_pos (show strength ≥ setOperatorStrength "" from Nat.zero_le _)]
      exact .pure
    infer_instance
  infer_instance

instance : Respects w materialization := by
  unfold materialization; infer_instance

instance : Respects w (commonTable rules) := by
  unfold commonTable; dsimp only; infer_instance

instance : Respects w (commonTables rules) := by
  unfold commonTables; infer_instance

instance : Respects w (interpolation rules) := by
  unfold interpolation; infer_instance

instance : Respects w (ordering rules) := by
  unfold ordering; infer_instance

instance : Respects w (limit rules) := by
  unfold limit; infer_instance

instance : Respects w (offset rules) := by
  unfold offset; infer_instance

instance : Respects w (limits rules) := by
  unfold limits
  dsimp only
  infer_instance

instance : Respects w fetch := by
  unfold fetch; dsimp only; infer_instance

instance : Respects w elementName := by
  unfold elementName; infer_instance

instance {option : Recognizer Unit} [Respects w option] : Respects w (documentOptions option) := by
  unfold documentOptions; infer_instance

instance : Respects w xmlResult := by
  unfold xmlResult
  have : Respects w (do
      match ← acceptOneOf ["ELEMENTS", "BINARY", "ROOT", "TYPE"] with
      | some "BINARY" => requireWord "BASE64"
      | some "ROOT" => elementName
      | _ => pure ()) := by
    refine Respects.andThen fun found => ?_
    split <;> infer_instance
  refine Respects.andThen fun found => ?_
  split <;> infer_instance

instance : Respects w jsonResult := by
  unfold jsonResult
  have : Respects w (do
      match ← acceptOneOf ["ROOT", "INCLUDE_NULL_VALUES", "WITHOUT_ARRAY_WRAPPER"] with
      | some "ROOT" => elementName
      | _ => pure ()) := by
    refine Respects.andThen fun found => ?_
    split <;> infer_instance
  infer_instance

instance : Respects w lock := by
  unfold lock; infer_instance

instance : Respects w locks := by
  unfold locks; infer_instance

instance : Respects w resultFormat := by
  unfold resultFormat; infer_instance

instance : Respects w (plainQuery rules) := by
  unfold plainQuery; dsimp only; infer_instance

end Select

section Change

variable {w : Wall} {rules : Rules} [hr : RulesRespect w rules]

instance : Respects w (assignment rules) := by
  unfold assignment; infer_instance

instance : Respects w (returned rules) := by
  unfold returned; infer_instance

instance : Respects w orElse := by
  unfold orElse; infer_instance

instance : Respects w (onConflict rules) := by
  unfold onConflict; dsimp only; infer_instance

instance : Looks startsQueryInParentheses := by
  unfold startsQueryInParentheses; infer_instance

instance : Respects w (insertion rules) := by
  unfold insertion; dsimp only; infer_instance

instance : Respects w (update rules) := by
  unfold update; dsimp only; infer_instance

instance : Respects w (query rules) := by
  unfold query; infer_instance

end Change

/-- No rule reads past a semicolon, unless it follows the word `TABLE` closely. -/
theorem rulesWithin_respects {w : Wall} (depth : Nat) : RulesRespect w (rulesWithin depth) := by
  induction depth with
  | zero => exact ⟨fun rule _ => ⟨fun h => by cases h⟩⟩
  | succ depth ih =>
    refine ⟨fun rule hrule => ?_⟩
    unfold rulesWithin
    cases rule with
    | statement => exact absurd rfl hrule
    | query => exact inferInstanceAs (Respects w (query _))
    | body strength => exact inferInstanceAs (Respects w (queryBody _ _))
    | expression strength => exact inferInstanceAs (Respects w (boundExpression _ _))
    | operand => exact inferInstanceAs (Respects w (operand _))
    | tableFactor => exact inferInstanceAs (Respects w (tableFactor _))
    | documentColumn => exact inferInstanceAs (Respects w (documentColumn _))
    | dataType => exact inferInstanceAs (Respects w (dataType _))

end QueryBuild.Query.Grammar
