import QueryBuild.Proofs.Query.Wall
/-!
# Types and expressions stop at semicolons

Every recogniser of types, calls, operands and expressions respects a wall if the rules that it uses
do.
-/

namespace QueryBuild.Query.Grammar

set_option synthInstance.maxSize 1000000

section DataType

variable {w : Wall} {rules : Rules}

/-- Every rule of queries respects a wall. -/
class RulesRespect (w : Wall) (rules : Rules) : Prop where
  respects : ∀ rule, rule ≠ .statement → Respects w (rules rule)

variable [hr : RulesRespect w rules]

instance : Respects w (rules .query) := hr.respects _ nofun

instance {strength : Nat} : Respects w (rules (.body strength)) := hr.respects _ nofun

instance {strength : Nat} : Respects w (rules (.expression strength)) := hr.respects _ nofun

instance : Respects w (rules .operand) := hr.respects _ nofun

instance : Respects w (rules .tableFactor) := hr.respects _ nofun

instance : Respects w (rules .documentColumn) := hr.respects _ nofun

instance : Respects w (rules .dataType) := hr.respects _ nofun

instance : Respects w optionalLength := by
  unfold optionalLength; dsimp only; infer_instance

instance : Respects w timeType := by
  unfold timeType; infer_instance

instance : Respects w stringValues := by
  unfold stringValues
  have (done : Bool) : Respects w (do
      if done then return none
      let item ← next
      match item.map Item.token with
      | some (.string .plain _) => pure ()
      | _ => expected "a string" item
      let item ← next
      match item.map Item.token with
      | some (.symbol .comma) => return some false
      | some (.symbol .rightParen) => return some true
      | _ => expected ", or \x7d" item : Recognizer (Option Bool)) := by
    dsimp only
    have : Respects w (do
        let item ← next
        match item.map Item.token with
        | some (.symbol .comma) => return some false
        | some (.symbol .rightParen) => return some true
        | _ => expected ", or \x7d" item : Recognizer (Option Bool)) := by
      refine .next (fun item => ?_) fun place => ?_
      · split <;> infer_instance
      · exact Returns.expected
    split
    · infer_instance
    · refine .next (fun item => ?_) fun place => ?_
      · split <;> infer_instance
      · exact Returns.bind
  infer_instance

instance : Respects w typeModifiers := by
  unfold typeModifiers
  have (done : Bool) : Respects w (do
      if done then return none
      let item ← next
      match item.map Item.token with
      | some (.word _ _) | some (.number _ _) | some (.string .plain _)
      | some (.symbol .comma) => return some false
      | some (.symbol .rightParen) => return some true
      | _ => expected "type modifiers" item : Recognizer (Option Bool)) := by
    split
    · infer_instance
    · refine .next (fun item => ?_) fun place => ?_
      · split <;> infer_instance
      · exact Returns.expected
  infer_instance

instance : Respects w closeAngle := by
  unfold closeAngle; infer_instance

instance : Respects w (typedField rules) := by
  unfold typedField; infer_instance

instance : Respects w (structureField rules) := by
  unfold structureField
  dsimp only
  refine Respects.andThen fun first => Respects.andThen fun second => ?_
  split <;> infer_instance

instance : Respects w (structureFields rules) := by
  unfold structureFields; infer_instance

instance {keyword : String} : Respects w (namedType rules keyword) := by
  unfold namedType
  dsimp only
  refine Respects.andThen fun d => ?_
  repeat' first | infer_instance | split

instance : Respects w (dataType rules) := by
  unfold dataType
  dsimp only
  refine .next (fun item => ?_) fun place => ?_
  · split <;> infer_instance
  · exact Returns.bind (p := expected "a data type name" _)

end DataType

section Call

variable {w : Wall} {rules : Rules} [hr : RulesRespect w rules]

instance : Respects w (expression rules) := by
  unfold expression; infer_instance

instance : Respects w (anyExpression rules) := by
  unfold anyExpression; infer_instance

instance : Respects w (expressions rules) := by
  unfold expressions; infer_instance

instance : Respects w (orderKey rules) := by
  unfold orderKey; dsimp only; infer_instance

instance : Respects w (orderKeys rules) := by
  unfold orderKeys; infer_instance

instance {fuel : Nat} : Respects w (qualifiedName fuel) := by
  induction fuel with
  | zero => exact .pure
  | succ fuel ih =>
    unfold qualifiedName
    have : Respects w (do
        let item ← next
        match item.map Item.token with
        | some (.word _ _) | some (.string .plain _) => qualifiedName fuel
        | some (.symbol .star) => return true
        | _ => expected "an identifier or a '*' after '.'" item) := by
      refine .next (fun item => ?_) fun place => ?_
      · split <;> infer_instance
      · exact Returns.expected
    infer_instance

instance : Respects w (wildcardOrExpression rules) := by
  unfold wildcardOrExpression
  dsimp only
  refine .current fun start hstart => ?_
  have hset : Respects w (set start : Recognizer PUnit) := .restore hstart
  have hset' : Returns w (set start : Recognizer PUnit) := ⟨by rintro _ _ _ ⟨⟩ _; exact hstart⟩
  refine .next (fun item => ?_) fun place => ?_
  · split <;> infer_instance
  · exact Returns.bind

instance : Respects w argumentOperator := by
  unfold argumentOperator
  have (d : Dialect) : Respects w (do
      let item ← peek
      match item.map Item.token with
      | some (.symbol .fatArrow) => skip
      | some (.symbol .equal) =>
        if d.equalsNamesArgument then skip else expected "argument operator" item
      | some (.symbol .assign) =>
        if d.assignNamesArgument then skip else expected "argument operator" item
      | _ => expected "argument operator" item) := by
    refine .peek (fun item => ?_) fun place => ?_
    · split <;> infer_instance
    · exact Looks.respects (p := expected "argument operator" _)
  infer_instance

instance : Respects w (argument rules) := by
  unfold argument; infer_instance

instance : Respects w allOrDistinct := by
  unfold allOrDistinct; dsimp only; infer_instance

instance : Respects w nullTreatment := by
  unfold nullTreatment
  refine Respects.andThen fun found => ?_
  split <;> infer_instance

instance : Respects w (listOverflow rules) := by
  unfold listOverflow
  dsimp only
  have : Respects w (do
      let item ← peek
      match item with
      | some ⟨.word _ _, keyword, _⟩ =>
        unless keyword == "WITH" || keyword == "WITHOUT" do
          expected "either filler, WITH, or WITHOUT in LISTAGG" item
      | some ⟨.string _ _, _, _⟩ => anyExpression rules
      | _ => expected "either filler, WITH, or WITHOUT in LISTAGG" item
      unless ← acceptWord "WITH" <||> acceptWord "WITHOUT" do
        expectedHere "either WITH or WITHOUT in LISTAGG"
      requireWord "COUNT") := by
    dsimp only
    refine Respects.andThen fun item => ?_
    split <;> infer_instance
  infer_instance

instance : Respects w documentNulls := by
  unfold documentNulls; infer_instance

instance : Respects w (argumentList rules) := by
  unfold argumentList
  refine .dialect ?_
  simp only [beq_iff_eq, reduceCtorEq, if_false]
  infer_instance

instance : Respects w (bareArguments rules) := by
  unfold bareArguments; infer_instance

instance : Respects w (frameBound rules) := by
  unfold frameBound; dsimp only; infer_instance

instance : Respects w (frame rules) := by
  unfold frame
  dsimp only
  refine .next (fun item => ?_) fun place => ?_
  · infer_instance
  · exact Returns.bind

instance : Respects w (windowDefinition rules) := by
  unfold windowDefinition
  dsimp only
  refine .peek (fun item => ?_) fun place => ?_
  · split <;> infer_instance
  · dsimp only
    infer_instance

instance : Respects w (namedWindow rules) := by
  unfold namedWindow; infer_instance

instance : Respects w (aggregateFilter rules) := by
  unfold aggregateFilter; infer_instance

instance : Respects w (call rules) := by
  unfold call
  have (nulls : Bool) : Respects w (do
      afterWords ["WITHIN", "GROUP"] do
        parenthesized do
          requireWords ["ORDER", "BY"]
          orderKeys rules
      aggregateFilter rules
      unless nulls do
        let _ ← nullTreatment
      if ← acceptWord "OVER" then
        if ← accept .leftParen then windowDefinition rules else name
      return Shape.other) := by
    dsimp only
    infer_instance
  dsimp only at this ⊢
  infer_instance

end Call

section Operand

variable {w : Wall} {rules : Rules} [hr : RulesRespect w rules] {binding : Binding}
  {value keyword : String} {quoted : Bool} {shape : Shape} {item : Option Item}

instance : Respects w (joined rules binding) := by
  unfold joined; infer_instance

instance : Respects w (queryInParentheses rules) := by
  unfold queryInParentheses; infer_instance

instance : Looks startsQuery := by
  unfold startsQuery; infer_instance

instance : Respects w (caseChoice rules) := by
  unfold caseChoice; dsimp only; infer_instance

instance : Respects w castFormat := by
  unfold castFormat; infer_instance

instance : Respects w (castCall rules) := by
  unfold castCall; infer_instance

instance : Respects w (convertCall rules) := by
  unfold convertCall; infer_instance

instance : Respects w (extractCall rules) := by
  unfold extractCall; dsimp only; infer_instance

instance : Respects w (roundingCall rules) := by
  unfold roundingCall; infer_instance

instance : Respects w (positionCall rules) := by
  unfold positionCall; infer_instance

instance : Respects w (substringCall rules) := by
  unfold substringCall; dsimp only; infer_instance

instance : Respects w (overlayCall rules) := by
  unfold overlayCall; infer_instance

instance : Respects w (trimCall rules) := by
  unfold trimCall; infer_instance

instance : Respects w matchCall := by
  unfold matchCall; infer_instance

instance : Respects w (structureValue rules) := by
  unfold structureValue; dsimp only; infer_instance

instance : Respects w (interval rules) := by
  unfold interval; dsimp only; infer_instance

instance : Respects w (arrayEntries rules) := by
  unfold arrayEntries; infer_instance

instance : Respects w (mapEntries rules) := by
  unfold mapEntries; infer_instance

instance : Respects w (braces rules item) := by
  unfold braces; infer_instance

instance : Respects w (keywordOperand rules keyword) := by
  unfold keywordOperand
  refine .dialect ?_
  dsimp only
  split <;> infer_instance

instance {fuel pieces : Nat} : Respects w (nameOrCall rules shape fuel pieces) := by
  induction fuel generalizing pieces with
  | zero => exact .pure
  | succ fuel ih =>
    unfold nameOrCall
    have : Respects w (do
        let item ← next
        match item.map Item.token with
        | some (.word _ _) | some (.string .plain _) => nameOrCall rules shape fuel (pieces + 1)
        | some (.symbol .star) =>
          if (← dialect) == .postgres then return .qualifiedWildcard
          else expected "an identifier after '.'" item
        | _ => expected "an identifier or a '*' after '.'" item) := by
      refine .next (fun item => ?_) fun place => ?_
      · split <;> infer_instance
      · exact Returns.expected
    infer_instance

instance : Respects w (nameOperand rules value quoted) := by
  unfold nameOperand
  refine .peek (fun item => ?_) fun place => ?_
  · split <;> infer_instance
  · exact .pure

instance : Respects w (wordOperand rules value quoted keyword) := by
  unfold wordOperand
  dsimp only
  refine Respects.andThen fun result => ?_
  split
  · infer_instance
  · infer_instance
  · split
    · infer_instance
    · refine Respects.andThen fun result => ?_
      split <;> infer_instance

instance : Respects w (typedLiteral rules) := by
  unfold typedLiteral
  refine Respects.andThen fun shape => ?_
  split <;> infer_instance

instance : Respects w (parenthesis rules) := by
  unfold parenthesis
  dsimp only
  have : Respects w (do
      let item ← next
      match item.map Item.token with
      | some (.word _ _) => pure ()
      | _ => failAt ("Expected identifier, found: " ++ shown item) item
      return Shape.other) := by
    refine .next (fun item => ?_) fun place => ?_
    · split <;> infer_instance
    · exact Returns.bind (p := failAt _ _)
  dsimp only at this
  infer_instance

instance : Respects w (operandFrom rules item) := by
  unfold operandFrom
  refine .dialect ?_
  dsimp only
  split
  case h_5 => split <;> infer_instance
  all_goals infer_instance

instance : Respects w (operand rules) := by
  unfold operand
  have : Respects w (do
    let shape ← operandFrom rules (← next)
    if ← acceptWord "COLLATE" then
      objectName
      return .other
    else return shape) := by
    refine .next (fun item => ?_) fun place => ?_
    · infer_instance
    · have : Returns w (operandFrom rules (some ⟨.symbol .semicolon, "", place⟩)) :=
        Returns.after_look (p := dialect) (f := fun _ => expected "an expression" _)
      infer_instance
  infer_instance

end Operand

section Expression

variable {w : Wall} {rules : Rules} [hr : RulesRespect w rules] {strength : Nat}
  {operator : Option Item}

instance : Looks nextBinding := by
  unfold nextBinding
  refine Looks.andThen fun d => Looks.andThen fun item => ?_
  split
  · split <;> infer_instance
  all_goals infer_instance

instance : Respects w (rightSide rules strength operator) := by
  unfold rightSide
  dsimp only
  refine Respects.andThen fun found => ?_
  split
  · infer_instance
  · refine Respects.andThen fun _ => Respects.andThen fun query => ?_
    split
    · refine Respects.andThen fun _ => Respects.andThen fun _ => ?_
      split <;> infer_instance
    · refine Respects.andThen fun _ => Respects.andThen fun _ => ?_
      split <;> infer_instance

instance : Respects w (predicate rules) := by
  unfold predicate
  refine .current fun start hstart => ?_
  have hset : Respects w (set start : Recognizer PUnit) := .restore hstart
  have : Respects w (do
      if ["NULL", "TRUE", "FALSE", "UNKNOWN"].contains (← peekKeyword) then skip
      else if ← acceptWords ["DISTINCT", "FROM"] then anyExpression rules
      else
        set start
        expectedHere "[NOT] NULL or TRUE|FALSE or [NOT] DISTINCT FROM after IS") := by
    refine .peekKeyword (fun keyword => inferInstance) ?_
    rw [if_neg (by decide)]
    infer_instance
  infer_instance

instance : Respects w (membership rules) := by
  unfold membership; infer_instance

instance : Respects w (pattern rules) := by
  unfold pattern; infer_instance

instance : Respects w (member rules) := by
  unfold member; infer_instance

instance : Respects w (subscript rules) := by
  unfold subscript
  dsimp only
  have : Respects w (do
      if ← accept .rightBracket then return
      anyExpression rules
      if ← accept .rightBracket then return
      require .colon
      if ← accept .rightBracket then return
      anyExpression rules
      require .rightBracket) := by
    infer_instance
  infer_instance

instance : Respects w (operation rules strength) := by
  unfold operation
  refine .dialect ?_
  dsimp only
  refine .next (fun item => ?_) fun place => ?_
  · split
    · split
      · infer_instance
      · split <;> infer_instance
    · infer_instance
    · split
      case h_5 =>
        rw [if_pos (beq_self_eq_true _)]
        infer_instance
      case h_8 => split <;> infer_instance
      all_goals infer_instance
    · infer_instance
  · exact (inferInstance : Returns w (failAt _ _))

instance : Respects w (boundExpression rules strength) := by
  unfold boundExpression; infer_instance

end Expression

end QueryBuild.Query.Grammar
