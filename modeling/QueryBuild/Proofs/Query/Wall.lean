import QueryBuild.Query.Grammar.Statement
/-!
# Recognisers and semicolons

A semicolon is a wall: what recognises a query stops in front of it. A recogniser that looks at what
it passes can be seen to respect the wall by its parts; one that passes an item unseen is safe only
because the item in front of it could not stand there.
-/

namespace QueryBuild.Query.Grammar

/-- The keyword of the item at an index; empty where there is none. -/
def Source.keyword (source : Source) (index : Nat) : String :=
  (source.items[index]?.map Item.keyword).getD ""

/-- A semicolon in a text, with no word `TABLE` two or three items in front of it: a table as a query
takes that many items unseen. -/
structure Wall where
  source : Source
  index : Nat
  place : Position
  duckdb : source.dialect = .duckdb
  stands : source.items[index]? = some ⟨.symbol .semicolon, "", place⟩
  inSight : ∀ i, source.keyword i = "TABLE" → i + 2 ≠ index ∧ i + 3 ≠ index

/-- A recogniser that does not pass a wall. -/
class Respects {α : Type} (w : Wall) (p : Recognizer α) : Prop where
  respects : ∀ {c a c'}, p w.source c = .ok (a, c') → c.index ≤ w.index → c'.index ≤ w.index

/-- A recogniser that comes back if it starts just behind a wall. -/
class Returns {α : Type} (w : Wall) (p : Recognizer α) : Prop where
  returns : ∀ {c a c'}, p w.source c = .ok (a, c') → c.index = w.index + 1 → c'.index ≤ w.index

/-- A recogniser that only looks ahead. -/
class Looks {α : Type} (p : Recognizer α) : Prop where
  looks : ∀ {source c a c'}, p source c = .ok (a, c') → c' = c

/-- A recogniser that does not pass a wall unless it starts at it. -/
class Advances {α : Type} (w : Wall) (p : Recognizer α) : Prop where
  advances : ∀ {c a c'}, p w.source c = .ok (a, c') → c.index < w.index → c'.index ≤ w.index

/-- A keyword that some word has. -/
class Word (keyword : String) : Prop where
  ne_empty : keyword ≠ ""

/-- Keywords that words have. -/
class Words (keywords : List String) : Prop where
  notMem : "" ∉ keywords

instance {c : Char} {cs : List Char} : Word (no_index (String.ofList (c :: cs))) where
  ne_empty := by simp

instance : Words [] := ⟨by simp⟩

instance {k : String} {ks : List String} [h : Word k] [hs : Words ks] : Words (k :: ks) :=
  ⟨by simp [hs.notMem, h.ne_empty.symm]⟩

/-- A symbol other than the semicolon. -/
class Mark (symbol : Symbol) : Prop where
  ne_semicolon : symbol ≠ .semicolon

instance : Mark .comma := ⟨nofun⟩
instance : Mark .period := ⟨nofun⟩
instance : Mark .colon := ⟨nofun⟩
instance : Mark .equal := ⟨nofun⟩
instance : Mark .less := ⟨nofun⟩
instance : Mark .greater := ⟨nofun⟩
instance : Mark .shiftRight := ⟨nofun⟩
instance : Mark .leftParen := ⟨nofun⟩
instance : Mark .rightParen := ⟨nofun⟩
instance : Mark .leftBracket := ⟨nofun⟩
instance : Mark .rightBracket := ⟨nofun⟩
instance : Mark .leftBrace := ⟨nofun⟩
instance : Mark .rightBrace := ⟨nofun⟩

section Composition

variable {w : Wall} {α β : Type}

theorem bind_ok {p : Recognizer α} {f : α → Recognizer β} {s : Source} {c c' : Cursor} {b : β}
    (h : (p >>= f) s c = .ok (b, c')) :
    ∃ a c1, p s c = .ok (a, c1) ∧ f a s c1 = .ok (b, c') := by
  change (p s c >>= fun x => f x.1 s x.2) = _ at h
  cases hp : p s c with
  | error e => rw [hp] at h; cases h
  | ok x => exact ⟨x.1, x.2, rfl, by rw [hp] at h; exact h⟩

instance Respects.bind {p : Recognizer α} {f : α → Recognizer β} [hp : Respects w p]
    [hf : ∀ a, Respects w (f a)] : Respects w (p >>= f) where
  respects h hc := by
    obtain ⟨a, c1, h1, h2⟩ := bind_ok h
    exact (hf a).respects h2 (hp.respects h1 hc)

theorem Respects.andThen {p : Recognizer α} {f : α → Recognizer β} [Respects w p]
    (hf : ∀ a, Respects w (f a)) : Respects w (p >>= f) :=
  .bind

instance Returns.bind {p : Recognizer α} {f : α → Recognizer β} [hp : Returns w p]
    [hf : ∀ a, Respects w (f a)] : Returns w (p >>= f) where
  returns h hc := by
    obtain ⟨a, c1, h1, h2⟩ := bind_ok h
    exact (hf a).respects h2 (hp.returns h1 hc)

instance Respects.pure {a : α} : Respects w (Pure.pure a) where
  respects h hc := by cases h; exact hc

instance Respects.throw {e : Failure} : Respects w (throw e : Recognizer α) where
  respects h hc := by cases h

instance Respects.ite {c : Prop} [Decidable c] {p q : Recognizer α} [hp : Respects w p]
    [hq : Respects w q] : Respects w (if c then p else q) := by
  split <;> assumption

instance Looks.bind {p : Recognizer α} {f : α → Recognizer β} [hp : Looks p]
    [hf : ∀ a, Looks (f a)] : Looks (p >>= f) where
  looks h := by
    obtain ⟨a, c1, h1, h2⟩ := bind_ok h
    exact ((hf a).looks h2).trans (hp.looks h1)

theorem Looks.andThen {p : Recognizer α} {f : α → Recognizer β} [Looks p] (hf : ∀ a, Looks (f a)) :
    Looks (p >>= f) :=
  .bind

instance Looks.ite {c : Prop} [Decidable c] {p q : Recognizer α} [hp : Looks p] [hq : Looks q] :
    Looks (if c then p else q) := by
  split <;> assumption

instance Looks.pure {a : α} : Looks (Pure.pure a) where
  looks h := by cases h; rfl

instance (priority := low) Looks.respects {p : Recognizer α} [hp : Looks p] : Respects w p where
  respects h hc := hp.looks h ▸ hc

instance (priority := low) Respects.advances {p : Recognizer α} [hp : Respects w p] :
    Advances w p where
  advances h hc := hp.respects h (Nat.le_of_lt hc)

instance Advances.bind {p : Recognizer α} {f : α → Recognizer β} [hp : Advances w p]
    [hf : ∀ a, Respects w (f a)] : Advances w (p >>= f) where
  advances h hc := by
    obtain ⟨a, c1, h1, h2⟩ := bind_ok h
    exact (hf a).respects h2 (hp.advances h1 hc)

instance Advances.after_look {p : Recognizer α} {f : α → Recognizer β} [hp : Looks p]
    [hf : ∀ a, Advances w (f a)] : Advances w (p >>= f) where
  advances h hc := by
    obtain ⟨a, c1, h1, h2⟩ := bind_ok h
    exact (hf a).advances h2 (hp.looks h1 ▸ hc)

instance Returns.after_look {p : Recognizer α} {f : α → Recognizer β} [hp : Looks p]
    [hf : ∀ a, Returns w (f a)] : Returns w (p >>= f) where
  returns h hc := by
    obtain ⟨a, c1, h1, h2⟩ := bind_ok h
    exact (hf a).returns h2 (hp.looks h1 ▸ hc)

instance Advances.ite {c : Prop} [Decidable c] {p q : Recognizer α} [hp : Advances w p]
    [hq : Advances w q] : Advances w (if c then p else q) := by
  split <;> assumption

theorem Respects.peek {f : Option Item → Recognizer α} (hf : ∀ item, Advances w (f item))
    (hs : ∀ place, Respects w (f (some ⟨.symbol .semicolon, "", place⟩))) :
    Respects w (peek >>= f) where
  respects {c a c'} h hc := by
    change f (w.source.items[c.index + 0]?) w.source c = _ at h
    rcases Nat.lt_or_eq_of_le hc with hlt | heq
    · exact (hf _).advances h hlt
    · rw [Nat.add_zero, heq, w.stands] at h
      exact (hs _).respects h hc

theorem Respects.next {f : Option Item → Recognizer α} (hf : ∀ item, Respects w (f item))
    (hs : ∀ place, Returns w (f (some ⟨.symbol .semicolon, "", place⟩))) :
    Respects w (next >>= f) where
  respects {c a c'} h hc := by
    change f (w.source.items[c.index + 0]?) w.source { c with index := c.index + 1 } = _ at h
    rcases Nat.lt_or_eq_of_le hc with hc | hc
    · exact (hf _).respects h hc
    · rw [Nat.add_zero, hc, w.stands] at h
      exact (hs _).returns h rfl

instance {f : Option Item → Recognizer α} [∀ item, Respects w (f item)]
    [∀ place, Returns w (f (some ⟨.symbol .semicolon, "", place⟩))] : Respects w (next >>= f) :=
  .next inferInstance inferInstance

theorem Respects.current {f : Cursor → Recognizer α}
    (hf : ∀ cursor, cursor.index ≤ w.index → Respects w (f cursor)) :
    Respects w (get >>= f) where
  respects {c _ _} h hc := (hf c hc).respects h hc

theorem Respects.restore {cursor : Cursor} (h : cursor.index ≤ w.index) :
    Respects w (set cursor : Recognizer PUnit) where
  respects := by rintro c _ _ ⟨⟩ _; exact h

instance Respects.read : Respects w (read : Recognizer Source) where
  respects := by rintro c _ _ ⟨⟩ hc; exact hc

instance Respects.orM {p q : Recognizer Bool} [Respects w p] [Respects w q] :
    Respects w (p <||> q) := by
  refine Respects.andThen fun b => ?_
  cases b
  · exact (inferInstance : Respects w q)
  · exact .pure

instance Respects.andM {p q : Recognizer Bool} [Respects w p] [Respects w q] :
    Respects w (p <&&> q) := by
  refine Respects.andThen fun b => ?_
  cases b
  · exact .pure
  · exact (inferInstance : Respects w q)

instance Respects.outcome {p : Recognizer α} [hp : Respects w p] : Respects w (outcome p) where
  respects {c a c'} h hc := by
    unfold Grammar.outcome at h
    split at h
    · cases h; exact hp.respects ‹_› hc
    · cases h; exact hc

instance Respects.attempt {p : Recognizer α} [Respects w p] : Respects w (attempt p) := by
  refine Respects.andThen fun result => ?_
  split <;> infer_instance

instance Respects.iterate {step : α → Recognizer (Option α)} [hstep : ∀ a, Respects w (step a)]
    (n : Nat) (a : α) : Respects w (iterate step n a) := by
  induction n generalizing a with
  | zero => exact .pure
  | succ n ih =>
    refine Respects.andThen fun next => ?_
    split <;> infer_instance

instance Respects.repeatFrom {a : α} {step : α → Recognizer (Option α)}
    [∀ a, Respects w (step a)] : Respects w (repeatFrom a step) := by
  unfold Grammar.repeatFrom; infer_instance

instance Respects.nested {p : Recognizer α} [hp : Respects w p] : Respects w (nested p) := by
  refine .current fun start hstart => ?_
  have enter : Respects w (set (⟨start.index, start.depth - 1⟩ : Cursor) : Recognizer PUnit) :=
    .restore hstart
  have leave (a : α) : Respects w (do
      modify fun after : Cursor => { after with depth := start.depth }
      return a) :=
    ⟨by rintro _ _ _ ⟨⟩ hc; exact hc⟩
  dsimp only
  infer_instance

end Composition

section Tokens

variable {w : Wall} {α : Type} {n : Nat} {symbol : Symbol} {keyword message : String}
  {keywords : List String} {item : Option Item}

instance : Looks (peekAt n) where
  looks h := by cases h; rfl

instance : Looks peek := by unfold peek; infer_instance

instance : Looks dialect where
  looks h := by cases h; rfl

instance : Looks peekKeyword := by unfold peekKeyword; infer_instance

instance : Looks (keywordAt n) := by unfold keywordAt; infer_instance

instance : Looks (symbolAt n symbol) := by unfold symbolAt; infer_instance

instance : Advances w skip where
  advances := by rintro _ _ _ ⟨⟩ hc; exact hc

theorem Respects.dialect {f : Dialect → Recognizer α} (h : Respects w (f .duckdb)) :
    Respects w (dialect >>= f) where
  respects := by
    rw [← w.duckdb] at h
    exact h.respects

theorem Respects.peekKeyword {f : String → Recognizer α} (hf : ∀ keyword, Advances w (f keyword))
    (hs : Respects w (f "")) : Respects w (peekKeyword >>= f) :=
  .peek (f := fun item => f ((item.map Item.keyword).getD "")) (fun _ => hf _) fun _ => hs

theorem Respects.symbolAt {f : Bool → Recognizer α} [hm : Mark symbol] (hf : Advances w (f true))
    (hs : Respects w (f false)) : Respects w (symbolAt 0 symbol >>= f) := by
  refine .peek (f := fun item => f (item.map Item.token == some (.symbol symbol)))
    (fun item => ?_) fun place => ?_
  · cases item.map Item.token == some (.symbol symbol) <;> infer_instance
  · have : (some (Token.symbol .semicolon) == some (.symbol symbol)) = false :=
      beq_eq_false_iff_ne.mpr fun h => hm.ne_semicolon (Token.symbol.inj (Option.some.inj h)).symm
    exact this ▸ hs

instance Looks.fail : Looks (fail message : Recognizer α) where
  looks h := by cases h

instance Looks.failAt : Looks (failAt message item : Recognizer α) :=
  Looks.fail

instance Looks.expected : Looks (expected message item : Recognizer α) :=
  Looks.fail

instance Looks.expectedHere : Looks (expectedHere message : Recognizer α) where
  looks h := by cases h

instance : Respects w back where
  respects {c _ _} := by rintro ⟨⟩ hc; exact Nat.le_trans (Nat.sub_le c.index 1) hc

instance : Returns w back where
  returns {c _ _} := by rintro ⟨⟩ hc; exact Nat.le_of_eq (by simp [hc])

instance Returns.fail : Returns w (fail message : Recognizer α) where
  returns h := by cases h

instance Returns.failAt : Returns w (failAt message item : Recognizer α) :=
  Returns.fail

instance Returns.expectedHere : Returns w (expectedHere message : Recognizer α) where
  returns h := by cases h

instance Returns.expected : Returns w (expected message item : Recognizer α) :=
  Returns.fail

theorem skip_of {c c' : Cursor} (h : skip w.source c = .ok ((), c')) (hc : c.index ≤ w.index)
    (hne : c.index ≠ w.index) : c'.index ≤ w.index := by
  cases h
  exact Nat.lt_of_le_of_ne hc hne

instance Respects.accept [hm : Mark symbol] : Respects w (accept symbol) where
  respects {c a c'} h hc := by
    obtain ⟨found, c1, h1, h2⟩ := bind_ok h
    cases h1
    split at h2
    · rename_i hfound
      obtain ⟨_, c2, h3, h4⟩ := bind_ok h2
      cases h4
      refine skip_of h3 hc fun heq => hm.ne_semicolon ?_
      rw [Nat.add_zero, heq, w.stands] at hfound
      exact (Token.symbol.inj (Option.some.inj (eq_of_beq hfound))).symm
    · cases h2; exact hc

instance Respects.acceptWord [hw : Word keyword] : Respects w (acceptWord keyword) where
  respects {c a c'} h hc := by
    obtain ⟨b, c1, h1, h2⟩ := bind_ok h
    cases h1
    split at h2
    · rename_i hb
      obtain ⟨_, c2, h3, h4⟩ := bind_ok h2
      cases h4
      refine skip_of h3 hc fun heq => hw.ne_empty ?_
      rw [Nat.add_zero, heq, w.stands] at hb
      exact (eq_of_beq hb).symm
    · cases h2; exact hc

theorem wordsAt_cursor {source : Source} {c c' : Cursor} {found : Bool}
    (h : wordsAt n keywords source c = .ok (found, c')) : c' = c := by
  induction keywords generalizing n c with
  | nil => cases h; rfl
  | cons keyword keywords ih =>
    unfold wordsAt at h
    obtain ⟨_, c1, h1, h2⟩ := bind_ok h
    cases h1
    split at h2
    · exact ih h2
    · cases h2; rfl

/-- Keywords that come next end in front of the wall, as its semicolon is none of them. -/
theorem wordsAt_le (hmem : "" ∉ keywords) {c c' : Cursor}
    (h : wordsAt n keywords w.source c = .ok (true, c')) (hc : c.index + n ≤ w.index) :
    c.index + n + keywords.length ≤ w.index := by
  induction keywords generalizing n c with
  | nil => exact hc
  | cons keyword keywords ih =>
    rw [List.mem_cons, not_or] at hmem
    unfold wordsAt at h
    obtain ⟨_, c1, h1, h2⟩ := bind_ok h
    cases h1
    split at h2
    · rename_i hfound
      have hne : c.index + n ≠ w.index := fun heq => hmem.1 <| by
        rw [heq, w.stands] at hfound
        exact eq_of_beq hfound
      have := ih hmem.2 h2 (by omega)
      rw [List.length_cons]
      omega
    · cases h2

instance Respects.acceptWords [hw : Words keywords] : Respects w (acceptWords keywords) where
  respects {c a c'} h hc := by
    obtain ⟨found, c1, h1, h2⟩ := bind_ok h
    cases wordsAt_cursor h1
    cases found with
    | false => cases h2; exact hc
    | true =>
      cases h2
      exact wordsAt_le hw.notMem h1 hc

instance Respects.acceptOneOf [hw : Words keywords] : Respects w (acceptOneOf keywords) where
  respects {c a c'} h hc := by
    obtain ⟨b, c1, h1, h2⟩ := bind_ok h
    cases h1
    split at h2
    · rename_i hb
      obtain ⟨_, c2, h3, h4⟩ := bind_ok h2
      cases h4
      refine skip_of h3 hc fun heq => hw.notMem ?_
      rw [Nat.add_zero, heq, w.stands] at hb
      exact List.contains_iff_mem.mp hb
    · cases h2; exact hc

instance : Looks (wordsAt n keywords) where
  looks := wordsAt_cursor

instance [Mark symbol] : Respects w (require symbol) := by
  unfold require; infer_instance

instance [Word keyword] : Respects w (requireWord keyword) := by
  unfold requireWord; infer_instance

instance [hw : Words keywords] : Respects w (requireWords keywords) := by
  have hmem := hw.notMem
  unfold requireWords
  induction keywords with
  | nil => exact .pure
  | cons keyword keywords ih =>
    rw [List.mem_cons, not_or] at hmem
    have : Word keyword := ⟨fun h => hmem.1 h.symm⟩
    have : Words keywords := ⟨hmem.2⟩
    have := ih hmem.2
    exact (inferInstance : Respects w (do requireWord keyword; keywords.forM requireWord))

instance [Words keywords] : Respects w (requireOneOf keywords) := by
  unfold requireOneOf
  refine Respects.andThen fun found => ?_
  split <;> infer_instance

end Tokens

section Combination

variable {w : Wall} {α : Type} {keyword : String} {keywords : List String} {p : Recognizer Unit}
  {trailing : Bool} {close : Symbol} [hp : Respects w p]

instance [Word keyword] : Respects w (afterWord keyword p) := by
  unfold afterWord; infer_instance

instance [Words keywords] : Respects w (afterWords keywords p) := by
  unfold afterWords; infer_instance

instance Respects.parenthesized {p : Recognizer α} [Respects w p] : Respects w (parenthesized p) := by
  unfold Grammar.parenthesized; infer_instance

instance : Respects w (listEnds trailing) := by
  unfold listEnds; infer_instance

instance : Respects w (separatedBy trailing p) := by
  unfold separatedBy; infer_instance

instance : Respects w (commaSeparated p) := by
  unfold commaSeparated; infer_instance

instance : Respects w (commaSeparatedUntil close p) := by
  unfold commaSeparatedUntil
  have (d : Dialect) : Respects w (do
      if d.trailingCommas && (← symbolAt 0 .comma) && (← symbolAt 1 close) then skip
      else commaSeparated p) := by
    refine .symbolAt inferInstance ?_
    simp only [Bool.and_false, Bool.false_and, Bool.false_eq_true, if_false]
    infer_instance
  infer_instance

end Combination

section Names

variable {w : Wall} {reserved : List String}

instance : Respects w identifier := by
  unfold identifier
  refine .next (fun item => ?_) fun place => ?_
  · split <;> infer_instance
  · exact .expected

instance : Respects w name := by
  unfold name; infer_instance

instance : Respects w objectName := by
  unfold objectName; infer_instance

instance {optional : Bool} : Respects w (columnList optional) := by
  unfold columnList; infer_instance

instance : Respects w (alias? reserved) := by
  unfold alias?
  dsimp only
  refine Respects.andThen fun afterAs => .next (fun item => ?_) fun place => ?_
  · split <;> infer_instance
  · cases afterAs
    · exact (inferInstance : Returns w (do back; return false))
    · exact (inferInstance : Returns w (do
        expected "an identifier after AS" (some ⟨.symbol .semicolon, "", place⟩); back; return false))

instance : Respects w wholeNumber := by
  unfold wholeNumber
  dsimp only
  refine .next (fun item => ?_) fun place => ?_
  · split <;> infer_instance
  · exact .expected

instance : Respects w optionalPrecision := by
  unfold optionalPrecision; infer_instance

instance : Respects w optionalPrecisionAndScale := by
  unfold optionalPrecisionAndScale; dsimp only; infer_instance

instance : Respects w literalText := by
  unfold literalText
  refine .next (fun item => ?_) fun place => ?_
  · split <;> infer_instance
  · exact .expected

instance : Respects w placeholderName := by
  unfold placeholderName
  refine .next (fun item => ?_) fun place => ?_
  · split <;> infer_instance
  · exact .expected

instance : Respects w value := by
  unfold value
  refine .next (fun item => ?_) fun place => ?_
  · split <;> infer_instance
  · exact .expected

instance : Respects w dateField := by
  unfold dateField
  dsimp only
  refine Respects.andThen fun d => .next (fun item => ?_) fun place => ?_
  · split <;> infer_instance
  · exact .expected

end Names

end QueryBuild.Query.Grammar
