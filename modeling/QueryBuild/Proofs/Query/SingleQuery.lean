import QueryBuild.Proofs.Query.Clauses
/-!
# A text that holds one query

What a text is made of that is read as one query: semicolons, the tokens that the query rule reads,
and semicolons again or the word `END`.
-/

namespace QueryBuild.Query.Grammar

/-- A semicolon stands at an index. -/
def Source.Semicolon (source : Source) (index : Nat) : Prop :=
  source.items[index]?.map Item.token = some (.symbol .semicolon)

/-- A query starts at an index, as far as its first item tells. -/
def Source.OpensQuery (source : Source) (index : Nat) : Prop :=
  source.items[index]?.map Item.token = some (.symbol .leftParen) ∨
    (∃ value quote, source.items[index]?.map Item.token = some (.word value quote)) ∧
      source.keyword index ∈ ["SELECT", "WITH", "VALUES"]

/-- A text is read as one query, which its rule reads from one index to another. -/
structure QueryRead (source : Source) (start stop : Nat) : Prop where
  before : ∀ i < start, source.Semicolon i
  opens : source.OpensQuery start
  read : ∃ depth c c', c.index = start ∧ c'.index = stop ∧
    rulesWithin depth .query source c = .ok ((), c')
  behind : (∀ i, stop ≤ i → i < source.items.size → source.Semicolon i) ∨
    source.keyword stop = "END"

section Steps

variable {α : Type} {source : Source} {c c' : Cursor} {rules : Rules}

theorem iterate_ok {step : α → Recognizer (Option α)} {n : Nat} {a b : α}
    (h : iterate step (n + 1) a source c = .ok (b, c')) :
    (step a source c = .ok (none, c') ∧ b = a) ∨
      ∃ next c1, step a source c = .ok (some next, c1) ∧
        iterate step n next source c1 = .ok (b, c') := by
  obtain ⟨result, c1, h1, h2⟩ := bind_ok h
  cases result with
  | none => cases h2; exact .inl ⟨h1, rfl⟩
  | some next => exact .inr ⟨next, c1, h1, h2⟩

theorem accept_ok {symbol : Symbol} {found : Bool}
    (h : accept symbol source c = .ok (found, c')) :
    if found then source.items[c.index]?.map Item.token = some (.symbol symbol) ∧
      c'.index = c.index + 1 else c' = c := by
  obtain ⟨_, c1, h1, h2⟩ := bind_ok h
  cases h1
  split at h2
  · rename_i hfound
    cases h2
    exact ⟨eq_of_beq hfound, rfl⟩
  · cases h2
    rfl

theorem semicolons_ok {n : Nat} {found found' : Bool}
    (h : iterate (fun _ => do return if ← accept .semicolon then some true else none) n found
      source c = .ok (found', c')) :
    c.index ≤ c'.index ∧ (∀ i, c.index ≤ i → i < c'.index → source.Semicolon i) ∧
      (found' = false → found = false ∧ c' = c) := by
  induction n generalizing found c with
  | zero =>
    cases h
    exact ⟨Nat.le_refl _, fun i hle hlt => absurd hlt (by omega), fun h => ⟨h, rfl⟩⟩
  | succ n ih =>
    obtain ⟨hstep, rfl⟩ | ⟨next, c1, hstep, hmore⟩ := iterate_ok h
    · obtain ⟨accepted, c1, haccept, hstep⟩ := bind_ok hstep
      cases accepted <;> cases hstep
      cases accept_ok haccept
      exact ⟨Nat.le_refl _, fun i hle hlt => absurd hlt (by omega), fun h => ⟨h, rfl⟩⟩
    · obtain ⟨accepted, c2, haccept, hstep⟩ := bind_ok hstep
      cases accepted <;> cases hstep
      obtain ⟨hsemicolon, hindex⟩ := accept_ok haccept
      obtain ⟨hle, hall, hfound⟩ := ih hmore
      refine ⟨by omega, fun i hi hlt => ?_, fun hnone => absurd (hfound hnone).1 nofun⟩
      rcases Nat.eq_or_lt_of_le hi with rfl | hi
      · exact hsemicolon
      · exact hall i (by omega) hlt

theorem nested_ok {p : Recognizer α} {a : α} (h : nested p source c = .ok (a, c')) :
    ∃ c1 c2, p source c1 = .ok (a, c2) ∧ c1.index = c.index ∧ c2.index = c'.index := by
  obtain ⟨start, c0, h0, h⟩ := bind_ok h
  cases h0
  dsimp only at h
  split at h
  · obtain ⟨_, _, h0, -⟩ := bind_ok h
    cases h0
  · obtain ⟨_, c0, h0, h⟩ := bind_ok h
    cases h0
    obtain ⟨b, c2, h2, h⟩ := bind_ok h
    cases h
    exact ⟨_, c2, h2, rfl, rfl⟩

/-- One round of the loop over statements. -/
def statementStep (rules : Rules) :
    List Statement × Bool → Recognizer (Option (List Statement × Bool)) :=
  fun (found, pending) => do
    let separated ← repeatFrom false fun _ => do
      return if ← accept .semicolon then some true else none
    let pending := pending && !separated
    let item ← peek
    if item.isNone then return none
    if pending then
      if item.map Item.keyword == some "END" then return none
      expected "end of statement" item
    let read ← rules .statement
    return some (read :: found, true)

theorem statements_eq : statements rules = do
    let (found, _) ← repeatFrom (([] : List Statement), false) (statementStep rules)
    return found.reverse :=
  rfl

/-- A round ends the loop at the end of the text or at the word `END` right behind a statement, or
it reads one more statement. -/
theorem statementStep_ok {found : List Statement} {pending : Bool}
    {result : Option (List Statement × Bool)}
    (h : statementStep rules (found, pending) source c = .ok (result, c')) :
    ∃ k, c.index ≤ k ∧ (∀ i, c.index ≤ i → i < k → source.Semicolon i) ∧
      ((result = none ∧
          (source.items.size ≤ k ∨ source.keyword k = "END" ∧ k = c.index ∧ pending = true)) ∨
        ∃ read c1, c1.index = k ∧ rules .statement source c1 = .ok (read, c') ∧
          result = some (read :: found, true)) := by
  unfold statementStep at h
  dsimp only at h
  obtain ⟨separated, c1, hloop, h⟩ := bind_ok h
  obtain ⟨items, c0, hitems, hloop⟩ := bind_ok hloop
  cases hitems
  obtain ⟨hle, hall, hmoved⟩ := semicolons_ok hloop
  refine ⟨c1.index, hle, hall, ?_⟩
  obtain ⟨item, c2, hitem, h⟩ := bind_ok h
  cases hitem
  rw [Nat.add_zero] at h
  split at h
  · rename_i hend
    cases h
    exact .inl ⟨rfl, .inl (by simpa using hend)⟩
  · split at h
    · rename_i hpending
      rw [Bool.and_eq_true, Bool.not_eq_true'] at hpending
      split at h
      · rename_i hword
        cases h
        obtain ⟨-, rfl⟩ := hmoved hpending.2
        refine .inl ⟨rfl, .inr ⟨?_, rfl, hpending.1⟩⟩
        rw [Source.keyword, eq_of_beq hword, Option.getD_some]
      · obtain ⟨_, _, hfail, -⟩ := bind_ok h
        cases hfail
    · obtain ⟨read, c2, hread, h⟩ := bind_ok h
      cases h
      exact .inr ⟨read, c1, rfl, hread, rfl⟩

theorem statements_grow {n : Nat} {state state' : List Statement × Bool}
    (h : iterate (statementStep rules) n state source c = .ok (state', c')) :
    state.1.length ≤ state'.1.length := by
  induction n generalizing state c with
  | zero => cases h; exact Nat.le_refl _
  | succ n ih =>
    obtain ⟨-, rfl⟩ | ⟨next, c1, hstep, hmore⟩ := iterate_ok h
    · exact Nat.le_refl _
    · obtain ⟨k, -, -, ⟨hnone, -⟩ | ⟨read, c2, -, -, hnext⟩⟩ := statementStep_ok hstep
      · cases hnone
      · cases hnext
        exact Nat.le_of_succ_le (ih hmore)

/-- A statement that is a query starts as one and is read by the query rule. -/
theorem statement_query (h : statement rules source c = .ok (.query, c')) :
    source.OpensQuery c.index ∧ ∃ c1 c2, c1.index = c.index ∧ c2.index = c'.index ∧
      rules .query source c1 = .ok ((), c2) := by
  obtain ⟨c1, c2, h, hc1, hc2⟩ := nested_ok h
  rw [← hc1, ← hc2]
  obtain ⟨_, c3, h3, h⟩ := bind_ok h
  cases h3
  obtain ⟨item, c3, h3, h⟩ := bind_ok h
  obtain ⟨hitem, hc3⟩ := next_ok h3
  have hback {c4 : Cursor} (h : (do back; rules .query; return Statement.query) source c3 =
      .ok (.query, c4)) : ∃ c1' c2', c1'.index = c1.index ∧ c2'.index = c4.index ∧
        rules .query source c1' = .ok ((), c2') := by
    obtain ⟨_, c5, h5, h⟩ := bind_ok h
    obtain ⟨_, c6, h6, h⟩ := bind_ok h
    cases h
    cases h5
    exact ⟨_, c4, by show c3.index - 1 = c1.index; omega, rfl, h6⟩
  dsimp only at h
  split at h
  · refine ⟨.inl ?_, hback h⟩
    rw [hitem]
    rfl
  · rename_i value quote keyword _
    split at h
    · rename_i hkeyword
      refine ⟨.inr ⟨⟨value, quote, by rw [hitem]; rfl⟩, ?_⟩, hback h⟩
      rw [Source.keyword, hitem]
      exact List.contains_iff_mem.mp hkeyword
    · split at h
      · obtain ⟨_, _, -, h⟩ := bind_ok h
        cases h
      · split at h
        · obtain ⟨_, _, -, h⟩ := bind_ok h
          split at h <;> obtain ⟨_, _, -, h⟩ := bind_ok h <;> obtain ⟨_, _, -, h⟩ := bind_ok h <;>
            cases h
        · cases h
  · cases h

end Steps

variable {source : Source} {start stop : Nat}

theorem Source.OpensQuery.lt_size (h : source.OpensQuery start) : start < source.items.size := by
  rw [← Nat.not_le]
  intro hle
  have hnone : source.items[start]? = none := Array.getElem?_eq_none hle
  obtain h | ⟨⟨value, quote, h⟩, -⟩ := h <;> rw [hnone] at h <;> cases h

theorem Source.OpensQuery.not_semicolon (h : source.OpensQuery start) :
    ¬source.Semicolon start := by
  intro hsemicolon
  unfold Source.Semicolon at hsemicolon
  obtain h | ⟨⟨value, quote, h⟩, -⟩ := h <;> rw [h] at hsemicolon <;> cases hsemicolon

/-- A text whose only statement is a query is read as one query. -/
theorem queryRead_of_statements {depth levels : Nat} {c : Cursor}
    (h : statements (rulesWithin depth) source ⟨0, levels⟩ = .ok ([.query], c)) :
    ∃ start stop, QueryRead source start stop := by
  rw [statements_eq] at h
  obtain ⟨⟨found, pending⟩, c1, hloop, h⟩ := bind_ok h
  obtain ⟨_, c0, hread, hloop⟩ := bind_ok hloop
  cases hread
  have hfound : found.reverse = [.query] := congrArg Prod.fst (Except.ok.inj h)
  obtain rfl : found = [.query] := by rw [← List.reverse_reverse found, hfound]; rfl
  obtain ⟨-, hnone⟩ | ⟨next, c2, hfirst, hloop⟩ := iterate_ok hloop
  · cases hnone
  obtain ⟨start, -, hbefore, ⟨hnone, -⟩ | ⟨read, c3, hc3, hstatement, hnext⟩⟩ :=
    statementStep_ok hfirst
  · cases hnone
  cases hnext
  subst hc3
  -- Another round would read a second statement.
  have hlast : read = .query ∧
      ((∀ i, c2.index ≤ i → i < source.items.size → source.Semicolon i) ∨
        source.keyword c2.index = "END") := by
    cases hsize : source.items.size with
    | zero =>
      rw [hsize] at hloop
      cases hloop
      exact ⟨rfl, .inl fun i _ hlt => absurd hlt (Nat.not_lt_zero i)⟩
    | succ size =>
      rw [hsize] at hloop
      obtain ⟨hsecond, heq⟩ | ⟨next, c4, hsecond, hmore⟩ := iterate_ok hloop
      · cases heq
        obtain ⟨k, hle, hall, ⟨-, hend⟩ | ⟨_, _, -, -, hnext⟩⟩ := statementStep_ok hsecond
        · refine ⟨rfl, hend.imp (fun hsize' i hi hlt => hall i hi (by omega)) ?_⟩
          rintro ⟨hword, rfl, -⟩
          exact hword
        · cases hnext
      · obtain ⟨k, -, -, ⟨hnone, -⟩ | ⟨_, _, -, -, hnext⟩⟩ := statementStep_ok hsecond
        · cases hnone
        · cases hnext
          have hgrow := statements_grow hmore
          exact absurd (Nat.le_of_succ_le_succ hgrow) (Nat.not_succ_le_zero 0)
  obtain ⟨rfl, hbehind⟩ := hlast
  cases depth with
  | zero => cases hstatement
  | succ depth =>
    obtain ⟨hopens, c4, c5, hc4, hc5, hread⟩ := statement_query hstatement
    exact ⟨c3.index, c2.index, fun i hlt => hbefore i (Nat.zero_le i) hlt, hopens,
      ⟨depth, c4, c5, hc4, hc5, hread⟩, hbehind⟩

/-- A semicolon that the query rule reads follows the word `TABLE` closely. -/
theorem QueryRead.semicolon_behind_table (h : QueryRead source start stop)
    (hduckdb : source.dialect = .duckdb)
    (hword : ∀ item ∈ source.items, item.token = .symbol .semicolon → item.keyword = "")
    {i : Nat} (hstart : start ≤ i) (hstop : i < stop) (hsemicolon : source.Semicolon i) :
    ∃ j, source.keyword j = "TABLE" ∧ (j + 2 = i ∨ j + 3 = i) := by
  refine Classical.byContradiction fun hnone => ?_
  obtain ⟨item, hitem, htoken⟩ := Option.map_eq_some_iff.mp hsemicolon
  have hkeyword := hword item (Array.mem_of_getElem? hitem) htoken
  obtain ⟨token, keyword, place⟩ := item
  subst htoken hkeyword
  let wall : Wall :=
    { source := source, index := i, place := place, duckdb := hduckdb, stands := hitem,
      inSight := fun j hj => ⟨fun heq => hnone ⟨j, hj, .inl heq⟩, fun heq => hnone ⟨j, hj, .inr heq⟩⟩ }
  obtain ⟨depth, c, c', rfl, rfl, hread⟩ := h.read
  have hrule : Respects wall (rulesWithin depth .query) :=
    (rulesWithin_respects depth).respects .query fun hrule => by cases hrule
  exact absurd (hrule.respects hread hstart) (Nat.not_le.mpr hstop)

end QueryBuild.Query.Grammar
