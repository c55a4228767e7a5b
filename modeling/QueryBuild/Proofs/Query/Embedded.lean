import Mathlib.Data.List.DropRight
import QueryBuild.Proofs.Query.SingleQuery
import QueryBuild.Proofs.Query.Terminator
import QueryBuild.Query.Validation
/-!
# A query that was validated, inside parentheses

A text that is accepted as one query is put between parentheses without the terminators at its end.
What then stands between them is what the query rule has read.
-/

namespace QueryBuild.Query

open Grammar

/-- A text is cut into tokens, wherever it stands. -/
def Reads (text : List Char) (tokens : List Token) : Prop :=
  ∀ position, ∃ found, lexemesFrom .duckdb position text = .ok found ∧
    found.map Lexeme.token = tokens

section Reading

variable {text tail more : List Char} {tokens : List Token} {token : Token} {c : Char}

theorem Reads.cons (hscan : Lexer.scan .duckdb c (more ++ text) = .ok (token, more.length))
    (h : Reads text tokens) : Reads (c :: more ++ text) (token :: tokens) := by
  intro position
  obtain ⟨found, hfound, rfl⟩ := h (position.after (c :: more))
  let lexeme : Lexeme := ⟨token, c :: more, position⟩
  have hsource : lexeme.source = c :: more := rfl
  exact ⟨lexeme :: found, lexemesFrom_append hscan (.inl rfl) hsource rfl hfound, rfl⟩

theorem Reads.char (hscan : Lexer.scan .duckdb c text = .ok (token, 0)) (h : Reads text tokens) :
    Reads (c :: text) (token :: tokens) := by
  rw [← List.nil_append text, ← List.cons_append]
  exact .cons hscan h

/-- A text that ends in no separator is cut into the same tokens in front of a semicolon or white
space. -/
theorem reads_append {position : Position} {found : List Lexeme}
    (h : lexemesFrom .duckdb position text = .ok found)
    (hlast : ∀ lexeme ∈ found.getLast?, lexeme.token.isSeparator = false)
    (hbreak : ∀ t ∈ tail.head?, t ∈ breaks) (htail : Reads tail tokens) :
    Reads (text ++ tail) (found.map Lexeme.token ++ tokens) := by
  induction found generalizing position text with
  | nil =>
    rw [lexemesFrom_nil h]
    exact htail
  | cons lexeme found ih =>
    obtain ⟨c, rest, extra, rfl, hscan, -, -, hfound⟩ := lexemesFrom_cons h
    have hseparator (hseparator : lexeme.token.isSeparator = true) : extra < rest.length := by
      refine Classical.byContradiction fun hle => ?_
      rw [List.drop_eq_nil_of_le (Nat.not_lt.mp hle), lexemesFrom] at hfound
      cases hfound
      rw [hlast lexeme rfl] at hseparator
      cases hseparator
    obtain ⟨hscan', hle⟩ := Lexer.scan_append hbreak hscan hseparator
    have hmore : (rest.take extra).length = extra := by
      rw [List.length_take, Nat.min_eq_left hle]
    have htokens := ih hfound fun last hmem => hlast last <| by
      rw [List.getLast?_cons, hmem]
      rfl
    rw [← List.take_append_drop extra rest, List.append_assoc] at hscan'
    rw [← List.take_append_drop extra rest, ← List.cons_append, List.append_assoc]
    exact .cons (by rwa [hmore]) htokens

theorem reads_enclosed {position : Position} {found : List Lexeme}
    (h : lexemesFrom .duckdb position text = .ok found)
    (hlast : ∀ lexeme ∈ found.getLast?, lexeme.token.isSeparator = false)
    (hmore : Reads more tokens) :
    Reads ("COPY (\n".toList ++ text ++ "\n)".toList ++ more)
      ([.word "COPY" none, .space, .symbol .leftParen, .newline] ++ found.map Lexeme.token ++
        [.newline, .symbol .rightParen] ++ tokens) := by
  have hback : Reads ('\n' :: ')' :: more) (.newline :: .symbol .rightParen :: tokens) :=
    .char rfl (.char rfl hmore)
  have htext := reads_append h hlast (by rintro _ ⟨⟩; decide) hback
  have hcopy : lexemesFrom .duckdb .first "COPY (".toList = .ok
      [⟨.word "COPY" none, "COPY".toList, ⟨1, 1⟩⟩, ⟨.space, [' '], ⟨1, 5⟩⟩,
        ⟨.symbol .leftParen, ['('], ⟨1, 6⟩⟩] := by
    decide +kernel
  have hfront : Reads ("COPY (".toList ++ '\n' :: (text ++ '\n' :: ')' :: more))
      ([.word "COPY" none, .space, .symbol .leftParen] ++
        .newline :: (found.map Lexeme.token ++ .newline :: .symbol .rightParen :: tokens)) :=
    reads_append hcopy (by rintro _ ⟨⟩; rfl) (by rintro _ ⟨⟩; decide) (.char rfl htext)
  have hchars : "COPY (\n".toList ++ text ++ "\n)".toList ++ more =
      "COPY (".toList ++ '\n' :: (text ++ '\n' :: ')' :: more) := by
    have hstart : "COPY (\n".toList = "COPY (".toList ++ ['\n'] := by decide +kernel
    have hstop : "\n)".toList = ['\n', ')'] := by decide +kernel
    rw [hstart, hstop]
    simp only [List.append_assoc, List.cons_append, List.nil_append]
  rw [hchars]
  simpa only [List.append_assoc, List.cons_append, List.nil_append] using hfront

end Reading

/-- The items of tokens. -/
def items (found : List Lexeme) : List Item :=
  found.filterMap Item.ofLexeme?

/-- Tokens as they are read by the grammar. -/
def asSource (found : List Lexeme) : Source :=
  ⟨.duckdb, (items found).toArray⟩

section Items

variable {found kept run : List Lexeme} {lexeme : Lexeme} {item : Item}

theorem ofLexeme?_token (h : Item.ofLexeme? lexeme = some item) : item.token = lexeme.token := by
  unfold Item.ofLexeme? at h
  split at h
  · cases h
  · cases h
    rfl

theorem ofLexeme?_semicolon (h : Item.ofLexeme? lexeme = some item)
    (htoken : item.token = .symbol .semicolon) : item.keyword = "" := by
  rw [ofLexeme?_token h] at htoken
  unfold Item.ofLexeme? at h
  rw [htoken] at h
  cases h
  rfl

theorem items_terminates (h : ∀ lexeme ∈ found, lexeme.token.terminates = true) :
    ∀ item ∈ items found, item.token = .symbol .semicolon := by
  intro item hmem
  obtain ⟨lexeme, hlexeme, hitem⟩ := List.mem_filterMap.mp hmem
  rw [ofLexeme?_token hitem]
  have hends := h lexeme hlexeme
  rw [Token.terminates, Bool.or_eq_true] at hends
  rcases hends with hends | hends
  · rw [Item.ofLexeme?, if_pos hends] at hitem
    cases hitem
  · exact eq_of_beq hends

theorem asSource_semicolon_iff {i : Nat} :
    (asSource found).Semicolon i ↔ ∃ item, (items found)[i]? = some item ∧
      item.token = .symbol .semicolon := by
  rw [Source.Semicolon, asSource, List.getElem?_toArray, Option.map_eq_some_iff]

theorem items_last (h : lexeme.token.terminates = false) :
    ∃ item, items (kept ++ [lexeme]) = items kept ++ [item] ∧
      item.token ≠ .symbol .semicolon := by
  rw [Token.terminates, Bool.or_eq_false_iff, beq_eq_false_iff_ne] at h
  obtain ⟨item, hitem⟩ : ∃ item, Item.ofLexeme? lexeme = some item := by
    rw [Item.ofLexeme?, if_neg (by rw [h.1]; exact Bool.false_ne_true)]
    exact ⟨_, rfl⟩
  refine ⟨item, ?_, ?_⟩
  · rw [items, List.filterMap_append, List.filterMap_cons, hitem]
    rfl
  · rw [ofLexeme?_token hitem]
    exact h.2

end Items

/-- How a text that is read as one query is embedded: its tokens are those that are kept and a run
of terminators, which is left out. -/
structure Embedded (sql : String) (kept run : List Lexeme) (start stop : Nat) : Prop where
  tokens : lexemes .duckdb sql = .ok (kept ++ run)
  run_terminates : ∀ lexeme ∈ run, lexeme.token.terminates = true
  kept_ends : ∃ last, kept.getLast? = some last ∧ last.token.terminates = false
  /-- What the query rule reads of the text. -/
  query : QueryRead (asSource (kept ++ run)) start stop
  /-- The query rule reads all that is kept, unless the word `END` stops it. -/
  complete : (items kept).length ≤ stop ∨ (asSource kept).keyword stop = "END"
  /-- A semicolon that is kept stands in front of the query, closely behind the word `TABLE` or
  behind the word `END`. -/
  semicolons : ∀ i, (asSource kept).Semicolon i →
    i < start ∨ (∃ j, (asSource kept).keyword j = "TABLE" ∧ (j + 2 = i ∨ j + 3 = i)) ∨
      (asSource kept).keyword stop = "END" ∧ stop < i
  /-- Where all white space in the run is shown as it is written, the kept tokens are embedded. -/
  embeds : run.all Lexeme.ordinary = true → lexemes .duckdb (stripTerminators sql) = .ok kept
  /-- Between the parentheses of a copy statement stand the kept tokens and two line ends. -/
  encloses : run.all Lexeme.ordinary = true → ∀ more tokens, Reads more tokens →
    Reads ("COPY (\n".toList ++ (stripTerminators sql).toList ++ "\n)".toList ++ more)
      ([.word "COPY" none, .space, .symbol .leftParen, .newline] ++ kept.map Lexeme.token ++
        [.newline, .symbol .rightParen] ++ tokens)
  /-- Where other white space is in the run, only characters are cut off. -/
  trims : run.all Lexeme.ordinary = false →
    stripTerminators sql = String.ofList (Text.dropTail isTerminatorChar sql.toList)

theorem queryRead_of_validate {sql : String} (h : validate .duckdb sql = .ok ()) :
    ∃ found start stop, lexemes .duckdb sql = .ok found ∧
      QueryRead (asSource found) start stop := by
  have hstatements : statements .duckdb sql = .ok [.query] := by
    unfold validate at h
    split at h <;> first | assumption | cases h
  unfold statements at hstatements
  split at hstatements
  · cases hstatements
  · rename_i found hfound
    split at hstatements
    · cases hstatements
    · rename_i read hread
      cases hstatements
      unfold statementsOf Except.map at hread
      dsimp only at hread
      split at hread
      · cases hread
      · rename_i result hrun
        obtain ⟨_, c⟩ := result
        cases hread
        obtain ⟨start, stop, hquery⟩ := queryRead_of_statements hrun
        exact ⟨found, start, stop, hfound, hquery⟩

section Embedding

variable {sql : String} {kept run : List Lexeme} {start stop : Nat}

theorem exists_not_terminates {found : List Lexeme} (h : QueryRead (asSource found) start stop) :
    ∃ lexeme ∈ found, lexeme.token.terminates = false := by
  refine Classical.byContradiction fun hnone => h.opens.not_semicolon ?_
  have hlt := h.opens.lt_size
  rw [asSource, List.size_toArray] at hlt
  refine asSource_semicolon_iff.mpr ⟨(items found)[start], List.getElem?_eq_getElem hlt, ?_⟩
  refine items_terminates (fun lexeme hmem => ?_) _ (List.getElem_mem hlt)
  rw [← Bool.not_eq_false]
  exact fun hends => hnone ⟨lexeme, hmem, hends⟩

theorem items_append : items (kept ++ run) = items kept ++ items run :=
  List.filterMap_append

theorem keyword_append {i : Nat} (hlt : i < (items kept).length) :
    (asSource (kept ++ run)).keyword i = (asSource kept).keyword i := by
  rw [Source.keyword, Source.keyword, asSource, asSource, List.getElem?_toArray,
    List.getElem?_toArray, items_append, List.getElem?_append_left hlt]

theorem semicolon_append {i : Nat} (hlt : i < (items kept).length) :
    (asSource (kept ++ run)).Semicolon i ↔ (asSource kept).Semicolon i := by
  rw [Source.Semicolon, Source.Semicolon, asSource, asSource, List.getElem?_toArray,
    List.getElem?_toArray, items_append, List.getElem?_append_left hlt]

theorem semicolon_lt_length {found : List Lexeme} {i : Nat}
    (h : (asSource found).Semicolon i) : i < (items found).length := by
  obtain ⟨item, hitem, -⟩ := asSource_semicolon_iff.mp h
  exact (List.getElem?_eq_some_iff.mp hitem).1

theorem semicolon_keyword {found : List Lexeme} :
    ∀ item ∈ (asSource found).items, item.token = .symbol .semicolon → item.keyword = "" := by
  intro item hmem htoken
  obtain ⟨lexeme, -, hitem⟩ := List.mem_filterMap.mp (List.mem_toArray.mp hmem)
  exact ofLexeme?_semicolon hitem htoken

/-- The tokens in front of the last run of terminators were read, unless the word `END` stopped the
reading. -/
theorem complete_of_queryRead {last : Lexeme}
    (h : QueryRead (asSource (kept ++ [last] ++ run)) start stop)
    (hlast : last.token.terminates = false) :
    (items (kept ++ [last])).length ≤ stop ∨
      (asSource (kept ++ [last])).keyword stop = "END" := by
  obtain ⟨item, hitems, htoken⟩ : ∃ item, items (kept ++ [last]) = items kept ++ [item] ∧
      item.token ≠ .symbol .semicolon := items_last hlast
  rcases Nat.lt_or_ge stop (items (kept ++ [last])).length with hlt | hle
  · refine .inr ((keyword_append hlt).symm.trans (h.behind.resolve_left fun hbehind => htoken ?_))
    -- All items behind the query are semicolons, but the last one that is kept is none.
    have hindex : (items kept).length < (items (kept ++ [last])).length := by
      rw [hitems, List.length_append]
      exact Nat.lt_succ_self _
    have hsemicolon := hbehind (items kept).length
      (by rw [hitems, List.length_append, List.length_singleton] at hlt; omega)
      (by rw [asSource, List.size_toArray, items_append, List.length_append]; omega)
    obtain ⟨other, hother, htoken'⟩ :=
      asSource_semicolon_iff.mp ((semicolon_append hindex).mp hsemicolon)
    rw [hitems, List.getElem?_concat_length] at hother
    cases hother
    exact htoken'
  · exact .inl hle

/-- Every semicolon that is kept stands in a place where it was not read as the end of the query. -/
theorem semicolons_of_queryRead (h : QueryRead (asSource (kept ++ run)) start stop)
    (hcomplete : (items kept).length ≤ stop ∨ (asSource kept).keyword stop = "END") {i : Nat}
    (hsemicolon : (asSource kept).Semicolon i) :
    i < start ∨ (∃ j, (asSource kept).keyword j = "TABLE" ∧ (j + 2 = i ∨ j + 3 = i)) ∨
      (asSource kept).keyword stop = "END" ∧ stop < i := by
  have hlt := semicolon_lt_length hsemicolon
  rcases Nat.lt_or_ge i start with hstart | hstart
  · exact .inl hstart
  rcases Nat.lt_or_ge i stop with hstop | hstop
  · obtain ⟨j, hword, hnear⟩ := h.semicolon_behind_table rfl semicolon_keyword hstart hstop
      ((semicolon_append hlt).mpr hsemicolon)
    rw [keyword_append (by omega)] at hword
    exact .inr (.inl ⟨j, hword, hnear⟩)
  · have hword := hcomplete.resolve_left (by omega)
    refine .inr (.inr ⟨hword, Nat.lt_of_le_of_ne hstop ?_⟩)
    rintro rfl
    obtain ⟨item, hitem, htoken⟩ := Option.map_eq_some_iff.mp hsemicolon
    have hnone := semicolon_keyword item (Array.mem_of_getElem? hitem) htoken
    rw [Source.keyword, hitem, Option.map_some, Option.getD_some, hnone] at hword
    exact absurd hword (by decide)

/-- A text that is accepted ends in a run of terminators behind a token that is none. -/
theorem split_of_queryRead {found : List Lexeme} (h : QueryRead (asSource found) start stop) :
    ∃ earlier last run, earlier ++ [last] ++ run = found ∧ last.token.terminates = false ∧
      ∀ lexeme ∈ run, lexeme.token.terminates = true := by
  let terminates (lexeme : Lexeme) : Bool := lexeme.token.terminates
  have hne : found.rdropWhile terminates ≠ [] := fun hnil => by
    obtain ⟨lexeme, hmem, hends⟩ := exists_not_terminates h
    have hall : lexeme.token.terminates = true := List.rdropWhile_eq_nil_iff.mp hnil lexeme hmem
    rw [hends] at hall
    cases hall
  refine ⟨(found.rdropWhile terminates).dropLast,
    (found.rdropWhile terminates).getLast hne, found.rtakeWhile terminates, ?_, ?_,
    fun lexeme => List.mem_rtakeWhile_imp⟩
  · rw [List.dropLast_append_getLast hne]
    exact List.rdropWhile_append_rtakeWhile
  · exact eq_false_of_ne_true (List.rdropWhile_last_not terminates found hne)

/-- With a no-break space at the end of a text the comment in front of it is embedded. -/
example :
    validate .duckdb "SELECT 1 -- c\n\u00a0" = .ok () ∧
      stripTerminators "SELECT 1 -- c\n\u00a0" = "SELECT 1 -- c" := by
  decide +kernel

end Embedding

end QueryBuild.Query
