import Mathlib.Data.List.TakeWhile
import QueryBuild.Program.Render
import QueryBuild.Proofs.Program.Literal
import QueryBuild.Query.Validation
/-!
# Generated programs as C++ reads them

A generated program has the same tokens for all units and queries, but for three literals. The
statement that it sends to the database is put together from strings that end at the first null
character of their literals. So the query is sent as it was validated exactly if it holds no null
character.
-/

namespace QueryBuild

namespace Program

open Cpp CppLiteral

/-! ### Tokens -/

/-- The tokens in front of the unit's name. -/
def unitTokens : List Token :=
  [.directive "include <duckdb.hpp>", .directive "include <iostream>", .directive "include <string>",
    .word "int", .word "main", .symbol "(", .symbol ")", .symbol "\x7b",
    .word "const", .word "char", .symbol "*", .word "unit", .symbol "="]

/-- The tokens between the unit's name and the query. -/
def queryTokens : List Token :=
  [.symbol ";",
    .word "duckdb", .symbol "::", .word "DuckDB", .word "db", .symbol "(", .word "nullptr",
    .symbol ")", .symbol ";",
    .word "duckdb", .symbol "::", .word "Connection", .word "con", .symbol "(", .word "db",
    .symbol ")", .symbol ";",
    .word "const", .word "std", .symbol "::", .word "string", .word "query", .symbol "="]

/-- The tokens between the query and the output file. -/
def outputTokens : List Token :=
  [.symbol ";",
    .word "const", .word "std", .symbol "::", .word "string", .word "copy_sql", .symbol "=",
    .literal "COPY (\n".toList, .symbol "+", .word "query", .symbol "+",
    .literal "\n) TO ".toList, .symbol "+"]

/-- The tokens after the output file. -/
def lastTokens : List Token :=
  [.symbol "+", .literal " WITH (FORMAT CSV, HEADER)".toList, .symbol ";",
    .word "auto", .word "result", .symbol "=", .word "con", .symbol ".", .word "Query", .symbol "(",
    .word "copy_sql", .symbol ")", .symbol ";",
    .word "if", .symbol "(", .word "result", .symbol "->", .word "HasError", .symbol "(",
    .symbol ")", .symbol ")", .symbol "\x7b",
    .word "std", .symbol "::", .word "cerr", .symbol "<<", .word "unit", .symbol "<<",
    .literal ": ".toList, .symbol "<<", .word "result", .symbol "->", .word "GetError",
    .symbol "(", .symbol ")", .symbol "<<", .word "std", .symbol "::", .word "endl", .symbol ";",
    .word "return", .word "1", .symbol ";", .symbol "\x7d",
    .word "return", .word "0", .symbol ";", .symbol "\x7d"]

/-- The tokens of a program with the name of a unit, a query and the literal of an output file. -/
def tokens (unit query output : List Char) : List Token :=
  unitTokens ++ .literal unit :: (queryTokens ++ .literal query ::
    (outputTokens ++ .literal output :: lastTokens))

/-- A fixed part of programs: what it is read as, and that nothing in it changes before. -/
structure Fixed (text : String) (before : Mode) (tokens : List Token) (after : Mode) : Prop where
  feed : feed before text.toList = (tokens, after)
  chain : text.toList.IsChain Apart
  starts : ∃ c rest, text.toList = c :: rest ∧ isWordChar c = false

theorem toList_append_ofList {front : String} {chars more : List Char} (h : front.toList = chars) :
    (front ++ String.ofList more).toList = chars ++ more := by
  rw [String.toList_append, String.toList_ofList, h]

theorem fixed_of_chars {text : String} {chars : List Char} {before after : Mode}
    {tokens : List Token} (h : text.toList = chars) (hfeed : Cpp.feed before chars = (tokens, after))
    (hchain : chars.IsChain Apart) (hstarts : ∃ c rest, chars = c :: rest ∧ isWordChar c = false) :
    Fixed text before tokens after := by
  subst h
  exact ⟨hfeed, hchain, hstarts⟩

theorem fixed_beforeUnit : Fixed beforeUnit .fresh unitTokens .between :=
  fixed_of_chars
    (toList_append_ofList (toList_append_ofList (toList_append_ofList (toList_append_ofList
      (toList_append_ofList (toList_append_ofList String.toList_ofList))))))
    (by decide +kernel) (by decide +kernel) ⟨_, _, rfl, by decide⟩

theorem fixed_beforeQuery : Fixed beforeQuery .between queryTokens .fresh :=
  fixed_of_chars
    (toList_append_ofList (toList_append_ofList (toList_append_ofList (toList_append_ofList
      (toList_append_ofList (toList_append_ofList String.toList_ofList))))))
    (by decide +kernel) (by decide +kernel) ⟨_, _, rfl, by decide⟩

theorem fixed_beforeOutput : Fixed beforeOutput .between outputTokens .between :=
  fixed_of_chars
    (toList_append_ofList (toList_append_ofList (toList_append_ofList String.toList_ofList)))
    (by decide +kernel) (by decide +kernel) ⟨_, _, rfl, by decide⟩

theorem fixed_afterOutput : Fixed afterOutput .between lastTokens .fresh :=
  fixed_of_chars
    (toList_append_ofList (toList_append_ofList (toList_append_ofList (toList_append_ofList
      (toList_append_ofList (toList_append_ofList (toList_append_ofList (toList_append_ofList
        String.toList_ofList))))))))
    (by decide +kernel) (by decide +kernel) ⟨_, _, rfl, by decide⟩

/-- Tokens between literals, which they keep apart. -/
structure Piece (tokens : List Token) : Prop where
  first : ∃ token rest, tokens = token :: rest ∧ token.isLiteral = false
  last : ∃ front token, tokens = front ++ [token] ∧ token.isLiteral = false
  joined : joinLiterals tokens = tokens

theorem piece_unitTokens : Piece unitTokens :=
  ⟨⟨_, _, rfl, rfl⟩, ⟨unitTokens.dropLast, .symbol "=", rfl, rfl⟩, rfl⟩

theorem piece_queryTokens : Piece queryTokens :=
  ⟨⟨_, _, rfl, rfl⟩, ⟨queryTokens.dropLast, .symbol "=", rfl, rfl⟩, rfl⟩

theorem piece_outputTokens : Piece outputTokens :=
  ⟨⟨_, _, rfl, rfl⟩, ⟨outputTokens.dropLast, .symbol "+", rfl, rfl⟩, rfl⟩

theorem piece_lastTokens : Piece lastTokens :=
  ⟨⟨_, _, rfl, rfl⟩, ⟨lastTokens.dropLast, .symbol "\x7d", rfl, rfl⟩, rfl⟩

theorem Piece.joinLiterals_append {tokens : List Token} (h : Piece tokens) (rest : List Token) :
    joinLiterals (tokens ++ rest) = tokens ++ joinLiterals rest := by
  obtain ⟨front, token, rfl, htoken⟩ := h.last
  rw [List.append_assoc, List.singleton_append, joinLiterals_split front htoken, h.joined,
    List.append_assoc, List.singleton_append]

/-- What characters are read as, with adjacent literals put together. -/
def joined (mode : Mode) (text : List Char) : List Token × Mode :=
  (joinLiterals (Cpp.feed mode text).1, (Cpp.feed mode text).2)

theorem Fixed.joined_append {text : String} {before after : Mode} {tokens : List Token}
    (h : Fixed text before tokens after) (hpiece : Piece tokens) {rest : List Char}
    {later : List Token} {last : Mode} (hrest : joined after rest = (later, last)) :
    joined before (text.toList ++ rest) = (tokens ++ later, last) := by
  obtain ⟨hlater, hlast⟩ := Prod.mk.inj hrest
  rw [joined, feed_append, h.feed]
  dsimp only
  rw [hpiece.joinLiterals_append, hlater, hlast]

theorem Fixed.joined_literal {text : String} {tokens : List Token} {after mode : Mode}
    (h : Fixed text .between tokens after) (hpiece : Piece tokens)
    (hmode : mode = .fresh ∨ mode = .between) (value : List Char) {rest : List Char}
    {later : List Token} {last : Mode} (hrest : joined after rest = (later, last)) :
    joined mode (encodeChars value ++ (text.toList ++ rest)) =
      (.literal value :: (tokens ++ later), last) := by
  obtain ⟨c, chars, hchars, hc⟩ := h.starts
  obtain ⟨pieces, piece, hwhole, hfeed⟩ := feed_encodeChars_append hmode value hc (chars ++ rest)
  obtain ⟨htokens, hmodes⟩ := Prod.mk.inj (h.joined_append hpiece hrest)
  rw [hchars, List.cons_append] at htokens hmodes ⊢
  rw [joined, hfeed]
  dsimp only
  rw [hmodes, joinLiterals_literals, hwhole, htokens]
  intro token htoken
  rw [← List.cons_append, ← hchars, feed_append, h.feed] at htoken
  obtain ⟨first, more, hfirst, hnot⟩ := hpiece.first
  rw [hfirst] at htoken
  cases htoken
  exact hnot

theorem toList_source (u : BuildUnit) (sql : String) :
    (render u sql).source.toList =
      beforeUnit.toList ++ (encodeChars u.name.toList ++ (beforeQuery.toList ++
        (encodeChars (Query.stripTerminators sql).toList ++ (beforeOutput.toList ++
          (encodeChars (SqlLiteral.encode u.output.text).toList ++ afterOutput.toList))))) := by
  simp only [render, encode, String.toList_append, String.toList_ofList, List.append_assoc]

theorem isChain_source (u : BuildUnit) (sql : String) :
    (render u sql).source.toList.IsChain Apart := by
  have hliteral : ∀ (value rest : List Char), rest.IsChain Apart →
      (encodeChars value ++ rest).IsChain Apart ∧
        (encodeChars value ++ rest).head? = some '"' := by
    intro value rest hrest
    obtain ⟨hchain, hlast⟩ := isChain_encodeChars value
    refine ⟨isChain_append hchain hrest (Or.inl (by rw [hlast]; simp)), ?_⟩
    rw [List.head?_append, head?_encodeChars]
    rfl
  have hfixed : ∀ (text rest : List Char), text.IsChain Apart →
      rest.IsChain Apart ∧ rest.head? = some '"' → (text ++ rest).IsChain Apart := by
    intro text rest hchain hrest
    exact isChain_append hchain hrest.1 (Or.inr (by rw [hrest.2]; simp))
  rw [toList_source]
  apply hfixed _ _ fixed_beforeUnit.chain
  apply hliteral
  apply hfixed _ _ fixed_beforeQuery.chain
  apply hliteral
  apply hfixed _ _ fixed_beforeOutput.chain
  apply hliteral
  exact fixed_afterOutput.chain

/-- The tokens of a program are those of all programs, but for three literals: these are the name
of the unit, the query and the literal of the output file, whatever is in them. -/
theorem tokens?_source (u : BuildUnit) (sql : String) :
    tokens? (render u sql).source.toList =
      some (tokens u.name.toList (Query.stripTerminators sql).toList
        (SqlLiteral.encode u.output.text).toList) := by
  have hnothing : joined .fresh [] = ([], .fresh) := rfl
  have hlast := fixed_afterOutput.joined_literal piece_lastTokens (Or.inr rfl)
    (SqlLiteral.encode u.output.text).toList hnothing
  have houtput := fixed_beforeOutput.joined_literal piece_outputTokens (Or.inl rfl)
    (Query.stripTerminators sql).toList hlast
  have hquery := fixed_beforeQuery.joined_literal piece_queryTokens (Or.inr rfl) u.name.toList
    houtput
  have hunit := fixed_beforeUnit.joined_append piece_unitTokens hquery
  rw [List.append_nil, ← toList_source, List.append_nil] at hunit
  have hchain := isChain_source u sql
  obtain ⟨htokens, hmode⟩ := Prod.mk.inj hunit
  rw [tokens?, replaceTrigraphs_of_isChain hchain, joinLines_of_isChain hchain]
  cases hread : Cpp.feed .fresh (render u sql).source.toList with
  | mk read mode =>
    rw [hread] at htokens hmode
    dsimp only at htokens hmode
    rw [hmode]
    dsimp only
    rw [htokens]
    rfl

/-! ### The statement -/

/-- The statement that a program is to send to the database: the result of the query goes into the
output file, whose path is quoted. -/
def statement (u : BuildUnit) (sql : String) : List Char :=
  "COPY (\n".toList ++ (Query.stripTerminators sql).toList ++ "\n) TO ".toList ++
    ('\'' :: SqlLiteral.double u.output.text.toList ++ ['\'']) ++
    " WITH (FORMAT CSV, HEADER)".toList

theorem constant?_tokens (unit query output : List Char) :
    constant? (tokens unit query output) "copy_sql" =
      some ("COPY (\n".toList ++ untilNull query ++ "\n) TO ".toList ++ untilNull output ++
        " WITH (FORMAT CSV, HEADER)".toList) := by
  rfl

theorem untilNull_eq_self {text : List Char} : untilNull text = text ↔ '\x00' ∉ text := by
  rw [untilNull, List.takeWhile_eq_self_iff]
  simp only [bne_iff_ne, ne_eq]
  constructor
  · intro h hmem
    exact h _ hmem rfl
  · intro h c hc heq
    exact h (heq ▸ hc)

/-- What is cut off at null characters is missed, wherever it stood. -/
theorem untilNull_between_iff (front between back text other : List Char) :
    front ++ untilNull text ++ between ++ untilNull other ++ back =
        front ++ text ++ between ++ other ++ back ↔
      untilNull text = text ∧ untilNull other = other := by
  constructor
  · intro h
    have htext : untilNull text <+: text := List.takeWhile_prefix _
    have hother : untilNull other <+: other := List.takeWhile_prefix _
    have hlength := congrArg List.length h
    simp only [List.length_append] at hlength
    have hle := htext.length_le
    have hle' := hother.length_le
    exact ⟨htext.eq_of_length (by omega), hother.eq_of_length (by omega)⟩
  · intro h
    rw [h.1, h.2]

theorem mem_double {c : Char} {text : List Char} : c ∈ SqlLiteral.double text ↔ c ∈ text := by
  rw [SqlLiteral.double, List.mem_flatMap]
  constructor
  · intro h
    obtain ⟨d, hd, hc⟩ := h
    split at hc
    · rename_i hquote
      simp at hc
      rw [hc, ← beq_iff_eq.mp hquote]
      exact hd
    · rwa [List.mem_singleton.mp hc]
  · intro h
    refine ⟨c, h, ?_⟩
    split
    · rename_i hquote
      simp [beq_iff_eq.mp hquote]
    · exact List.mem_singleton_self c

theorem toList_encode (text : String) :
    (SqlLiteral.encode text).toList = '\'' :: SqlLiteral.double text.toList ++ ['\''] :=
  String.toList_ofList

theorem mem_encode_null {text : String} :
    '\x00' ∈ (SqlLiteral.encode text).toList ↔ '\x00' ∈ text.toList := by
  have hquote : '\x00' ≠ '\'' := by decide
  rw [toList_encode]
  simp [hquote, mem_double]

theorem sends_iff_no_null (u : BuildUnit) (sql : String) :
    constant? (tokens u.name.toList (Query.stripTerminators sql).toList
        (SqlLiteral.encode u.output.text).toList) "copy_sql" = some (statement u sql) ↔
      '\x00' ∉ (Query.stripTerminators sql).toList ∧ '\x00' ∉ u.output.text.toList := by
  have hsent := constant?_tokens u.name.toList (Query.stripTerminators sql).toList
    (SqlLiteral.encode u.output.text).toList
  have hcut := untilNull_between_iff "COPY (\n".toList "\n) TO ".toList
    " WITH (FORMAT CSV, HEADER)".toList (Query.stripTerminators sql).toList
    (SqlLiteral.encode u.output.text).toList
  rw [untilNull_eq_self, untilNull_eq_self, mem_encode_null] at hcut
  have hstatement : statement u sql = "COPY (\n".toList ++ (Query.stripTerminators sql).toList ++
      "\n) TO ".toList ++ ('\'' :: SqlLiteral.double u.output.text.toList ++ ['\'']) ++
      " WITH (FORMAT CSV, HEADER)".toList := rfl
  rw [← toList_encode u.output.text] at hstatement
  rw [hsent, hstatement, Option.some.injEq]
  exact hcut

/-- Nothing in the unit's name, the query or the path of the output file changes the tokens of a
program, but for the literals that hold them. The program sends the statement with the query exactly
if there is no null character in the query or the path. -/
theorem sends_statement_iff (u : BuildUnit) (sql : String) :
    ∃ read, tokens? (render u sql).source.toList = some read ∧
      read = tokens u.name.toList (Query.stripTerminators sql).toList
        (SqlLiteral.encode u.output.text).toList ∧
      constant? read "copy_sql" =
        some ("COPY (\n".toList ++ untilNull (Query.stripTerminators sql).toList ++
          "\n) TO ".toList ++ untilNull (SqlLiteral.encode u.output.text).toList ++
          " WITH (FORMAT CSV, HEADER)".toList) ∧
      (constant? read "copy_sql" = some (statement u sql) ↔
        '\x00' ∉ (Query.stripTerminators sql).toList ∧ '\x00' ∉ u.output.text.toList) :=
  ⟨_, tokens?_source u sql, rfl, constant?_tokens u.name.toList (Query.stripTerminators sql).toList
    (SqlLiteral.encode u.output.text).toList, sends_iff_no_null u sql⟩

/-- A query with a null character in a string is valid, but the program sends only what is in front
of that character. -/
theorem null_cuts_query :
    let u := BuildUnit.ofSource "q" ⟨"/w/q.sql"⟩
    let sql := "SELECT 'a\x00b'"
    Query.validate .duckdb sql = .ok () ∧
      ∃ read, tokens? (render u sql).source.toList = some read ∧
        constant? read "copy_sql" =
          some "COPY (\nSELECT 'a\n) TO '/w/q.csv' WITH (FORMAT CSV, HEADER)".toList ∧
        constant? read "copy_sql" ≠ some (statement u sql) := by
  have hvalid : Query.validate .duckdb "SELECT 'a\x00b'" = .ok () := by decide +kernel
  have hquery : (Query.stripTerminators "SELECT 'a\x00b'").toList = "SELECT 'a\x00b'".toList := by
    decide +kernel
  have houtput : (SqlLiteral.encode (BuildUnit.ofSource "q" ⟨"/w/q.sql"⟩).output.text).toList =
      "'/w/q.csv'".toList := by
    decide +kernel
  have hsent := constant?_tokens "q".toList (Query.stripTerminators "SELECT 'a\x00b'").toList
    (SqlLiteral.encode (BuildUnit.ofSource "q" ⟨"/w/q.sql"⟩).output.text).toList
  refine ⟨hvalid, _, tokens?_source _ _, ?_, ?_⟩
  · refine hsent.trans ?_
    rw [hquery, houtput]
    decide
  · rw [ne_eq, sends_iff_no_null, hquery]
    decide

end Program

end QueryBuild
