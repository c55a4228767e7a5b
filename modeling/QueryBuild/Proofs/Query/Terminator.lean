import Mathlib.Data.List.DropRight
import QueryBuild.Proofs.Query.LineEnd
import QueryBuild.Proofs.Query.Trailing
/-!
# What is left of a text without its terminators

The tokens of a text are put together to it again. The terminators at its end are cut off token by
token, so that the tokens in front of them are left; with white space among them that is shown in
another way than it is written, they are cut off character by character.
-/

namespace QueryBuild.Query

/-- A semicolon or a separator with the characters that it is read from. -/
inductive Terminator : Token → List Char → Prop
  | semicolon : Terminator (.symbol .semicolon) [';']
  | space {c : Char} (h : Text.isBlank c = true) : Terminator .space [c]
  | tab : Terminator .tab ['\t']
  | newline {source : List Char} (h : source ∈ lineEnds) : Terminator .newline source
  | lineComment (rest : List Char) :
    Terminator (.comment (String.ofList ('-' :: '-' :: rest))) ('-' :: '-' :: rest)
  | blockComment (rest : List Char) :
    Terminator (.comment (String.ofList ('/' :: '*' :: rest))) ('/' :: '*' :: rest)

namespace Lexer

open Literal

variable {c : Char} {rest : List Char} {token : Token} {extra : Nat}

theorem opened_not_terminates (h : opened c rest = some (.ok (token, extra))) :
    token.terminates = false := by
  unfold opened literal escapedLiteral at h
  repeat' split at h
  all_goals first
    | (cases h; done)
    | (cases h; rfl)

theorem operators_semicolon {alone : Symbol} {table : List (List Char × Symbol)}
    (h : operators c = some (alone, table)) (hc : c ≠ ';') :
    .semicolon ∉ alone :: table.map Prod.snd := by
  unfold operators at h
  split at h <;> first | (cases h; decide) | (cases h; contradiction) | cases h

theorem number_not_terminates {text : List Char} (h : number text = .ok (token, extra)) :
    token.terminates = false := by
  unfold number sym at h
  dsimp only at h
  split at h
  · cases h; rfl
  · split at h <;> cases h <;> rfl

theorem dollar_not_terminates (h : dollar rest = .ok (token, extra)) :
    token.terminates = false := by
  unfold dollar at h
  dsimp only at h
  repeat' split at h
  all_goals first
    | (cases h; done)
    | (cases h; rfl)

theorem other_terminates (h : other c rest = .ok (token, extra)) (hends : token.terminates = true) :
    Terminator token (c :: rest.take extra) := by
  unfold other at h
  split at h
  · unfold quotedWord at h
    split at h <;> cases h
    cases hends
  split at h
  · rw [number_not_terminates h] at hends
    cases hends
  split at h
  · cases h
    cases hends
  · split at h
    · cases h
      exact .space ‹_›
    · cases h
      cases hends

theorem plain_terminates (h : plain c rest = .ok (token, extra)) (hends : token.terminates = true) :
    Terminator token (c :: rest.take extra) := by
  unfold plain at h
  split at h
  case h_1 => cases h; exact .space (by decide)
  case h_2 => cases h; exact .tab
  case h_3 => cases h; exact .newline (List.mem_cons_of_mem _ List.mem_cons_self)
  case h_4 =>
    cases h
    refine .newline ?_
    split
    · rename_i hnext
      obtain ⟨more, rfl⟩ := List.head?_eq_some_iff.mp (eq_of_beq hnext)
      exact List.mem_cons_self
    · exact List.mem_cons_of_mem _ (List.mem_cons_of_mem _ List.mem_cons_self)
  case h_5 =>
    unfold literal at h
    split at h <;> cases h
    cases hends
  case h_6 =>
    have hduckdb : (Dialect.duckdb == .postgres) = false := rfl
    unfold question at h
    rw [hduckdb] at h
    cases h
    cases hends
  case h_7 =>
    rw [dollar_not_terminates h] at hends
    cases hends
  case h_8 => exact other_terminates h hends

theorem lineComment_terminates (h : lineComment ('-' :: rest) = .ok (token, extra)) :
    Terminator token ('-' :: ('-' :: rest).take extra) := by
  have hbody := List.takeWhile_prefix (p := (· != '\n')) (l := rest)
  have htext := append_prefix_of_drop hbody (List.take_prefix 1 _)
  have hstart : ('-' :: rest).takeWhile (· != '\n') = '-' :: rest.takeWhile (· != '\n') := rfl
  unfold lineComment at h
  simp only [hstart, List.length_cons, List.drop_succ_cons, List.cons_append] at h
  cases h
  rw [List.take_succ_cons, ← List.prefix_iff_eq_take.mp htext]
  exact .lineComment _

theorem blockComment_terminates (h : blockComment rest = .ok (token, extra)) :
    Terminator token ('/' :: ('*' :: rest).take extra) := by
  unfold blockComment at h
  split at h
  · rename_i count _
    cases h
    rw [Nat.add_comm, List.take_succ_cons]
    exact .blockComment _
  · cases h

theorem comment_terminates (hcomment : opensComment c rest = true)
    (h : scan .duckdb c rest = .ok (token, extra)) : Terminator token (c :: rest.take extra) := by
  rcases rest with _ | ⟨d, rest⟩
  · simp [opensComment] at hcomment
  obtain ⟨rfl, rfl⟩ | ⟨rfl, rfl⟩ := opensComment_cons.mp hcomment
  · rw [scan_lineComment] at h
    exact lineComment_terminates h
  · rw [scan_blockComment] at h
    exact blockComment_terminates h

theorem longest_terminates {alone : Symbol} {table : List (List Char × Symbol)}
    (hop : operators c = some (alone, table)) (h : longest alone table rest = .ok (token, extra))
    (hends : token.terminates = true) : Terminator token (c :: rest.take extra) := by
  by_cases hc : c = ';'
  · subst hc
    cases hop
    cases h
    exact .semicolon
  · exfalso
    have hnone := operators_semicolon hop hc
    have hsymbol {symbol : Symbol} (htoken : token = .symbol symbol) : symbol = .semicolon := by
      simpa [htoken, Token.terminates, Token.isSeparator] using hends
    obtain ⟨rfl, -⟩ | ⟨entry, hmem, -, rfl, -⟩ := longest_cases h
    · exact hnone (hsymbol rfl ▸ List.mem_cons_self)
    · exact hnone (hsymbol rfl ▸ List.mem_cons_of_mem _ (List.mem_map_of_mem hmem))

theorem scan_terminates (h : scan .duckdb c rest = .ok (token, extra))
    (hends : token.terminates = true) : Terminator token (c :: rest.take extra) := by
  obtain ⟨more, rfl, hopened⟩ | hcomment | ⟨alone, table, hop, hlongest⟩ | hplain := scan_cases h
  · rw [opened_not_terminates hopened] at hends
    cases hends
  · exact comment_terminates hcomment h
  · exact longest_terminates hop hlongest hends
  · exact plain_terminates hplain hends

end Lexer

section Sources

variable {d : Dialect} {position : Position} {text : List Char} {lexeme : Lexeme}
  {found before after : List Lexeme}

theorem lexemesFrom_nil (h : lexemesFrom d position text = .ok []) : text = [] := by
  cases text with
  | nil => rfl
  | cons c rest =>
    rw [lexemesFrom] at h
    split at h
    · cases h
    · dsimp only at h
      split at h <;> cases h

theorem lexemesFrom_cons (h : lexemesFrom d position text = .ok (lexeme :: found)) :
    ∃ c rest extra, text = c :: rest ∧ Lexer.scan d c rest = .ok (lexeme.token, extra) ∧
      lexeme.source = c :: rest.take extra ∧ lexeme.position = position ∧
        lexemesFrom d (position.after lexeme.source) (rest.drop extra) = .ok found := by
  cases text with
  | nil =>
    rw [lexemesFrom] at h
    cases h
  | cons c rest =>
    rw [lexemesFrom] at h
    split at h
    · cases h
    · rename_i token extra hscan
      dsimp only at h
      split at h
      · cases h
      · cases h
        exact ⟨c, rest, extra, rfl, hscan, rfl, rfl, ‹_›⟩

/-- Nothing of a text is lost in its tokens. -/
theorem sources_of_lexemesFrom (h : lexemesFrom d position text = .ok found) :
    sources found = text := by
  induction found generalizing position text with
  | nil => rw [lexemesFrom_nil h, sources_nil]
  | cons lexeme found ih =>
    obtain ⟨c, rest, extra, rfl, -, hsource, -, hfound⟩ := lexemesFrom_cons h
    rw [sources_cons, ih hfound, hsource, List.cons_append, List.take_append_drop]

theorem lexemesFrom_append {c : Char} {more : List Char} {extra : Nat}
    (hscan : Lexer.scan d c (more ++ text) = .ok (lexeme.token, extra))
    (hextra : more.length = extra ∨ more.length ≤ extra ∧ text = [])
    (hsource : lexeme.source = c :: more) (hposition : lexeme.position = position)
    (hfound : lexemesFrom d (position.after lexeme.source) text = .ok found) :
    lexemesFrom d position (c :: more ++ text) = .ok (lexeme :: found) := by
  have htake : (more ++ text).take extra = more := by
    rcases hextra with rfl | ⟨hle, rfl⟩
    · exact List.take_left
    · rw [List.append_nil, List.take_of_length_le hle]
  have hdrop : (more ++ text).drop extra = text := by
    rcases hextra with rfl | ⟨hle, rfl⟩
    · exact List.drop_left
    · rw [List.append_nil, List.drop_eq_nil_of_le hle]
  rw [hsource] at hfound
  rw [List.cons_append, lexemesFrom, hscan]
  simp only [htake, hdrop, hfound]
  cases lexeme
  cases hsource
  cases hposition
  rfl

/-- The tokens in front of the start of a separator are those of the text in front of it. -/
theorem lexemesFrom_of_append (h : lexemesFrom .duckdb position text = .ok (before ++ after))
    (hend : Ends (sources after)) : lexemesFrom .duckdb position (sources before) = .ok before := by
  induction before generalizing position text with
  | nil => rw [sources_nil, lexemesFrom]
  | cons lexeme before ih =>
    rw [List.cons_append] at h
    obtain ⟨c, rest, extra, rfl, hscan, hsource, hposition, hfound⟩ := lexemesFrom_cons h
    have hbefore := ih hfound
    have hrest := sources_of_lexemesFrom hfound
    rw [sources_append] at hrest
    rw [sources_cons, hsource, List.cons_append]
    rw [← List.take_append_drop extra rest, ← hrest, ← List.append_assoc] at hscan
    rcases Nat.lt_or_ge rest.length extra with hlt | hle
    · -- The token takes the whole text, so that nothing stands behind it.
      rw [List.drop_eq_nil_of_le (Nat.le_of_lt hlt), List.append_eq_nil_iff] at hrest
      rw [hrest.1] at hbefore ⊢
      rw [hrest.1, hrest.2, List.append_nil] at hscan
      exact lexemesFrom_append hscan (.inr ⟨List.length_take_le _ _, rfl⟩) hsource hposition
        hbefore
    · have hlength : (rest.take extra).length = extra := by
        rw [List.length_take, Nat.min_eq_left hle]
      have hshort := Lexer.scan_of_append hend hscan (by rw [List.length_append]; omega)
      exact lexemesFrom_append hshort (.inl hlength) hsource hposition hbefore

/-- A line feed that starts a token does not stand behind a carriage return. -/
theorem getLast?_ne_return (h : lexemesFrom .duckdb position text = .ok (before ++ lexeme :: after))
    (hfeed : lexeme.source.head? = some '\n') : (sources before).getLast? ≠ some '\r' := by
  induction before generalizing position text with
  | nil => exact nofun
  | cons first before ih =>
    rw [List.cons_append] at h
    obtain ⟨c, rest, extra, rfl, hscan, hsource, -, hfound⟩ := lexemesFrom_cons h
    have hrest := sources_of_lexemesFrom hfound
    intro hlast
    rw [sources_cons, List.getLast?_append] at hlast
    cases hmore : (sources before).getLast? with
    | some d =>
      rw [hmore, Option.some_or] at hlast
      exact ih hfound (hmore.trans hlast)
    | none =>
      rw [hmore, Option.none_or, hsource] at hlast
      rw [sources_append, List.getLast?_eq_none_iff.mp hmore, List.nil_append,
        sources_cons] at hrest
      have hnext : rest[extra]? = some '\n' := by
        rw [← List.head?_drop, ← hrest, List.head?_append, hfeed, Option.some_or]
      have hlt : extra < rest.length := (List.getElem?_eq_some_iff.mp hnext).1
      refine Lexer.scan_last hscan ?_ hnext
      rw [← hlast, List.getLast?_eq_getElem?, List.length_cons, List.length_take,
        Nat.min_eq_left (Nat.le_of_lt hlt), Nat.add_sub_cancel, ← List.take_succ_cons,
        List.getElem?_take_of_lt (Nat.lt_succ_self extra)]

theorem terminator_of_lexemesFrom (h : lexemesFrom .duckdb position text = .ok found) :
    ∀ lexeme ∈ found, lexeme.token.terminates = true → Terminator lexeme.token lexeme.source := by
  induction found generalizing position text with
  | nil => nofun
  | cons first found ih =>
    obtain ⟨c, rest, extra, rfl, hscan, hsource, -, hfound⟩ := lexemesFrom_cons h
    intro lexeme hmem hends
    rcases List.mem_cons.mp hmem with rfl | hmem
    · rw [hsource]
      exact Lexer.scan_terminates hscan hends
    · exact ih hfound lexeme hmem hends

end Sources

section Cut

variable {position : Position} {text : List Char} {lexeme : Lexeme} {kept run : List Lexeme}

/-- Whether a token is shown as it is written if it is white space; line ends are not looked at. -/
def Lexeme.ordinary (lexeme : Lexeme) : Bool :=
  lexeme.token != .space || lexeme.source == [' ']

theorem Terminator.ends {token : Token} {source : List Char} (h : Terminator token source)
    (hordinary : token = .space → source = [' ']) (rest : List Char) : Ends (source ++ rest) := by
  cases h with
  | semicolon => exact .char rest (by decide)
  | space => rw [hordinary rfl]; exact .char rest (by decide)
  | tab => exact .char rest (by decide)
  | newline h =>
    simp only [lineEnds, List.mem_cons, List.not_mem_nil, or_false] at h
    rcases h with rfl | rfl | rfl <;> exact .char _ (by decide)
  | lineComment => exact .lineComment _
  | blockComment => exact .blockComment _

theorem Terminator.written {token : Token} {source : List Char} (h : Terminator token source) :
    Written token source := by
  have hcomment : ∀ text : List Char, Written (.comment (String.ofList text)) text := by
    intro text
    have hwritten := Written.comment (String.ofList text)
    rwa [String.toList_ofList] at hwritten
  cases h with
  | semicolon => exact .semicolon
  | space hblank => exact .space hblank
  | tab => exact .tab
  | newline hends => exact .newline hends
  | lineComment rest => exact hcomment _
  | blockComment rest => exact hcomment _

theorem Written.isShown_eq (h : Written lexeme.token lexeme.source) :
    lexeme.isShown = lexeme.ordinary := by
  obtain ⟨token, source, position⟩ := lexeme
  have hcases : Written token source := h
  cases hcases with
  | @space c _ =>
    rw [Bool.eq_iff_iff]
    simp [Lexeme.isShown, Lexeme.ordinary, Token.text, eq_comm (a := ' ')]
  | _ => simp [Lexeme.isShown, Lexeme.ordinary, Token.text, Symbol.text]

/-- The tokens of SQL are those of a tokenizer by which terminators can be cut off. -/
theorem faithful_lexemesFrom (position : Position) : Faithful (lexemesFrom .duckdb position) where
  complete _ _ h := sources_of_lexemesFrom h
  written _ _ h lexeme hmem hends := (terminator_of_lexemesFrom h lexeme hmem hends).written
  apart _ _ _ _ h := getLast?_ne_return h

/-- What is left of a text whose tokens end in a run of terminators: the text of the tokens in front
of the run if its white space is shown as it is written, and else the text without the semicolons
and white space at its end. -/
theorem stripTerminatorsFrom_of_lexemes
    (h : lexemesFrom .duckdb .first text = .ok (kept ++ run))
    (hkept : ∀ lexeme ∈ kept.getLast?, lexeme.token.terminates = false)
    (hrun : ∀ lexeme ∈ run, lexeme.token.terminates = true) :
    stripTerminatorsFrom text =
      if run.all Lexeme.ordinary then sources kept else Text.dropTail isTerminatorChar text := by
  have hfaithful := faithful_lexemesFrom .first
  have hshown : run.all Lexeme.isShown = run.all Lexeme.ordinary := by
    rw [Bool.eq_iff_iff, List.all_eq_true, List.all_eq_true]
    apply forall₂_congr
    intro lexeme hmem
    rw [(hfaithful.written text _ h lexeme (List.mem_append_right _ hmem)
      (hrun lexeme hmem)).isShown_eq]
  rw [stripTerminatorsFrom, hfaithful.stripTerminatorsWith_eq h hkept hrun, hshown]

/-- The tokens of a text that is left by cutting a run of terminators off. -/
theorem lexemesFrom_stripTerminatorsFrom
    (h : lexemesFrom .duckdb .first text = .ok (kept ++ run))
    (hkept : ∀ lexeme ∈ kept.getLast?, lexeme.token.terminates = false)
    (hrun : ∀ lexeme ∈ run, lexeme.token.terminates = true)
    (hordinary : run.all Lexeme.ordinary = true) :
    lexemesFrom .duckdb .first (stripTerminatorsFrom text) = .ok kept := by
  rw [stripTerminatorsFrom_of_lexemes h hkept hrun, if_pos hordinary]
  refine lexemesFrom_of_append h ?_
  cases run with
  | nil => exact .nil
  | cons first run =>
    have hfirst := terminator_of_lexemesFrom h first
      (List.mem_append_right _ List.mem_cons_self) (hrun first List.mem_cons_self)
    rw [List.all_cons, Bool.and_eq_true] at hordinary
    refine hfirst.ends (fun htoken => ?_) _
    simpa [Lexeme.ordinary, htoken] using hordinary.1

end Cut

section Exactness

/-- What is left of a text with any faithful tokenizer: if the text has tokens and each one of the
longest run of terminators at their end is shown as it is written, the text of the tokens in front
of that run; and if one of them is not, or the text has no tokens, the text without the semicolons
and white space at its end. Either is a front part of the text. -/
theorem stripTerminatorsWith_exact (tokenize : Tokenizer) (h : Faithful tokenize)
    (text : List Char) :
    let result := stripTerminatorsWith tokenize text
    let trimmed := text.rdropWhile isTerminatorChar
    (∀ found, tokenize text = .ok found →
      let run := found.rtakeWhile fun lexeme => lexeme.token.terminates
      ((∀ lexeme ∈ run, lexeme.isShown = true) →
        result = sources (found.rdropWhile fun lexeme => lexeme.token.terminates)) ∧
      ((∃ lexeme ∈ run, lexeme.isShown = false) → result = trimmed)) ∧
    (∀ e, tokenize text = .error e → result = trimmed) ∧
    result <+: text := by
  intro result trimmed
  have hsplit : ∀ found : List Lexeme, (found.rdropWhile fun lexeme => lexeme.token.terminates) ++
      (found.rtakeWhile fun lexeme => lexeme.token.terminates) = found :=
    fun found => List.rdropWhile_append_rtakeWhile
  have hresult : ∀ found, tokenize text = .ok found → result =
      if (found.rtakeWhile fun lexeme => lexeme.token.terminates).all Lexeme.isShown then
        sources (found.rdropWhile fun lexeme => lexeme.token.terminates)
      else trimmed := by
    intro found hfound
    rw [← hsplit found] at hfound
    refine h.stripTerminatorsWith_eq hfound ?_ fun lexeme => List.mem_rtakeWhile_imp
    intro lexeme hlast
    obtain ⟨hne, rfl⟩ := List.mem_getLast?_eq_getLast hlast
    exact eq_false_of_ne_true (List.rdropWhile_last_not _ found hne)
  have herror : ∀ e, tokenize text = .error e → result = trimmed := by
    intro e hnone
    change stripTerminatorsWith tokenize text = _
    rw [stripTerminatorsWith, hnone]
    rfl
  refine ⟨?_, herror, ?_⟩
  · intro found hfound run
    rw [hresult found hfound]
    constructor
    · intro hshown
      rw [if_pos (List.all_eq_true.mpr hshown)]
    · intro hcase
      obtain ⟨lexeme, hmem, hnot⟩ := hcase
      rw [if_neg]
      intro hall
      rw [List.all_eq_true.mp hall lexeme hmem] at hnot
      cases hnot
  · have htrimmed : trimmed <+: text := List.rdropWhile_prefix _ text
    cases hfound : tokenize text with
    | error e => exact herror e hfound ▸ htrimmed
    | ok found =>
      rw [hresult found hfound]
      split
      · refine ⟨sources (found.rtakeWhile fun lexeme => lexeme.token.terminates), ?_⟩
        rw [← sources_append, hsplit, h.complete text found hfound]
      · exact htrimmed

/-- A comment and a semicolon are cut off with the blanks around them, and a no-break space gives
up the comment in front of it. -/
theorem exact_behind_comment :
    Faithful (lexemesFrom .duckdb .first) ∧
      stripTerminatorsFrom "1; -- c".toList = "1".toList ∧
      stripTerminatorsFrom "1-- c\n\u00a0".toList = "1-- c".toList := by
  have hfaithful := faithful_lexemesFrom .first
  refine ⟨hfaithful, ?_, ?_⟩
  · obtain ⟨hok, -, -⟩ := stripTerminatorsWith_exact _ hfaithful "1; -- c".toList
    exact (hok [⟨.number "1" false, ['1'], ⟨1, 1⟩⟩, ⟨.symbol .semicolon, [';'], ⟨1, 2⟩⟩,
      ⟨.space, [' '], ⟨1, 3⟩⟩, ⟨.comment "-- c", "-- c".toList, ⟨1, 4⟩⟩]
      (by decide +kernel)).1 (by decide +kernel)
  · obtain ⟨hok, -, -⟩ := stripTerminatorsWith_exact _ hfaithful "1-- c\n\u00a0".toList
    have htrimmed := (hok [⟨.number "1" false, ['1'], ⟨1, 1⟩⟩,
      ⟨.comment "-- c\n", "-- c\n".toList, ⟨1, 2⟩⟩, ⟨.space, ['\u00a0'], ⟨2, 1⟩⟩]
      (by decide +kernel)).2 (by decide +kernel)
    exact htrimmed.trans (by decide +kernel)

end Exactness

end QueryBuild.Query
