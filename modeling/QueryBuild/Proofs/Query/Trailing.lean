import Mathlib.Data.List.Induction
import QueryBuild.Query.Terminator
/-!
# Terminators cut off by any tokenizer

The terminators at the end of a text are cut off token by token: the text has to end as the last
token is shown, and what is left as the one before. All that this asks of a tokenizer is that its
tokens make up the text, that it knows the characters of terminators, and that it takes a carriage
return and the line feed behind it for one token. Then a run of terminators is cut off exactly if
each of them is shown as it is written; one that is not gives up what was cut off before.
-/

namespace QueryBuild.Query

/-- Whether a token is a semicolon or a separator. -/
def Token.terminates (token : Token) : Bool :=
  token.isSeparator || token == .symbol .semicolon

/-- The text that tokens were read from. -/
def sources (found : List Lexeme) : List Char :=
  found.flatMap Lexeme.source

/-- Whether a token is shown as it is written; the ends of lines are not told apart. -/
def Lexeme.isShown (lexeme : Lexeme) : Bool :=
  lexeme.token == .newline || lexeme.token.text.toList == lexeme.source

/-- A terminator with characters that it may be read from. -/
inductive Written : Token → List Char → Prop
  | semicolon : Written (.symbol .semicolon) [';']
  | space {c : Char} (h : Text.isBlank c = true) : Written .space [c]
  | tab : Written .tab ['\t']
  | newline {source : List Char} (h : source ∈ lineEnds) : Written .newline source
  | comment (text : String) : Written (.comment text) text.toList

/-- What is asked of a tokenizer. Its tokens make up the text, terminators are read from their
characters, and a line feed that starts a token does not stand behind a carriage return. -/
structure Faithful (tokenize : Tokenizer) : Prop where
  complete : ∀ text found, tokenize text = .ok found → sources found = text
  written : ∀ text found, tokenize text = .ok found →
    ∀ lexeme ∈ found, lexeme.token.terminates = true → Written lexeme.token lexeme.source
  -- said of the text in front, since tokens that are read from nothing may stand between the two
  apart : ∀ text before lexeme after, tokenize text = .ok (before ++ lexeme :: after) →
    lexeme.source.head? = some '\n' → (sources before).getLast? ≠ some '\r'

variable {text : List Char} {lexeme : Lexeme} {before after kept run : List Lexeme}

@[simp] theorem sources_nil : sources [] = [] := rfl

@[simp] theorem sources_cons :
    sources (lexeme :: after) = lexeme.source ++ sources after := rfl

@[simp] theorem sources_append : sources (before ++ after) = sources before ++ sources after :=
  List.flatMap_append

/-! ### The end of a text -/

theorem stripFront?_append {α : Type} [BEq α] [LawfulBEq α] (front text : List α) :
    Text.stripFront? front (front ++ text) = some text := by
  induction front with
  | nil => cases text <;> rfl
  | cons c front ih => rw [List.cons_append, Text.stripFront?, if_pos (beq_self_eq_true c), ih]

theorem stripFront?_of_head {α : Type} [BEq α] [LawfulBEq α] {c : α} {front text : List α}
    (h : text.head? ≠ some c) : Text.stripFront? (c :: front) text = none := by
  cases text with
  | nil => rfl
  | cons d text =>
    rw [Text.stripFront?, if_neg]
    exact fun hc => h (congrArg some (eq_of_beq hc))

theorem withoutLast_of_kept {token : Token} (h : token.terminates = false)
    (backwards : List Char) : withoutLast token backwards = none := by
  cases token with
  | symbol symbol => cases symbol <;> first | rfl | cases h
  | _ => first | rfl | cases h

/-- The end of a line is cut off as it was read, since no line feed stands alone behind a carriage
return. -/
theorem withoutLast_newline {source front : List Char} (hsource : source ∈ lineEnds)
    (hreturn : source.head? = some '\n' → front.getLast? ≠ some '\r') :
    withoutLast .newline (source.reverse ++ front.reverse) = some (some front.reverse) := by
  simp only [lineEnds, List.mem_cons, List.not_mem_nil, or_false] at hsource
  rcases hsource with rfl | rfl | rfl
  · rfl
  · have hnone : Text.stripFront? ['\r'] front.reverse = none :=
      stripFront?_of_head (by rw [List.head?_reverse]; exact hreturn rfl)
    simp [withoutLast, lineEnds, Text.stripFront?, hnone]
  · rfl

/-- White space that is not shown as it is written is not found at the end of the text. -/
theorem withoutLast_space (c : Char) (backwards : List Char) :
    withoutLast .space (c :: backwards) =
      some (if [' '] = [c] then some backwards else none) := by
  by_cases hc : c = ' '
  · subst hc
    exact congrArg some (stripFront?_append [' '] backwards)
  · rw [if_neg fun heq => hc (List.cons.inj heq).1.symm]
    exact congrArg some (stripFront?_of_head fun h => hc (Option.some.inj h))

/-- A terminator is cut off the text that it ends, if it is shown as it is written. -/
theorem Written.withoutLast {front : List Char} (h : Written lexeme.token lexeme.source)
    (hreturn : lexeme.source.head? = some '\n' → front.getLast? ≠ some '\r') :
    withoutLast lexeme.token (lexeme.source.reverse ++ front.reverse) =
      some (if lexeme.isShown then some front.reverse else none) := by
  obtain ⟨token, source, position⟩ := lexeme
  have hcases : Written token source := h
  cases hcases with
  | semicolon =>
    have hshown : Lexeme.isShown ⟨.symbol .semicolon, [';'], position⟩ = true := by
      simp [Lexeme.isShown, Token.text, Symbol.text]
    rw [if_pos hshown]
    exact congrArg some (stripFront?_append [';'] _)
  | @space c _ =>
    have hshown : Lexeme.isShown ⟨.space, [c], position⟩ = true ↔ [' '] = [c] := by
      simp [Lexeme.isShown, Token.text]
    rw [List.reverse_singleton, List.singleton_append, withoutLast_space]
    simp only [hshown]
  | tab =>
    have hshown : Lexeme.isShown ⟨.tab, ['\t'], position⟩ = true := by
      simp [Lexeme.isShown, Token.text]
    rw [if_pos hshown]
    change withoutLast .tab ('\t' :: front.reverse) = _
    exact congrArg some (stripFront?_append ['\t'] _)
  | newline hsource =>
    have hshown : Lexeme.isShown ⟨.newline, source, position⟩ = true := rfl
    rw [if_pos hshown]
    exact withoutLast_newline hsource hreturn
  | comment shown =>
    have hshown : Lexeme.isShown ⟨.comment shown, shown.toList, position⟩ = true := by
      simp [Lexeme.isShown, Token.text]
    rw [if_pos hshown]
    exact congrArg some (stripFront?_append _ _)

/-! ### Runs of terminators -/

theorem reverse_map_token_concat (found : List Lexeme) (last : Lexeme) :
    (found ++ [last]).reverse.map Lexeme.token = last.token :: found.reverse.map Lexeme.token := by
  rw [List.reverse_append, List.reverse_singleton, List.singleton_append, List.map_cons]

theorem reverse_sources_concat (found : List Lexeme) (last : Lexeme) :
    (sources (found ++ [last])).reverse = last.source.reverse ++ (sources found).reverse := by
  rw [sources_append, sources_cons, sources_nil, List.append_nil, List.reverse_append]

theorem dropTerminators_of_kept (hkept : ∀ lexeme ∈ kept.getLast?, lexeme.token.terminates = false)
    (backwards : List Char) :
    dropTerminators (kept.reverse.map Lexeme.token) backwards = some backwards := by
  rcases List.eq_nil_or_concat kept with rfl | ⟨earlier, last, rfl⟩
  · rfl
  · rw [List.concat_eq_append, List.getLast?_concat] at hkept
    rw [List.concat_eq_append, reverse_map_token_concat, dropTerminators,
      withoutLast_of_kept (hkept last rfl)]

/-- One terminator is cut off if it is shown as it is written, and else all is given up. -/
theorem dropTerminators_concat {found : List Lexeme} {last : Lexeme}
    (hlast : Written last.token last.source)
    (hreturn : last.source.head? = some '\n' → (sources found).getLast? ≠ some '\r') :
    dropTerminators ((found ++ [last]).reverse.map Lexeme.token)
        (sources (found ++ [last])).reverse =
      if last.isShown then
        dropTerminators (found.reverse.map Lexeme.token) (sources found).reverse
      else none := by
  rw [reverse_map_token_concat, reverse_sources_concat, dropTerminators, hlast.withoutLast hreturn]
  cases last.isShown <;> rfl

/-- Terminators are cut off as far as tokens in front of them, if all of them are shown as they are
written. -/
theorem dropTerminators_run (hkept : ∀ lexeme ∈ kept.getLast?, lexeme.token.terminates = false)
    (hrun : ∀ lexeme ∈ run, Written lexeme.token lexeme.source)
    (hreturn : ∀ before lexeme after, kept ++ run = before ++ lexeme :: after →
      lexeme.source.head? = some '\n' → (sources before).getLast? ≠ some '\r') :
    dropTerminators ((kept ++ run).reverse.map Lexeme.token) (sources (kept ++ run)).reverse =
      if run.all Lexeme.isShown then some (sources kept).reverse else none := by
  induction run using List.reverseRecOn with
  | nil =>
    rw [List.append_nil, List.all_nil, if_pos rfl]
    exact dropTerminators_of_kept hkept _
  | append_singleton run last ih =>
    have hlast := hrun last (List.mem_append_right _ List.mem_cons_self)
    have hrun' : ∀ lexeme ∈ run, Written lexeme.token lexeme.source :=
      fun lexeme hmem => hrun lexeme (List.mem_append_left _ hmem)
    have hfeed := hreturn (kept ++ run) last [] (by rw [List.append_assoc])
    have hreturn' := fun before lexeme after
        (h : kept ++ run = before ++ lexeme :: after) => hreturn before lexeme (after ++ [last])
      (by rw [← List.append_assoc, h, List.append_assoc, List.cons_append])
    rw [← List.append_assoc, dropTerminators_concat hlast hfeed, ih hrun' hreturn',
      List.all_append, List.all_cons, List.all_nil, Bool.and_true]
    cases run.all Lexeme.isShown <;> cases last.isShown <;> rfl

/-- What is left of a text whose tokens end in a run of terminators: the text of the tokens in front
of the run if all of it is shown as it is written, and else the text without the semicolons and
white space at its end. -/
theorem Faithful.stripTerminatorsWith_eq {tokenize : Tokenizer} (h : Faithful tokenize)
    (hfound : tokenize text = .ok (kept ++ run))
    (hkept : ∀ lexeme ∈ kept.getLast?, lexeme.token.terminates = false)
    (hrun : ∀ lexeme ∈ run, lexeme.token.terminates = true) :
    stripTerminatorsWith tokenize text =
      if run.all Lexeme.isShown then sources kept else Text.dropTail isTerminatorChar text := by
  have hwritten : ∀ lexeme ∈ run, Written lexeme.token lexeme.source := fun lexeme hmem =>
    h.written text _ hfound lexeme (List.mem_append_right _ hmem) (hrun lexeme hmem)
  have hreturn := fun before lexeme after (heq : kept ++ run = before ++ lexeme :: after) =>
    h.apart text before lexeme after (heq ▸ hfound)
  have hdrop := dropTerminators_run hkept hwritten hreturn
  rw [h.complete text _ hfound] at hdrop
  unfold stripTerminatorsWith
  simp only [hfound, hdrop]
  cases run.all Lexeme.isShown with
  | true => exact List.reverse_reverse _
  | false => rfl

end QueryBuild.Query
