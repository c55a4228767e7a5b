import QueryBuild.Proofs.Query.Cut
/-!
# Tokens and line ends

A carriage return and the line feed behind it belong to one token, so a token that starts with a
line feed stands behind another character.
-/

namespace QueryBuild.Query

namespace Lexer

open Literal

variable {c : Char} {token : Token} {extra : Nat}

theorem literal_last {quotation : Quotation} {quote : Char} {backslash : Bool} {offset : Nat}
    {text : List Char} (h : literal quotation quote backslash offset text = .ok (token, extra)) :
    ∃ count, extra = offset + count ∧ LastOf text count quote := by
  unfold literal at h
  split at h
  · cases h
    exact ⟨_, rfl, quoted_last ‹_›⟩
  · cases h

theorem opened_last {rest : List Char} (h : opened c rest = some (.ok (token, extra))) :
    ∃ count, extra = 1 + count ∧ LastOf rest count '\'' := by
  unfold opened at h
  split at h
  · exact literal_last (Option.some.inj h)
  split at h
  · exact literal_last (Option.some.inj h)
  split at h
  · replace h := Option.some.inj h
    unfold escapedLiteral at h
    split at h
    · cases h
      exact ⟨_, rfl, cQuoted_last ‹_›⟩
    · cases h
  · cases h

theorem longest_cases {rest : List Char} {alone : Symbol} {table : List (List Char × Symbol)}
    (h : longest alone table rest = .ok (token, extra)) :
    (token = .symbol alone ∧ extra = 0) ∨
      ∃ entry ∈ table, entry.1 <+: rest ∧ token = .symbol entry.2 ∧ extra = entry.1.length := by
  induction table with
  | nil => cases h; exact .inl ⟨rfl, rfl⟩
  | cons entry table ih =>
    unfold longest at h
    split at h
    · cases h
      exact .inr ⟨entry, List.mem_cons_self, List.isPrefixOf_iff_prefix.mp ‹_›, rfl, rfl⟩
    · refine (ih h).imp_right ?_
      rintro ⟨entry, hmem, hentry⟩
      exact ⟨entry, List.mem_cons_of_mem _ hmem, hentry⟩

theorem word_last {rest : List Char} (h : word .duckdb [c] rest = .ok (token, extra)) :
    ¬LastOf rest extra '\r' := by
  intro hlast
  cases h
  rw [List.length_singleton, Nat.sub_self, Nat.zero_add] at hlast
  exact absurd (takeWhile_last hlast) (by decide)

theorem question_last {rest : List Char} (h : question .duckdb rest = .ok (token, extra)) :
    ¬LastOf rest extra '\r' := by
  intro hlast
  have hduckdb : (Dialect.duckdb == .postgres) = false := rfl
  unfold question at h
  rw [hduckdb] at h
  cases h
  exact absurd (takeWhile_last hlast) (by decide)

theorem number_last {rest : List Char} (hstart : c ≠ 'L')
    (h : number (c :: rest) = .ok (token, extra)) : ¬LastOf rest extra '\r' := by
  rintro ⟨hpos, hlast⟩
  have hlt : extra - 1 < rest.length := (List.getElem?_eq_some_iff.mp hlast).1
  have hend : Ends (rest.drop (extra - 1)) := by
    rw [List.drop_eq_getElem_cons hlt, (List.getElem?_eq_some_iff.mp hlast).2]
    exact .char _ (by decide)
  rw [← List.take_append_drop (extra - 1) rest, ← List.cons_append, number_of_append hend] at h
  have hle := number_le hstart h
  rw [List.length_take] at hle
  omega

theorem dollar_last {rest : List Char} (h : dollar rest = .ok (token, extra)) :
    ¬LastOf rest extra '\r' := by
  intro hlast
  unfold dollar at h
  split at h
  · split at h
    · rename_i hcount
      cases h
      have := (dollarQuoted_last hcount).cons (d := '$')
      rw [Nat.add_comm] at this
      cases this.unique hlast
    · cases h
  · dsimp only at h
    split at h
    · rename_i hrest
      split at h
      · rename_i hcount
        cases h
        have := (tagQuoted_last hcount).cons (d := '$')
        rw [← hrest] at this
        have := this.drop
        rw [show ∀ a b : Nat, a + 1 + b = b + 1 + a by omega] at this
        cases this.unique hlast
      · cases h
    · cases h
      exact absurd (takeWhile_last hlast) (by decide)

theorem quotedWord_last {quote : Char} {rest : List Char}
    (h : quotedWord quote rest = .ok (token, extra)) : LastOf rest extra quote := by
  unfold quotedWord at h
  split at h
  · cases h
    exact quoted_last ‹_›
  · cases h

theorem lineComment_last {rest : List Char} (h : lineComment rest = .ok (token, extra))
    (hlast : LastOf rest extra '\r') : rest[extra]? = none := by
  obtain ⟨tail, htail⟩ := List.takeWhile_prefix (p := (· != '\n')) (l := rest)
  cases h
  rcases hdrop : tail with _ | ⟨d, more⟩
  · rw [hdrop, List.append_nil] at htail
    rw [htail]
    simp
  · exfalso
    have hline : d = '\n' := by
      have := List.head?_dropWhile_not (· != '\n') rest
      have hrest : rest.dropWhile (· != '\n') = d :: more := by
        rw [← hdrop]
        exact List.append_cancel_left ((List.takeWhile_append_dropWhile).trans htail.symm)
      rw [hrest] at this
      simpa using this
    generalize rest.takeWhile (· != '\n') = body at htail hlast
    subst hdrop hline htail
    simp [LastOf] at hlast

theorem other_last {rest : List Char} (hquote : c ≠ '\r')
    (h : other c rest = .ok (token, extra)) : ¬LastOf rest extra '\r' := by
  unfold other at h
  split at h
  · intro hlast
    exact hquote ((quotedWord_last h).unique hlast)
  split at h
  · rename_i hstart
    exact number_last (by rintro rfl; exact absurd hstart (by decide)) h
  split at h
  · exact word_last h
  · split at h <;> cases h <;> exact fun hlast => absurd hlast.1 (Nat.lt_irrefl 0)

theorem plain_last {rest : List Char} (h : plain c rest = .ok (token, extra))
    (hlast : (c :: rest)[extra]? = some '\r') : rest[extra]? ≠ some '\n' := by
  have hnot (hc : c ≠ '\r') (hrest : ¬LastOf rest extra '\r') : False := by
    rcases Nat.eq_zero_or_pos extra with rfl | hpos
    · exact hc (Option.some.inj hlast)
    · obtain ⟨n, rfl⟩ : ∃ n, extra = n + 1 := ⟨extra - 1, by omega⟩
      exact hrest ⟨hpos, hlast⟩
  have hzero : ¬LastOf rest 0 '\r' := fun hlast => absurd hlast.1 (Nat.lt_irrefl 0)
  unfold plain at h
  split at h
  case h_4 =>
    cases rest with
    | nil => exact nofun
    | cons d rest =>
      by_cases hd : d = '\n'
      · subst hd
        cases h
        cases hlast
      · have hd' : (some d == some '\n') = false := by simpa using hd
        simp only [List.head?_cons, hd', Bool.false_eq_true, if_false] at h
        cases h
        exact fun hnext => hd (Option.some.inj hnext)
  case h_5 =>
    obtain ⟨count, hcount, hquote⟩ := literal_last h
    rw [Nat.zero_add] at hcount
    subst hcount
    exact (hnot nofun fun hlast => nomatch hquote.unique hlast).elim
  case h_6 => exact (hnot nofun (question_last h)).elim
  case h_7 => exact (hnot nofun (dollar_last h)).elim
  case h_8 => exact (hnot ‹_› (other_last ‹_› h)).elim
  all_goals
    cases h
    exact (hnot nofun hzero).elim

theorem longest_last {rest : List Char} {alone : Symbol} {table : List (List Char × Symbol)}
    (hop : operators c = some (alone, table))
    (h : longest alone table rest = .ok (token, extra)) : (c :: rest)[extra]? ≠ some '\r' := by
  have hstart : c ≠ '\r' := by
    rintro rfl
    cases hop
  intro hlast
  obtain ⟨-, rfl⟩ | ⟨entry, hmem, ⟨more, rfl⟩, -, rfl⟩ := longest_cases h
  · exact hstart (Option.some.inj hlast)
  · rw [← List.cons_append, List.getElem?_append_left (Nat.lt_succ_self _)] at hlast
    rcases List.mem_cons.mp (List.mem_of_getElem? hlast) with hc | hc
    · exact hstart hc.symm
    · exact operators_unbroken hop entry hmem '\r' hc (by decide)

theorem comment_last {rest : List Char} (hcomment : opensComment c rest = true)
    (h : scan .duckdb c rest = .ok (token, extra)) (hlast : (c :: rest)[extra]? = some '\r') :
    rest[extra]? ≠ some '\n' := by
  rcases rest with _ | ⟨d, rest⟩
  · simp [opensComment] at hcomment
  obtain ⟨rfl, rfl⟩ | ⟨rfl, rfl⟩ := opensComment_cons.mp hcomment
  · rw [scan_lineComment] at h
    have hpos : 0 < extra := by
      rcases Nat.eq_zero_or_pos extra with rfl | hpos
      · cases hlast
      · exact hpos
    obtain ⟨n, rfl⟩ : ∃ n, extra = n + 1 := ⟨extra - 1, by omega⟩
    rw [lineComment_last h ⟨hpos, hlast⟩]
    exact (Option.some_ne_none _).symm
  · rw [scan_blockComment] at h
    unfold blockComment at h
    split at h
    · rename_i hcount
      cases h
      have hclose := ((blockComment_last hcount).cons (d := '*')).cons (d := '/')
      rw [Nat.add_comm 1] at hlast
      exact absurd (hclose.unique ⟨Nat.succ_pos _, hlast⟩) (by decide)
    · cases h

theorem scan_last {rest : List Char} (h : scan .duckdb c rest = .ok (token, extra))
    (hlast : (c :: rest)[extra]? = some '\r') : rest[extra]? ≠ some '\n' := by
  obtain ⟨more, rfl, hopened⟩ | hcomment | ⟨alone, table, hop, hlongest⟩ | hplain := scan_cases h
  · obtain ⟨count, rfl, hquote⟩ := opened_last hopened
    have hclose := (hquote.cons (d := '\'')).cons (d := c)
    rw [Nat.add_comm 1] at hlast
    exact absurd (hclose.unique ⟨Nat.succ_pos _, hlast⟩) (by decide)
  · exact comment_last hcomment h hlast
  · exact absurd hlast (longest_last hop hlongest)
  · exact plain_last hplain hlast

end Lexer

end QueryBuild.Query
