import QueryBuild.Proofs.Program.Rendered
/-!
# Quoted texts as SQL reads them

An SQL string literal goes from its opening quote to the first quote that is not doubled. The texts
that are read from a source in this way are exactly those whose literals it starts with, so the path
of an output file is read to its end, whatever quotes are in it.
-/

namespace QueryBuild

namespace SqlLiteral

/-- The text of a literal behind its opening quote, and what follows the literal. A doubled quote
stands for one, any other quote ends the literal, and nothing else has a meaning of its own. -/
def inside : List Char → Option (List Char × List Char)
  | [] => none
  | '\'' :: '\'' :: rest => (inside rest).map fun (text, after) => ('\'' :: text, after)
  | '\'' :: rest => some ([], rest)
  | c :: rest => (inside rest).map fun (text, after) => (c :: text, after)

/-- The text of the literal that a source starts with, and what follows the literal. -/
def read? : List Char → Option (String × List Char)
  | '\'' :: rest => (inside rest).map fun (text, after) => (String.ofList text, after)
  | _ => none

theorem double_quote (text : List Char) : double ('\'' :: text) = '\'' :: '\'' :: double text :=
  rfl

theorem double_cons {c : Char} (h : c ≠ '\'') (text : List Char) :
    double (c :: text) = c :: double text := by
  have hc : (c == '\'') = false := beq_eq_false_iff_ne.mpr h
  rw [double, List.flatMap_cons, hc]
  rfl

/-- The quotes of a text are read in pairs, and the quote behind it has no partner. -/
theorem inside_double (text : List Char) {rest : List Char} (h : rest.head? ≠ some '\'') :
    inside (double text ++ '\'' :: rest) = some (text, rest) := by
  induction text with
  | nil =>
    rw [double, List.flatMap_nil, List.nil_append, inside]
    rintro after rfl
    exact h rfl
  | cons c text ih =>
    by_cases hc : c = '\''
    · rw [hc, double_quote, List.cons_append, List.cons_append, inside, ih]
      rfl
    · rw [double_cons hc, List.cons_append, inside, ih]
      · rfl
      · rintro _ rfl
        exact absurd rfl hc
      · exact hc

/-- Nothing but the inside of a literal is read. -/
theorem of_inside {source text rest : List Char} (h : inside source = some (text, rest)) :
    source = double text ++ '\'' :: rest ∧ rest.head? ≠ some '\'' := by
  fun_induction inside source generalizing text with
  | case1 => cases h
  | case2 source ih =>
    obtain ⟨⟨more, after⟩, hmore, hsame⟩ := Option.map_eq_some_iff.mp h
    cases hsame
    obtain ⟨hsource, hend⟩ := ih hmore
    rw [double_quote, List.cons_append, List.cons_append, ← hsource]
    exact ⟨rfl, hend⟩
  | case3 source hnot =>
    cases h
    refine ⟨rfl, fun hhead => ?_⟩
    obtain ⟨after, rfl⟩ := List.head?_eq_some_iff.mp hhead
    exact hnot after rfl
  | case4 c source hpair hquote ih =>
    obtain ⟨⟨more, after⟩, hmore, hsame⟩ := Option.map_eq_some_iff.mp h
    cases hsame
    obtain ⟨hsource, hend⟩ := ih hmore
    rw [double_cons hquote, List.cons_append, ← hsource]
    exact ⟨rfl, hend⟩

/-- A text is read from exactly the sources that start with its literal, up to the end of that. -/
theorem read?_eq_some_iff {source rest : List Char} {text : String} :
    read? source = some (text, rest) ↔
      source = (encode text).toList ++ rest ∧ rest.head? ≠ some '\'' := by
  have hencode : (encode text).toList ++ rest = '\'' :: (double text.toList ++ '\'' :: rest) := by
    rw [Program.toList_encode, List.append_assoc]
    rfl
  rw [hencode]
  constructor
  · intro h
    unfold read? at h
    split at h
    · obtain ⟨⟨chars, after⟩, hinside, hsame⟩ := Option.map_eq_some_iff.mp h
      cases hsame
      obtain ⟨hsource, hend⟩ := of_inside hinside
      rw [String.toList_ofList, ← hsource]
      exact ⟨rfl, hend⟩
    · cases h
  · rintro ⟨rfl, hend⟩
    rw [read?, inside_double text.toList hend]
    exact congrArg some (Prod.ext String.ofList_toList rfl)

theorem encode_injective : Function.Injective encode := by
  intro first second hsame
  have hfirst : read? ((encode first).toList ++ []) = some (first, []) :=
    read?_eq_some_iff.mpr ⟨rfl, by simp⟩
  have hsecond : read? ((encode second).toList ++ []) = some (second, []) :=
    read?_eq_some_iff.mpr ⟨rfl, by simp⟩
  rw [hsame, hsecond] at hfirst
  exact (congrArg Prod.fst (Option.some.inj hfirst)).symm

/-- A text is read from a source, and what follows it is left, exactly if the source starts with the
literal of the text and no quote follows that. So different paths have different literals, and in
the statement of a program the path of the output file is read up to the options behind it. -/
theorem sql_literals_read_back :
    (∀ (source rest : List Char) (text : String), read? source = some (text, rest) ↔
      source = (encode text).toList ++ rest ∧ rest.head? ≠ some '\'') ∧
      (Function.Injective fun path : Path => encode path.text) ∧
      ∀ (u : BuildUnit) (sql : String), ∃ target,
        Program.statement u sql = "COPY (\n".toList ++ (Query.stripTerminators sql).toList ++
          "\n) TO ".toList ++ target ∧
        read? target = some (u.output.text, " WITH (FORMAT CSV, HEADER)".toList) := by
  refine ⟨fun source rest text => read?_eq_some_iff, fun first second hsame => ?_, fun u sql => ?_⟩
  · have htext := encode_injective hsame
    cases first
    cases second
    exact congrArg Path.mk htext
  · have hend : " WITH (FORMAT CSV, HEADER)".toList.head? ≠ some '\'' := by decide
    have hread : read? ((encode u.output.text).toList ++ " WITH (FORMAT CSV, HEADER)".toList) =
        some (u.output.text, " WITH (FORMAT CSV, HEADER)".toList) :=
      read?_eq_some_iff.mpr ⟨rfl, hend⟩
    refine ⟨_, ?_, hread⟩
    have hsame : Program.statement u sql = "COPY (\n".toList ++
        (Query.stripTerminators sql).toList ++ "\n) TO ".toList ++ (encode u.output.text).toList ++
        " WITH (FORMAT CSV, HEADER)".toList := by
      rw [Program.toList_encode]
      rfl
    rw [hsame, List.append_assoc]

/-- A text that starts and ends with quotes. -/
example : read? ((encode "''a'b'").toList ++ ['"', '\'']) = some ("''a'b'", ['"', '\'']) := by
  rfl

end SqlLiteral

end QueryBuild
