import Mathlib
import QueryBuild.Proofs.Toml.Decoding
import QueryBuild.SettingsText
/-!
# Settings as a table

Settings that were written as a table are read back as they were, but for the place below which
relative directories lie, which is not written, and for a standard that nobody asks for. A table has
no word for the latter, so its entry is left out, and an entry that is missing leaves the standard
that there is without a file.
-/

namespace QueryBuild

open Toml (Node Decoder)
open Toml.Decoder (Takes Fills Separate takes_text takes_texts takes_choice)

namespace ToolchainSettings

/-- The toolchain as a table; a standard that nobody asks for is left out. -/
def toNode (t : ToolchainSettings) : Node :=
  .ofEntries (("compiler", .ofText t.compiler) ::
    ((t.standard.map fun standard => ("standard", Node.ofText standard)).toList ++
      [("include_dirs", .ofTexts (t.includeDirs.map Path.text)),
        ("library_dirs", .ofTexts (t.libraryDirs.map Path.text)),
        ("libraries", .ofTexts t.libraries),
        ("extra_flags", .ofTexts t.extraFlags)]))

theorem like_toNode (t : ToolchainSettings) : t.toNode.Like t.toNode := by
  apply Node.like_ofEntries
  cases t.standard <;> simp [Node.like_ofText, Node.like_ofTexts]

theorem separate_fields : Separate fields := by
  intro f hf g hg hne
  simp only [fields, List.mem_cons, List.not_mem_nil, or_false] at hf hg
  rcases hf with rfl | rfl | rfl | rfl | rfl | rfl <;>
    rcases hg with rfl | rfl | rfl | rfl | rfl | rfl <;>
    first
    | exact absurd rfl hne
    | exact .of_comm (fun _ _ _ => rfl) _ _

theorem takes_pathList (paths : List Path) :
    Takes pathList (.ofTexts (paths.map Path.text)) paths := by
  have h := (takes_texts "path string" (paths.map Path.text)).map (List.map Path.mk)
  rwa [List.map_map, show Path.mk ∘ Path.text = id from rfl, List.map_id] at h

/-- A toolchain is read back from its table, with a standard if it has none. -/
theorem takes_toNode (t : ToolchainSettings) :
    Takes decoder t.toNode { t with standard := t.standard <|> standardSettings.standard } := by
  obtain ⟨compiler, standard, includeDirs, libraryDirs, libraries, extraFlags⟩ := t
  have hrest (standard : Option String) : Fills fields
      { standardSettings with compiler := compiler, standard := standard }
      [("include_dirs", .ofTexts (includeDirs.map Path.text)),
        ("library_dirs", .ofTexts (libraryDirs.map Path.text)),
        ("libraries", .ofTexts libraries), ("extra_flags", .ofTexts extraFlags)]
      ⟨compiler, standard, includeDirs, libraryDirs, libraries, extraFlags⟩ := by
    refine .cons rfl ((takes_pathList _).update _) ?_
    refine .cons rfl ((takes_pathList _).update _) ?_
    refine .cons rfl ((takes_texts _ _).update _) ?_
    refine .cons rfl ((takes_texts _ _).update _) ?_
    exact .nil _
  cases standard with
  | none =>
    refine Fills.takes (.cons rfl ((takes_text _ _).update _) ?_) separate_fields (by simp) _
    exact hrest _
  | some standard =>
    refine Fills.takes (.cons rfl ((takes_text _ _).update _) ?_) separate_fields (by simp) _
    exact .cons rfl ((takes_text _ _).update _) (hrest _)

end ToolchainSettings

namespace Settings

/-- The settings as a table, without the place below which relative directories lie. -/
def toNode (s : Settings) : Node :=
  .ofEntries [("sql", .ofEntries [("dialect", .ofText s.dialect.key)]),
    ("toolchain", s.toolchain.toNode)]

/-- The settings of a value. -/
def decoder (root : Path) : Decoder Settings :=
  Decoder.record "Config" fields (initial root)

theorem like_toNode (s : Settings) : s.toNode.Like s.toNode := by
  apply Node.like_ofEntries
  have hdialect : (Node.ofEntries [("dialect", .ofText s.dialect.key)]).Like
      (.ofEntries [("dialect", .ofText s.dialect.key)]) :=
    Node.like_ofEntries (by simp [Node.like_ofText])
  simp [hdialect, s.toolchain.like_toNode]

theorem separate_fields : Separate fields := by
  intro f hf g hg hne
  simp only [fields, List.mem_cons, List.not_mem_nil, or_false] at hf hg
  rcases hf with rfl | rfl <;> rcases hg with rfl | rfl <;>
    first
    | exact absurd rfl hne
    | exact .of_comm (fun _ _ _ => rfl) _ _

theorem takes_dialect (dialect : Dialect) :
    Takes sqlDecoder (.ofEntries [("dialect", .ofText dialect.key)]) dialect := by
  have hkey : dialect.key ∈ Dialect.all.map Dialect.key := by cases dialect <;> decide
  have hdialect := (takes_choice hkey).map fun name => (Dialect.ofKey? name).getD default
  rw [Dialect.ofKey?_key, Option.getD_some] at hdialect
  refine Fills.takes (.cons rfl hdialect (.nil _)) ?_ (by simp) _
  intro f hf g hg hne
  rw [List.mem_singleton] at hf hg
  exact absurd (hf ▸ hg ▸ rfl) hne

theorem takes_toNode (s : Settings) (root : Path) :
    Takes (decoder root) s.toNode ⟨s.dialect, { s.toolchain with
      standard := s.toolchain.standard <|> ToolchainSettings.standardSettings.standard }, root⟩ := by
  refine Fills.takes (.cons rfl ((takes_dialect s.dialect).update _) ?_) separate_fields (by simp) _
  exact .cons rfl (s.toolchain.takes_toNode.update _) (.nil _)

theorem ofText_eq {source : String} {table : Toml.Table Node} {root : Path}
    (hparse : Toml.parse source = .ok table) :
    ofText root source = decoder root (.table table) := by
  rw [ofText, hparse]
  rfl

/-- Whatever the settings, they are read back from their table, from every table with the same
entries in another order, and from every text of such a table: the same dialect and the same
toolchain, except that an absent standard comes back as the one that there is without a file. -/
theorem decoder_toNode (s : Settings) (root : Path) :
    ∃ t, decoder root s.toNode = .ok t ∧
      (∀ node, s.toNode.Like node → decoder root node = .ok t) ∧
      (∀ source table, Toml.parse source = .ok table → s.toNode.Like (.table table) →
        ofText root source = .ok t) ∧
      t.dialect = s.dialect ∧
      t.toolchain = { s.toolchain with standard := s.toolchain.standard <|> some "c++17" } ∧
      t.projectRoot = root ∧
      (t.toolchain = s.toolchain ↔ s.toolchain.standard ≠ none) := by
  have htakes := s.takes_toNode root
  refine ⟨_, htakes _ s.like_toNode, htakes, ?_, rfl, rfl, rfl, ?_⟩
  · intro source table hparse hlike
    rw [ofText_eq hparse]
    exact htakes _ hlike
  · obtain ⟨dialect, ⟨compiler, standard, includeDirs, libraryDirs, libraries, extraFlags⟩, _⟩ := s
    cases standard with
    | none => simp [ToolchainSettings.standardSettings]
    | some standard => simp

/-- Settings without a standard. -/
def plain : Settings :=
  ⟨.postgres, ⟨"cc", none, [], [], ["duckdb"], []⟩, ⟨"/w"⟩⟩

/-- The plain settings as a text, not all in order. -/
def plainText : String :=
  "[toolchain]\ncompiler = \"cc\"\ninclude_dirs = []\nlibrary_dirs = []\n" ++
    "libraries = [\"duckdb\"]\nextra_flags = []\n\n[sql]\ndialect = \"postgres\"\n"

theorem parse_plainText :
    ∃ table, Toml.parse plainText = .ok table ∧ plain.toNode.Like (.table table) := by
  generalize hparse : Toml.parse plainText = result
  cbv at hparse
  subst hparse
  refine ⟨_, rfl, .table ?names ?values (List.Perm.swap _ _ _)⟩
  case names => rfl
  case values =>
    refine .cons ?dialect (.cons ?toolchain .nil)
    case dialect => exact .of_values rfl (.cons (.string ..) .nil)
    case toolchain =>
      refine .of_values rfl (.cons (.string ..) (.cons (.array _ _ .nil) ?_))
      refine .cons (.array _ _ .nil) (.cons (.array _ _ ?_) (.cons (.array _ _ .nil) .nil))
      exact .cons (.string ..) .nil

/-- The plain settings are not read back, from their table or from their text: a standard is put in
that they do not have. -/
theorem plain_not_kept :
    decoder plain.projectRoot plain.toNode =
        .ok { plain with toolchain := { plain.toolchain with standard := some "c++17" } } ∧
      (∃ table, Toml.parse plainText = .ok table ∧ plain.toNode.Like (.table table)) ∧
      ofText plain.projectRoot plainText =
        .ok { plain with toolchain := { plain.toolchain with standard := some "c++17" } } ∧
      { plain.toolchain with standard := some "c++17" } ≠ plain.toolchain := by
  have htakes : Takes (decoder plain.projectRoot) plain.toNode
      { plain with toolchain := { plain.toolchain with standard := some "c++17" } } :=
    plain.takes_toNode plain.projectRoot
  refine ⟨htakes _ plain.like_toNode, parse_plainText, ?_, by decide⟩
  obtain ⟨table, hparse, hlike⟩ := parse_plainText
  rw [ofText_eq hparse]
  exact htakes _ hlike

end Settings

end QueryBuild
