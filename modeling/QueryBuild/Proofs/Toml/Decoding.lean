import Mathlib.Data.List.Forall2
import Mathlib.Data.List.Nodup
import Mathlib.Tactic.Common
import QueryBuild.Toml.Decoder
/-!
# Decoding what was written

A value that was written may come to stand anywhere in a text, and the entries of its tables in any
order. A decoder takes it for what was written as long as each part of it does, since every entry
of a table changes only the field that it names.
-/

namespace QueryBuild.Toml

variable {α β σ : Type}

namespace Node

/-- The same string, array or table, wherever it stands and in whatever order its entries are. -/
inductive Like : Node → Node → Prop
  | string (span span' : Span) (s : String) : Like (.string span s) (.string span' s)
  | array (span span' : Span) {items items' : List Node} (hitems : List.Forall₂ Like items items') :
      Like (.array span items) (.array span' items')
  | table {content content' : Table Node} {entries : List (Key × Node)}
      (hnames : content.entries.map (·.1.name) = entries.map (·.1.name))
      (hvalues : List.Forall₂ Like (content.entries.map Prod.snd) (entries.map Prod.snd))
      (hperm : entries.Perm content'.entries) : Like (.table content) (.table content')

theorem Like.of_values {content content' : Table Node}
    (hnames : content.entries.map (·.1.name) = content'.entries.map (·.1.name))
    (hvalues : List.Forall₂ Like (content.entries.map Prod.snd) (content'.entries.map Prod.snd)) :
    Like (.table content) (.table content') :=
  .table hnames hvalues (List.Perm.refl _)

/-! What is written stands nowhere yet. -/

def ofText (s : String) : Node :=
  .string default s

def ofTexts (texts : List String) : Node :=
  .array default (texts.map ofText)

def ofEntries (entries : List (String × Node)) : Node :=
  .table ⟨.headed, none, entries.map fun entry => (⟨entry.1, default⟩, entry.2)⟩

theorem like_ofText (s : String) : (ofText s).Like (ofText s) :=
  .string _ _ s

theorem like_ofTexts (texts : List String) : (ofTexts texts).Like (ofTexts texts) := by
  refine .array _ _ (List.forall₂_same.mpr fun node hnode => ?_)
  obtain ⟨s, -, rfl⟩ := List.mem_map.mp hnode
  exact like_ofText s

theorem like_ofEntries {entries : List (String × Node)} (h : ∀ entry ∈ entries, entry.2.Like entry.2) :
    (ofEntries entries).Like (ofEntries entries) := by
  refine .of_values rfl (List.forall₂_same.mpr fun node hnode => ?_)
  rw [List.map_map] at hnode
  obtain ⟨entry, hentry, rfl⟩ := List.mem_map.mp hnode
  exact h entry hentry

end Node

theorem placed_eq_ok {span : Option Span} {result : Except Problem α} {a : α} :
    placed span result = .ok a ↔ result = .ok a := by
  cases result with
  | error problem => constructor <;> intro h <;> cases h
  | ok b => exact Iff.rfl

namespace Decoder

/-- A decoder turns what was written, wherever it stands now, into some value. -/
def Takes (d : Decoder α) (written : Node) (a : α) : Prop :=
  ∀ node, written.Like node → d node = .ok a

theorem takes_text (expected s : String) : (text expected).Takes (.ofText s) s := by
  intro node hlike
  cases hlike
  rfl

theorem takes_texts (expected : String) (texts : List String) :
    (list (text expected)).Takes (.ofTexts texts) texts := by
  intro node hlike
  cases hlike with
  | array _ span hitems =>
    rename_i items
    have hall : items.mapM (text expected) = .ok texts := by
      induction texts generalizing items with
      | nil =>
        cases hitems
        rfl
      | cons s texts ih =>
        obtain ⟨node, rest, hnode, hrest, rfl⟩ := List.forall₂_cons_left_iff.mp hitems
        rw [List.mapM_cons, takes_text expected s node hnode, ih hrest]
        rfl
    exact placed_eq_ok.mpr hall

theorem takes_choice {known : List String} {s : String} (h : s ∈ known) :
    (choice known).Takes (.ofText s) s := by
  intro node hlike
  cases hlike
  exact placed_eq_ok.mpr (if_pos (List.contains_iff_mem.mpr h))

theorem Takes.map {d : Decoder α} {written : Node} {a : α} (h : d.Takes written a) (f : α → β) :
    Takes (fun node => (d node).map f) written (f a) := by
  intro node hlike
  change (d node).map f = _
  rw [h node hlike]
  rfl

theorem Takes.update {d : Decoder α} {written : Node} {a : α} (h : d.Takes written a)
    (f : α → β) : Takes (fun node => do return f (← d node)) written (f a) :=
  h.map f

/-! ### The entries of a record -/

/-- Fills the field that an entry names, if there is one. -/
def enter (fields : List (Field σ)) (s : σ) (entry : Key × Node) : Except Problem σ :=
  match fields.find? fun field => field.name == entry.1.name with
  | some field => placed (entry.2.span? <|> some entry.1.span) (field.set s entry.2)
  | none => .ok s

/-- Two fields change a record in either order alike. -/
def Field.Independent (f g : Field σ) : Prop :=
  ∀ s v w s₁ s₂, f.set s v = .ok s₁ → g.set s₁ w = .ok s₂ →
    ∃ s₁', g.set s w = .ok s₁' ∧ f.set s₁' v = .ok s₂

theorem Field.Independent.of_comm {d : Decoder α} {e : Decoder β} {f : σ → α → σ} {g : σ → β → σ}
    (hcomm : ∀ s a b, g (f s a) b = f (g s b) a) (name name' : String) :
    Field.Independent ⟨name, fun s v => do return f s (← d v)⟩
      ⟨name', fun s v => do return g s (← e v)⟩ := by
  intro s v w s₁ s₂ hf hg
  simp only at hf hg ⊢
  cases hd : d v with
  | error problem => simp [hd, bind, Except.bind] at hf
  | ok a =>
    cases he : e w with
    | error problem => simp [he, bind, Except.bind] at hg
    | ok b =>
      simp only [hd, he, bind, Except.bind, pure, Except.pure, Except.ok.injEq] at hf hg ⊢
      exact ⟨g s b, rfl, by rw [← hg, ← hf, hcomm]⟩

/-- Fields with different names are independent. -/
def Separate (fields : List (Field σ)) : Prop :=
  ∀ f ∈ fields, ∀ g ∈ fields, f.name ≠ g.name → f.Independent g

theorem ofEntries_cons {fields : List (Field σ)} {entry : Key × Node}
    {entries : List (Key × Node)} {s r : σ} :
    ofEntries fields s (entry :: entries) = .ok r ↔
      ∃ s', enter fields s entry = .ok s' ∧ ofEntries fields s' entries = .ok r := by
  have hstep : ofEntries fields s (entry :: entries) =
      (enter fields s entry).bind fun s => ofEntries fields s entries := rfl
  rw [hstep]
  cases enter fields s entry with
  | error problem => simp [Except.bind]
  | ok s' => simp [Except.bind]

theorem enter_eq_ok {fields : List (Field σ)} {entry : Key × Node} {field : Field σ}
    (hfield : fields.find? (fun field => field.name == entry.1.name) = some field) {s s' : σ} :
    enter fields s entry = .ok s' ↔ field.set s entry.2 = .ok s' := by
  rw [enter, hfield]
  exact placed_eq_ok

theorem enter_of_none {fields : List (Field σ)} {entry : Key × Node}
    (hnone : fields.find? (fun field => field.name == entry.1.name) = none) (s : σ) :
    enter fields s entry = .ok s := by
  rw [enter, hnone]

theorem Separate.swap {fields : List (Field σ)} (hfields : Separate fields)
    {first second : Key × Node} (hne : first.1.name ≠ second.1.name) {s s₁ s₂ : σ}
    (hfirst : enter fields s first = .ok s₁) (hsecond : enter fields s₁ second = .ok s₂) :
    ∃ s₁', enter fields s second = .ok s₁' ∧ enter fields s₁' first = .ok s₂ := by
  cases hf : fields.find? fun field => field.name == first.1.name with
  | none =>
    cases (enter_of_none hf s).symm.trans hfirst
    exact ⟨s₂, hsecond, enter_of_none hf s₂⟩
  | some f =>
    cases hg : fields.find? fun field => field.name == second.1.name with
    | none =>
      cases (enter_of_none hg s₁).symm.trans hsecond
      exact ⟨s, enter_of_none hg s, hfirst⟩
    | some g =>
      -- the entries are two fields of the record, which change it in either order alike
      have hfname : f.name = first.1.name := by simpa using List.find?_some hf
      have hgname : g.name = second.1.name := by simpa using List.find?_some hg
      simp only [enter_eq_ok hf, enter_eq_ok hg] at hfirst hsecond ⊢
      exact hfields f (List.mem_of_find?_eq_some hf) g (List.mem_of_find?_eq_some hg)
        (hfname ▸ hgname ▸ hne) s _ _ s₁ s₂ hfirst hsecond

theorem Separate.ofEntries_perm {fields : List (Field σ)} (hfields : Separate fields)
    {entries entries' : List (Key × Node)} (hperm : entries.Perm entries')
    (hdistinct : (entries.map (·.1.name)).Nodup) {s r : σ}
    (h : ofEntries fields s entries = .ok r) : ofEntries fields s entries' = .ok r := by
  induction hperm generalizing s with
  | nil => exact h
  | cons entry hperm ih =>
    obtain ⟨s', hentry, hrest⟩ := ofEntries_cons.mp h
    exact ofEntries_cons.mpr ⟨s', hentry, ih (List.nodup_cons.mp hdistinct).2 hrest⟩
  | swap first second entries =>
    obtain ⟨s₁, hsecond, hrest⟩ := ofEntries_cons.mp h
    obtain ⟨s₂, hfirst, hrest⟩ := ofEntries_cons.mp hrest
    have hne : second.1.name ≠ first.1.name := by
      intro heq
      apply (List.nodup_cons.mp hdistinct).1
      simp [heq]
    obtain ⟨s₁', hfirst, hsecond⟩ := hfields.swap hne hsecond hfirst
    exact ofEntries_cons.mpr ⟨s₁', hfirst, ofEntries_cons.mpr ⟨s₂, hsecond, hrest⟩⟩
  | trans hperm _ ih ih' =>
    have hdistinct' := (hperm.map fun entry => entry.1.name).nodup_iff.mp hdistinct
    exact ih' hdistinct' (ih hdistinct h)

/-- Written entries turn one record into another, field by field. -/
inductive Fills (fields : List (Field σ)) : σ → List (String × Node) → σ → Prop
  | nil (s : σ) : Fills fields s [] s
  | cons {s s' r : σ} {name : String} {written : Node} {entries : List (String × Node)}
      {field : Field σ} (hfield : fields.find? (fun field => field.name == name) = some field)
      (hset : Takes (field.set s) written s') (hrest : Fills fields s' entries r) :
      Fills fields s ((name, written) :: entries) r

theorem Fills.ofEntries_eq {fields : List (Field σ)} {s r : σ} {written : List (String × Node)}
    (h : Fills fields s written r) {entries : List (Key × Node)}
    (hnames : written.map Prod.fst = entries.map (·.1.name))
    (hvalues : List.Forall₂ Node.Like (written.map Prod.snd) (entries.map Prod.snd)) :
    ofEntries fields s entries = .ok r := by
  induction h generalizing entries with
  | nil s =>
    rw [List.map_eq_nil_iff.mp hnames.symm]
    rfl
  | @cons _ s' _ name _ _ _ hfield hset _ ih =>
    cases entries with
    | nil => cases hnames
    | cons entry entries =>
      have hname : name = entry.1.name := (List.cons.inj hnames).1
      obtain ⟨hvalue, hvalues⟩ := List.forall₂_cons.mp hvalues
      rw [hname] at hfield
      have hentry : enter fields _ entry = .ok s' := (enter_eq_ok hfield).mpr (hset _ hvalue)
      exact ofEntries_cons.mpr ⟨s', hentry, ih (List.cons.inj hnames).2 hvalues⟩

theorem Fills.takes {fields : List (Field σ)} {s r : σ} {written : List (String × Node)}
    (h : Fills fields s written r) (hfields : Separate fields)
    (hdistinct : (written.map Prod.fst).Nodup) (name : String) :
    (record name fields s).Takes (.ofEntries written) r := by
  intro node hlike
  cases hlike with
  | table hnames hvalues hperm =>
    rename_i content entries
    rw [List.map_map] at hnames hvalues
    have hfilled : ofEntries fields s entries = .ok r := h.ofEntries_eq hnames hvalues
    have hdistinct' : (entries.map (·.1.name)).Nodup := hnames ▸ hdistinct
    exact placed_eq_ok.mpr (hfields.ofEntries_perm hperm hdistinct' hfilled)

end Decoder

end QueryBuild.Toml
