import Mathlib.Data.List.Nodup
import QueryBuild.Proofs.Json.Reading
/-!
# Decoding what was written

A decoder reads a value back if its shape is that of the value. For lists and records this follows
from their parts, whatever the layout: a list is read item by item, and the fields of a record are
collected in the order in which they are written and then put in the order of the shape.
-/

namespace QueryBuild.Json

open Reader

/-- A decoder reads a value back from its text: behind white space, at any level, and in front of
anything that does not go on with a number. -/
def Reads (l : Layout) (d : Decoder) (v : Json) : Prop :=
  ∀ level blanks rest, Blank blanks → Stops rest →
    d (blanks ++ (l.render level v ++ rest)) = .ok (v, rest)

variable {l : Layout} {d : Decoder}

theorem Reads.here {v : Json} (h : Reads l d v) (level : Nat) {rest : List Char}
    (hstops : Stops rest) : d (l.render level v ++ rest) = .ok (v, rest) :=
  h level [] rest Blank.nil hstops

/-- The text of a value begins with a character that is neither a blank nor the end of a list, and
with the letter of null for null only. -/
theorem render_lead (l : Layout) (level : Nat) (v : Json) : ∃ c cs, l.render level v = c :: cs ∧
    isSpace c = false ∧ c ≠ ']' ∧ (v ≠ .null → c ≠ 'n') := by
  cases v with
  | null => exact ⟨_, _, rfl, by decide, by decide, fun h => absurd rfl h⟩
  | bool b =>
    cases b
    · exact ⟨_, _, rfl, by decide, by decide, fun _ => by decide⟩
    · exact ⟨_, _, rfl, by decide, by decide, fun _ => by decide⟩
  | num n =>
    obtain ⟨c, cs, hcs, hc⟩ := repr_lead n
    exact ⟨c, cs, hcs, isSpace_of_isDigit hc, ne_of_isDigit hc (by decide),
      fun _ => ne_of_isDigit hc (by decide)⟩
  | str s => exact ⟨_, _, rfl, by decide, by decide, fun _ => by decide⟩
  | arr xs =>
    cases xs
    · exact ⟨_, _, rfl, by decide, by decide, fun _ => by decide⟩
    · exact ⟨_, _, rfl, by decide, by decide, fun _ => by decide⟩
  | obj fs =>
    cases fs
    · exact ⟨_, _, rfl, by decide, by decide, fun _ => by decide⟩
    · exact ⟨_, _, rfl, by decide, by decide, fun _ => by decide⟩

/-! ### Strings, choices and counters -/

theorem render_str (l : Layout) (level : Nat) (s : String) (rest : List Char) :
    l.render level (.str s) ++ rest = '"' :: (s.toList.flatMap escape ++ '"' :: rest) := by
  simp [Layout.render, quoted]

theorem reads_text (l : Layout) (expected s : String) :
    Reads l (Decoder.text expected) (.str s) := by
  intro level blanks rest hblank _
  rw [render_str, Decoder.text, bind_ok (peekValue_blank hblank (by decide) _),
    if_pos (by decide), bind_ok (skip_cons _ _), bind_ok (string_quoted s rest)]
  rfl

theorem reads_choice (l : Layout) {known : List String} {s : String} (h : s ∈ known) :
    Reads l (Decoder.choice known) (.str s) := by
  intro level blanks rest hblank _
  have hname : Decoder.name known ('"' :: (s.toList.flatMap escape ++ '"' :: rest)) =
      .ok (.str s, rest) := by
    rw [Decoder.name, bind_ok (peekValue_cons (by decide) _), if_pos (by decide),
      bind_ok (skip_cons _ _), bind_ok (string_quoted s rest), if_pos (List.contains_iff_mem.mpr h)]
    rfl
  rw [render_str, Decoder.choice, bind_ok (peekValue_blank hblank (by decide) _)]
  exact hname

theorem reads_counter (l : Layout) {limit n : Nat} (h : n ≤ limit)
    (hlimit : limit ≤ Number.wholeLimit) (expected : String) :
    Reads l (Decoder.counter limit expected) (.num n) := by
  intro level blanks rest hblank hstops
  obtain ⟨c, cs, hcs, hc⟩ := repr_lead n
  have hnumber : number true (c :: (cs ++ rest)) = .ok (.natural n, rest) := by
    rw [← List.cons_append, ← hcs]
    exact number_repr (Nat.le_trans h hlimit) hstops
  have hminus : (c == '-') = false := beq_eq_false_iff_ne.mpr (ne_of_isDigit hc (by decide))
  rw [Layout.render, hcs, List.cons_append, Decoder.counter,
    bind_ok (peekValue_blank hblank (isSpace_of_isDigit hc) _)]
  simp only [hminus, hc, Bool.false_eq_true, ↓reduceIte]
  rw [bind_ok hnumber, Decoder.counter.check, if_pos h]
  rfl

theorem reads_null (l : Layout) (d : Decoder) : Reads l (Decoder.orNull d) .null := by
  intro level blanks rest hblank _
  have hword : word "ull".toList (['u', 'l', 'l'] ++ rest) = .ok ((), rest) :=
    word_append ['u', 'l', 'l'] rest
  rw [Layout.render, Decoder.orNull, List.cons_append,
    bind_ok (peekSolid_blank hblank (by decide) _)]
  simp only [bind_ok (skip_cons _ _)]
  rw [bind_ok hword]
  rfl

theorem Reads.orNull {v : Json} (h : Reads l d v) (hv : v ≠ .null) :
    Reads l (Decoder.orNull d) v := by
  intro level blanks rest hblank hstops
  obtain ⟨c, cs, hcs, hspace, -, hnull⟩ := render_lead l level v
  have hvalue := h.here level hstops
  rw [hcs, List.cons_append] at hvalue
  rw [hcs, List.cons_append, Decoder.orNull, bind_ok (peekSolid_blank hblank hspace _)]
  simpa [hnull hv] using hvalue

/-! ### Lists -/

theorem nextItem_end {blanks : List Char} (h : Blank blanks) (first : Bool) (rest : List Char) :
    nextItem first (blanks ++ ']' :: rest) = .ok (false, ']' :: rest) := by
  rw [nextItem, bind_ok (peekSolid_blank h (by decide) _)]
  rfl

theorem nextItem_cons (first : Bool) (rest : List Char) :
    nextItem first (']' :: rest) = .ok (false, ']' :: rest) :=
  nextItem_end Blank.nil first rest

theorem nextItem_first {blanks : List Char} (h : Blank blanks) (level : Nat) (v : Json)
    (rest : List Char) :
    nextItem true (blanks ++ (l.render level v ++ rest)) =
      .ok (true, l.render level v ++ rest) := by
  obtain ⟨c, cs, hcs, hspace, hend, -⟩ := render_lead l level v
  rw [hcs, List.cons_append, nextItem, bind_ok (peekSolid_blank h hspace _)]
  simp [pure_ok]

theorem nextItem_later {blanks : List Char} (h : Blank blanks) (level : Nat) (v : Json)
    (rest : List Char) :
    nextItem false (',' :: (blanks ++ (l.render level v ++ rest))) =
      .ok (true, l.render level v ++ rest) := by
  obtain ⟨c, cs, hcs, hspace, hend, -⟩ := render_lead l level v
  rw [hcs, List.cons_append, nextItem, bind_ok (peekSolid_cons (by decide) _)]
  simp [bind_ok (skip_cons _ _), bind_ok (peekSolid_blank h hspace _), pure_ok]

theorem endList_cons (rest : List Char) : endList (']' :: rest) = .ok ((), rest) := by
  rw [endList, bind_ok (peekSolid_cons (by decide) _)]
  rfl

theorem stops_renderItems (l : Layout) (level : Nat) (xs : List Json) {rest : List Char}
    (h : Stops rest) : Stops (l.renderItems level xs ++ rest) := by
  cases xs with
  | nil => exact h
  | cons x xs => exact stops_cons (by decide) _

theorem length_renderItems (l : Layout) (level : Nat) (xs : List Json) :
    xs.length ≤ (l.renderItems level xs).length := by
  induction xs with
  | nil => exact Nat.zero_le _
  | cons x xs ih =>
    rw [Layout.renderItems]
    simp only [List.length_cons, List.length_append]
    omega

theorem items_renderItems {xs : List Json} (hxs : ∀ x ∈ xs, Reads l d x) (level : Nat)
    {blanks : List Char} (hblank : Blank blanks) (rest : List Char) {fuel : Nat}
    (hfuel : xs.length < fuel) :
    items d false fuel (l.renderItems level xs ++ (blanks ++ ']' :: rest)) =
      .ok (xs, ']' :: rest) := by
  induction xs generalizing fuel with
  | nil =>
    obtain ⟨fuel, rfl⟩ := Nat.exists_eq_add_of_lt hfuel
    rw [items, Layout.renderItems, List.nil_append, bind_ok (nextItem_end hblank false rest)]
    rfl
  | cons x xs ih =>
    obtain ⟨fuel, rfl⟩ : ∃ k, fuel = k + 1 := ⟨fuel - 1, by omega⟩
    have hstops : Stops (l.renderItems level xs ++ (blanks ++ ']' :: rest)) :=
      stops_renderItems l level xs ((stops_cons (by decide) rest).of_blank hblank)
    have hx := (hxs x List.mem_cons_self).here level hstops
    have hrest := ih (fun y hy => hxs y (List.mem_cons_of_mem x hy)) (by simpa using hfuel)
    rw [Layout.renderItems, List.cons_append, List.append_assoc, List.append_assoc, items,
      bind_ok (nextItem_later (l.gap_blank level) level x _), if_pos rfl, bind_ok hx,
      bind_ok hrest]
    rfl

theorem items_first {x : Json} {xs : List Json} (hxs : ∀ y ∈ x :: xs, Reads l d y) (level : Nat)
    {blanks closing : List Char} (hblank : Blank blanks) (hclosing : Blank closing)
    (rest : List Char) {fuel : Nat} (hfuel : xs.length + 1 < fuel) :
    items d true fuel (blanks ++ (l.render level x ++
      (l.renderItems level xs ++ (closing ++ ']' :: rest)))) = .ok (x :: xs, ']' :: rest) := by
  obtain ⟨fuel, rfl⟩ : ∃ k, fuel = k + 1 := ⟨fuel - 1, by omega⟩
  have hstops : Stops (l.renderItems level xs ++ (closing ++ ']' :: rest)) :=
    stops_renderItems l level xs ((stops_cons (by decide) rest).of_blank hclosing)
  have hx := (hxs x List.mem_cons_self).here level hstops
  have hrest := items_renderItems (fun y hy => hxs y (List.mem_cons_of_mem x hy)) level hclosing
    rest (Nat.lt_of_succ_lt_succ hfuel)
  rw [items, bind_ok (nextItem_first hblank level x _), if_pos rfl, bind_ok hx, bind_ok hrest]
  rfl

theorem enoughFuel_ok (cs : List Char) : enoughFuel cs = .ok (2 * cs.length + 2, cs) :=
  rfl

/-- A list is read back if its items are. -/
theorem reads_list {xs : List Json} (hxs : ∀ x ∈ xs, Reads l d x) :
    Reads l (Decoder.list d) (.arr xs) := by
  intro level blanks rest hblank _
  cases xs with
  | nil =>
    have hitems : items d true (2 * (']' :: rest).length + 2) (']' :: rest) =
        .ok ([], ']' :: rest) := by
      rw [items, bind_ok (nextItem_cons true rest)]
      rfl
    have htext : l.render level (.arr []) ++ rest = '[' :: ']' :: rest := rfl
    rw [htext, Decoder.list, bind_ok (peekValue_blank hblank (by decide) _), if_pos (by decide),
      bind_ok (skip_cons _ _), bind_ok (enoughFuel_ok _), bind_ok hitems,
      bind_ok (endList_cons rest)]
    rfl
  | cons x xs =>
    have htext : l.render level (.arr (x :: xs)) ++ rest = '[' :: (l.gap (level + 1) ++
        (l.render (level + 1) x ++ (l.renderItems (level + 1) xs ++
          (l.gap level ++ ']' :: rest)))) := by
      simp [Layout.render]
    rw [htext, Decoder.list, bind_ok (peekValue_blank hblank (by decide) _), if_pos (by decide),
      bind_ok (skip_cons _ _), bind_ok (enoughFuel_ok _),
      bind_ok (items_first hxs (level + 1) (l.gap_blank _) (l.gap_blank level) rest ?_),
      bind_ok (endList_cons rest)]
    · rfl
    · have hlength := length_renderItems l (level + 1) xs
      simp only [List.length_append]
      omega

/-! ### Records -/

/-- Fields that are written fit those of a shape: they are in its order, their values are read back,
and only what may be left out is. -/
inductive Fits (l : Layout) : List Field → List (String × Json) → Prop
  | nil : Fits l [] []
  | written {field : Field} {v : Json} {fields : List Field} {fs : List (String × Json)}
      (h : Reads l field.decoder v) (hrest : Fits l fields fs) :
      Fits l (field :: fields) ((field.name, v) :: fs)
  | omitted {field : Field} {fields : List Field} {fs : List (String × Json)}
      (h : field.presence ≠ .required) (hrest : Fits l fields fs) : Fits l (field :: fields) fs

variable {fields : List Field} {fs : List (String × Json)}

theorem Fits.keys (h : Fits l fields fs) :
    (fs.map Prod.fst).Sublist (fields.map Field.name) := by
  induction h with
  | nil => exact .slnil
  | written _ _ ih => exact ih.cons_cons _
  | omitted _ _ ih => exact ih.cons _

theorem Fits.ne (h : Fits l fields fs) {name : String} (hnew : name ∉ fields.map Field.name)
    {f : String × Json} (hf : f ∈ fs) : name ≠ f.1 := by
  rintro rfl
  exact hnew (h.keys.subset (List.mem_map_of_mem hf))

/-- The shape has a field for what is written, and its decoder reads the value back. -/
theorem Fits.find (h : Fits l fields fs) (hnames : (fields.map Field.name).Nodup) :
    ∀ f ∈ fs, ∃ field, fields.find? (fun field => field.name == f.1) = some field ∧
      Reads l field.decoder f.2 := by
  induction h with
  | nil => simp
  | @written field v fields fs hv hrest ih =>
    obtain ⟨hnew, hnames⟩ := List.nodup_cons.mp hnames
    intro f hf
    rcases List.mem_cons.mp hf with rfl | hf
    · exact ⟨field, by simp, hv⟩
    · obtain ⟨other, hfind, hreads⟩ := ih hnames f hf
      refine ⟨other, ?_, hreads⟩
      rw [List.find?_cons_of_neg (by simpa using hrest.ne hnew hf)]
      exact hfind
  | @omitted field fields fs _ hrest ih =>
    obtain ⟨hnew, hnames⟩ := List.nodup_cons.mp hnames
    intro f hf
    obtain ⟨other, hfind, hreads⟩ := ih hnames f hf
    refine ⟨other, ?_, hreads⟩
    rw [List.find?_cons_of_neg (by simpa using hrest.ne hnew hf)]
    exact hfind

theorem Fits.arrange (h : Fits l fields fs) (hnames : (fields.map Field.name).Nodup)
    {seen : List (String × Json)}
    (hseen : ∀ field ∈ fields, seen.lookup field.name = fs.lookup field.name) :
    arrange fields seen = .ok fs := by
  induction h with
  | nil => rfl
  | @written field v fields fs _ hrest ih =>
    obtain ⟨hnew, hnames⟩ := List.nodup_cons.mp hnames
    have hrestSeen : ∀ other ∈ fields, seen.lookup other.name = fs.lookup other.name := by
      intro other hother
      have hne : (other.name == field.name) = false := by
        rw [beq_eq_false_iff_ne]
        rintro heq
        exact hnew (heq ▸ List.mem_map_of_mem hother)
      rw [hseen other (List.mem_cons_of_mem _ hother), List.lookup_cons, hne]
    rw [Reader.arrange, hseen field List.mem_cons_self, List.lookup_cons_self, ih hnames hrestSeen]
    rfl
  | @omitted field fields fs hpresence hrest ih =>
    obtain ⟨hnew, hnames⟩ := List.nodup_cons.mp hnames
    have hnone : fs.lookup field.name = none := by
      rw [List.lookup_eq_none_iff]
      exact fun f hf => bne_iff_ne.mpr (hrest.ne hnew hf)
    rw [Reader.arrange, hseen field List.mem_cons_self, hnone, if_neg (by simpa using hpresence)]
    exact ih hnames fun other hother => hseen other (List.mem_cons_of_mem _ hother)

theorem lookup_eq_none {f : String × Json} {front seen : List (String × Json)}
    (h : ((front ++ f :: seen).map Prod.fst).Nodup) : seen.lookup f.1 = none := by
  rw [List.map_append, List.map_cons] at h
  have hnew := (List.nodup_cons.mp (List.nodup_append.mp h).2.1).1
  rw [List.lookup_eq_none_iff]
  intro g hg
  rw [bne_iff_ne]
  intro heq
  exact hnew (heq ▸ List.mem_map_of_mem hg)

theorem lookup_eq_some {fs : List (String × Json)} (h : (fs.map Prod.fst).Nodup) (key : String)
    (v : Json) : fs.lookup key = some v ↔ (key, v) ∈ fs := by
  rw [List.lookup_eq_some_iff]
  constructor
  · rintro ⟨front, back, rfl, -⟩
    simp
  · intro hmem
    obtain ⟨front, back, rfl⟩ := List.append_of_mem hmem
    refine ⟨front, back, rfl, fun f hf => ?_⟩
    rw [List.map_append] at h
    rw [bne_iff_ne]
    exact ((List.nodup_append.mp h).2.2 f.1 (List.mem_map_of_mem hf) key (by simp)).symm

theorem lookup_reverse {fs : List (String × Json)} (h : (fs.map Prod.fst).Nodup) (key : String) :
    fs.reverse.lookup key = fs.lookup key := by
  have hreversed : (fs.reverse.map Prod.fst).Nodup := by
    rw [List.map_reverse]
    exact List.nodup_reverse.mpr h
  apply Option.ext
  intro v
  rw [lookup_eq_some hreversed, lookup_eq_some h, List.mem_reverse]

theorem nextKey_end {blanks : List Char} (h : Blank blanks) (first : Bool) (rest : List Char) :
    nextKey first (blanks ++ '\x7d' :: rest) = .ok (false, '\x7d' :: rest) := by
  rw [nextKey, bind_ok (peekSolid_blank h (by decide) _)]
  rfl

theorem endObject_cons (rest : List Char) : endObject ('\x7d' :: rest) = .ok ((), rest) := by
  rw [endObject, bind_ok (peekSolid_cons (by decide) _)]
  rfl

theorem renderField_append (l : Layout) (level : Nat) (key : String) (v : Json)
    (rest : List Char) : l.renderField level (key, v) ++ rest = '"' :: (key.toList.flatMap escape ++
      '"' :: ':' :: (l.space ++ (l.render level v ++ rest))) := by
  simp [Layout.renderField, quoted]

theorem nextKey_cons (first : Bool) (rest : List Char) :
    nextKey first ('\x7d' :: rest) = .ok (false, '\x7d' :: rest) :=
  nextKey_end Blank.nil first rest

theorem nextKey_first {blanks : List Char} (h : Blank blanks) (level : Nat) (f : String × Json)
    (rest : List Char) :
    nextKey true (blanks ++ (l.renderField level f ++ rest)) =
      .ok (true, l.renderField level f ++ rest) := by
  rw [renderField_append, nextKey, bind_ok (peekSolid_blank h (by decide) _)]
  rfl

theorem nextKey_later {blanks : List Char} (h : Blank blanks) (level : Nat) (f : String × Json)
    (rest : List Char) :
    nextKey false (',' :: (blanks ++ (l.renderField level f ++ rest))) =
      .ok (true, l.renderField level f ++ rest) := by
  rw [renderField_append, nextKey, bind_ok (peekSolid_cons (by decide) _)]
  simp [bind_ok (skip_cons _ _), bind_ok (peekSolid_blank h (by decide : isSpace '"' = false) _),
    pure_ok]

theorem stops_renderFields (l : Layout) (level : Nat) (fs : List (String × Json))
    {rest : List Char} (h : Stops rest) : Stops (l.renderFields level fs ++ rest) := by
  cases fs with
  | nil => exact h
  | cons f fs => exact stops_cons (by decide) _

theorem length_renderFields (l : Layout) (level : Nat) (fs : List (String × Json)) :
    fs.length ≤ (l.renderFields level fs).length := by
  induction fs with
  | nil => exact Nat.zero_le _
  | cons f fs ih =>
    rw [Layout.renderFields]
    simp only [List.length_cons, List.length_append]
    omega

/-- A field that was not seen yet is read with the decoder of the shape. -/
theorem objectFields_field {seen : List (String × Json)} {first : Bool} {cs rest : List Char}
    {level : Nat} {f : String × Json} {field : Field}
    (hnext : nextKey first cs = .ok (true, l.renderField level f ++ rest))
    (hfield : fields.find? (fun field => field.name == f.1) = some field)
    (hnew : seen.lookup f.1 = none) (hreads : Reads l field.decoder f.2) (hstops : Stops rest)
    (fuel : Nat) :
    objectFields fields seen first (fuel + 1) cs =
      objectFields fields (f :: seen) false fuel rest := by
  obtain ⟨key, v⟩ := f
  rw [renderField_append] at hnext
  rw [objectFields, bind_ok hnext, if_pos rfl, bind_ok (skip_cons _ _),
    bind_ok (string_quoted key _)]
  simp only [hfield, hnew, Option.isSome_none, Bool.false_eq_true, ↓reduceIte]
  rw [bind_ok (colon_cons _), bind_ok (hreads level l.space rest l.space_blank hstops)]

theorem objectFields_renderFields {seen : List (String × Json)}
    (hfs : ∀ f ∈ fs, ∃ field, fields.find? (fun field => field.name == f.1) = some field ∧
      Reads l field.decoder f.2)
    (hnodup : ((fs.reverse ++ seen).map Prod.fst).Nodup) (level : Nat) {blanks : List Char}
    (hblank : Blank blanks) (rest : List Char) {fuel : Nat} (hfuel : fs.length < fuel) :
    objectFields fields seen false fuel
      (l.renderFields level fs ++ (blanks ++ '\x7d' :: rest)) =
        .ok (.ok (fs.reverse ++ seen), '\x7d' :: rest) := by
  -- each field is put in front of those that were seen, so they end up in reverse
  induction fs generalizing seen fuel with
  | nil =>
    obtain ⟨fuel, rfl⟩ := Nat.exists_eq_add_of_lt hfuel
    rw [objectFields, Layout.renderFields, List.nil_append, bind_ok (nextKey_end hblank false rest)]
    rfl
  | cons f fs ih =>
    obtain ⟨fuel, rfl⟩ : ∃ k, fuel = k + 1 := ⟨fuel - 1, by omega⟩
    obtain ⟨field, hfield, hreads⟩ := hfs f List.mem_cons_self
    have hsplit : (f :: fs).reverse ++ seen = fs.reverse ++ f :: seen := by simp
    rw [hsplit] at hnodup ⊢
    have hstops : Stops (l.renderFields level fs ++ (blanks ++ '\x7d' :: rest)) :=
      stops_renderFields l level fs ((stops_cons (by decide) rest).of_blank hblank)
    rw [Layout.renderFields, List.cons_append, List.append_assoc, List.append_assoc,
      objectFields_field (nextKey_later (l.gap_blank level) level f _) hfield
        (lookup_eq_none hnodup) hreads hstops]
    exact ih (fun g hg => hfs g (List.mem_cons_of_mem f hg)) hnodup (Nat.lt_of_succ_lt_succ hfuel)

/-- The fields of an object that is not empty are collected from behind its opening brace. -/
theorem objectFields_first {f : String × Json}
    (hfs : ∀ g ∈ f :: fs, ∃ field, fields.find? (fun field => field.name == g.1) = some field ∧
      Reads l field.decoder g.2)
    (hnodup : ((f :: fs).map Prod.fst).Nodup) (level : Nat) {blanks closing : List Char}
    (hblank : Blank blanks) (hclosing : Blank closing) (rest : List Char) {fuel : Nat}
    (hfuel : fs.length + 1 < fuel) :
    objectFields fields [] true fuel (blanks ++ (l.renderField level f ++
      (l.renderFields level fs ++ (closing ++ '\x7d' :: rest)))) =
        .ok (.ok (f :: fs).reverse, '\x7d' :: rest) := by
  obtain ⟨fuel, rfl⟩ : ∃ k, fuel = k + 1 := ⟨fuel - 1, by omega⟩
  obtain ⟨field, hfield, hreads⟩ := hfs f List.mem_cons_self
  have hstops : Stops (l.renderFields level fs ++ (closing ++ '\x7d' :: rest)) :=
    stops_renderFields l level fs ((stops_cons (by decide) rest).of_blank hclosing)
  have hreversed : ((fs.reverse ++ [f]).map Prod.fst).Nodup := by
    rw [← List.reverse_cons, List.map_reverse]
    exact List.nodup_reverse.mpr hnodup
  rw [objectFields_field (nextKey_first hblank level f _) hfield rfl hreads hstops,
    List.reverse_cons]
  exact objectFields_renderFields (fun g hg => hfs g (List.mem_cons_of_mem f hg)) hreversed level
    hclosing rest (Nat.lt_of_succ_lt_succ hfuel)

/-- A record is read if its fields are collected and can be put in order. -/
theorem record_of_objectFields {seen : List (String × Json)} {blanks cs rest : List Char}
    (hblank : Blank blanks)
    (hfields : objectFields fields [] true (2 * cs.length + 2) cs = .ok (.ok seen, '\x7d' :: rest))
    (harrange : arrange fields seen = .ok fs) (name : String) :
    Decoder.record name fields (blanks ++ '\x7b' :: cs) = .ok (.obj fs, rest) := by
  have hfound : (Except.ok seen : Except Mismatch _).bind (arrange fields) = .ok fs := harrange
  rw [Decoder.record, bind_ok (peekValue_blank hblank (by decide) _)]
  simp only [bind_ok (skip_cons _ _), bind_ok (enoughFuel_ok _), bind_ok hfields, hfound]
  rw [bind_ok (endObject_cons rest)]
  rfl

/-- A record is read back if what is written of it fits its shape. -/
theorem Fits.reads (h : Fits l fields fs) (hnames : (fields.map Field.name).Nodup)
    (name : String) : Reads l (Decoder.record name fields) (.obj fs) := by
  intro level blanks rest hblank _
  have hkeys : (fs.map Prod.fst).Nodup := h.keys.nodup hnames
  have harrange : Reader.arrange fields fs.reverse = .ok fs :=
    h.arrange hnames fun field _ => lookup_reverse hkeys field.name
  cases fs with
  | nil =>
    have htext : l.render level (.obj []) ++ rest = '\x7b' :: '\x7d' :: rest := rfl
    rw [htext]
    refine record_of_objectFields hblank ?_ harrange name
    rw [objectFields, bind_ok (nextKey_cons true rest)]
    rfl
  | cons f fs =>
    have htext : l.render level (.obj (f :: fs)) ++ rest = '\x7b' :: (l.gap (level + 1) ++
        (l.renderField (level + 1) f ++ (l.renderFields (level + 1) fs ++
          (l.gap level ++ '\x7d' :: rest)))) := by
      simp [Layout.render]
    rw [htext]
    refine record_of_objectFields hblank ?_ harrange name
    have hlength := length_renderFields l (level + 1) fs
    apply objectFields_first (h.find hnames) hkeys (level + 1) (l.gap_blank _) (l.gap_blank level)
    simp only [List.length_append]
    omega

theorem decode_text {v : Json} (h : Reads l d v) : decode d (l.text v) = .ok v := by
  have hread := h.here 0 stops_nil
  rw [List.append_nil] at hread
  rw [decode, Layout.text, String.toList_ofList, hread]
  rfl

end QueryBuild.Json
