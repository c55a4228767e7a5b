import Mathlib.Data.List.GetD
import Mathlib.Data.String.Basic
import QueryBuild.Names
/-!
# Sorted lists that are searched by halving

A name is found in a sorted list by halving the part where it can be, and a new name is inserted
where the search ends. On sorted lists this is the same as to go through the list, and the list
stays sorted by it.
-/

namespace QueryBuild.Names

/-- Halves the part of a list with `size` names from `base` on, until one name is left. -/
def halve (name : String) (xs : List String) (base size : Nat) : Nat :=
  if size ≤ 1 then base
  else if name < xs.getD (base + size / 2) "" then halve name xs base (size - size / 2)
  else halve name xs (base + size / 2) (size - size / 2)
termination_by size

/-- Where a name stands in a sorted list, or else where it has to be inserted. -/
def search (name : String) (xs : List String) : Except Nat Nat :=
  let place := halve name xs 0 xs.length
  match xs[place]? with
  | none => .error place
  | some found =>
    if found = name then .ok place
    else .error (if found < name then place + 1 else place)

/-- Inserts a name where the search for it ends, unless it is found. -/
def insertFound (name : String) (xs : List String) : List String :=
  match search name xs with
  | .ok _ => xs
  | .error place => xs.take place ++ name :: xs.drop place

variable {name : String} {xs : List String}

/-- A sorted list stays sorted when a name is added. -/
theorem pairwise_insert (name : String) {xs : List String} (h : xs.Pairwise (· < ·)) :
    (insert name xs).Pairwise (· < ·) := by
  induction xs with
  | nil => simp [insert]
  | cons y ys ih =>
    obtain ⟨hfirst, hrest⟩ := List.pairwise_cons.mp h
    rw [insert]
    split
    · rename_i hlt
      refine List.pairwise_cons.mpr ⟨fun x hx => ?_, h⟩
      rcases List.mem_cons.mp hx with rfl | hx
      · exact hlt
      · exact hlt.trans (hfirst x hx)
    · rename_i hle
      split
      · exact h
      · rename_i hne
        have hlt : y < name := lt_of_le_of_ne (not_lt.mp hle) (Ne.symm (by simpa using hne))
        refine List.pairwise_cons.mpr ⟨fun x hx => ?_, ih hrest⟩
        rcases mem_insert.mp hx with rfl | hx
        · exact hlt
        · exact hfirst x hx

theorem mem_ofList {name : String} {names : List String} : name ∈ ofList names ↔ name ∈ names := by
  have hfold (sorted : List String) :
      name ∈ names.foldl (fun sorted name => insert name sorted) sorted ↔
        name ∈ names ∨ name ∈ sorted := by
    induction names generalizing sorted with
    | nil => simp
    | cons first names ih =>
      rw [List.foldl_cons, ih, mem_insert, List.mem_cons, or_left_comm, or_assoc]
  rw [ofList, hfold]
  simp

theorem pairwise_ofList (names : List String) : (ofList names).Pairwise (· < ·) := by
  have hfold (sorted : List String) (h : sorted.Pairwise (· < ·)) :
      (names.foldl (fun sorted name => insert name sorted) sorted).Pairwise (· < ·) := by
    induction names generalizing sorted with
    | nil => exact h
    | cons first names ih => exact ih _ (pairwise_insert first h)
  exact hfold [] .nil

/-! ### Halving -/

/-- Names in front of a place are smaller than a name, and those from an end on are larger. -/
structure Between (name : String) (xs : List String) (place stop : Nat) : Prop where
  within : place ≤ xs.length
  below : ∀ i x, i < place → xs[i]? = some x → x < name
  above : ∀ i x, stop ≤ i → xs[i]? = some x → name < x

theorem halve_spec (hsorted : xs.Pairwise (· < ·)) {base size : Nat}
    (hwithin : base + size ≤ xs.length) (h : Between name xs base (base + size)) :
    let place := halve name xs base size
    Between name xs place (place + 1) := by
  have hmono : ∀ {i j : Nat} {x y : String}, i < j → xs[i]? = some x → xs[j]? = some y → x < y := by
    intro i j x y hij hx hy
    obtain ⟨hi, rfl⟩ := List.getElem?_eq_some_iff.mp hx
    obtain ⟨hj, rfl⟩ := List.getElem?_eq_some_iff.mp hy
    exact List.pairwise_iff_getElem.mp hsorted i j hi hj hij
  have hmiddle : ∀ {middle : Nat}, middle < xs.length → xs[middle]? = some (xs.getD middle "") := by
    intro middle hlt
    rw [List.getElem?_eq_getElem hlt, List.getD_eq_getElem _ _ hlt]
  dsimp only
  fun_induction halve name xs base size with
  | case1 base size hsmall =>
    exact ⟨h.within, h.below, fun i x hi hx => h.above i x (by omega) hx⟩
  | case2 base size hlarge hless ih =>
    -- what stands behind a name that is too large is too large as well
    refine ih (by omega) ⟨h.within, h.below, fun i x hi hx => ?_⟩
    rcases Nat.lt_or_eq_of_le (show base + size / 2 ≤ i by omega) with hlt | rfl
    · exact hless.trans (hmono hlt (hmiddle (by omega)) hx)
    · rw [hmiddle (by omega), Option.some.injEq] at hx
      exact hx ▸ hless
  | case3 base size hlarge hnot ih =>
    refine ih (by omega) ⟨by omega, fun i x hi hx => ?_, fun i x hi hx => ?_⟩
    · exact (hmono hi hx (hmiddle (by omega))).trans_le (not_lt.mp hnot)
    · exact h.above i x (by omega) hx

/-- A search in a sorted list finds the name, or the place that parts smaller from larger names. -/
theorem search_spec (name : String) (hsorted : xs.Pairwise (· < ·)) :
    (∃ place, search name xs = .ok place ∧ xs[place]? = some name ∧
      Between name xs place (place + 1)) ∨
    ∃ place, search name xs = .error place ∧ Between name xs place place := by
  have hstart : Between name xs 0 (0 + xs.length) := by
    refine ⟨Nat.zero_le _, by simp, fun i x hi hx => ?_⟩
    obtain ⟨hlt, -⟩ := List.getElem?_eq_some_iff.mp hx
    omega
  have hplace := halve_spec hsorted (by omega) hstart
  rw [search]
  generalize halve name xs 0 xs.length = place at hplace ⊢
  cases hget : xs[place]? with
  | none =>
    refine Or.inr ⟨place, rfl, hplace.within, hplace.below, fun i x hi hx => ?_⟩
    obtain ⟨hlt, -⟩ := List.getElem?_eq_some_iff.mp hx
    have := List.getElem?_eq_none_iff.mp hget
    omega
  | some found =>
    dsimp only
    split
    · rename_i heq
      exact Or.inl ⟨place, rfl, heq ▸ hget, hplace⟩
    · rename_i hne
      obtain ⟨hlt, -⟩ := List.getElem?_eq_some_iff.mp hget
      split
      · rename_i hless
        refine Or.inr ⟨place + 1, rfl, hlt, fun i x hi hx => ?_, hplace.above⟩
        rcases Nat.lt_or_eq_of_le (Nat.le_of_lt_succ hi) with hi | rfl
        · exact hplace.below i x hi hx
        · cases hget.symm.trans hx
          exact hless
      · rename_i hnot
        have hmore : name < found := lt_of_le_of_ne (not_lt.mp hnot) (Ne.symm hne)
        refine Or.inr ⟨place, rfl, hplace.within, hplace.below, fun i x hi hx => ?_⟩
        rcases Nat.lt_or_eq_of_le hi with hi | rfl
        · exact hplace.above i x hi hx
        · cases hget.symm.trans hx
          exact hmore

/-! ### Insertion -/

theorem insert_append {front : List String} (h : ∀ x ∈ front, x < name) (back : List String) :
    insert name (front ++ back) = front ++ insert name back := by
  induction front with
  | nil => rfl
  | cons x front ih =>
    have hx := h x List.mem_cons_self
    rw [List.cons_append, insert, if_neg (not_lt.mpr hx.le), if_neg (by simpa using hx.ne'),
      ih fun y hy => h y (List.mem_cons_of_mem _ hy), List.cons_append]

theorem insert_of_lt (h : ∀ x ∈ xs, name < x) : insert name xs = name :: xs := by
  cases xs with
  | nil => rfl
  | cons x xs => rw [insert, if_pos (h x List.mem_cons_self)]

theorem Between.insert_eq {place stop : Nat} (h : Between name xs place stop) :
    insert name xs = xs.take place ++ insert name (xs.drop place) := by
  conv => lhs; rw [← List.take_append_drop place xs]
  refine insert_append (fun x hx => ?_) _
  obtain ⟨i, hi, hget⟩ := List.mem_take_iff_getElem.mp hx
  exact h.below i x (by omega) (List.getElem?_eq_some_iff.mpr ⟨by omega, hget⟩)

/-- A name is found in a sorted list exactly if it is there. -/
theorem search_eq_ok_iff (name : String) (hsorted : xs.Pairwise (· < ·)) :
    (∃ place, search name xs = .ok place) ↔ name ∈ xs := by
  rcases search_spec name hsorted with ⟨place, hsearch, hget, -⟩ | ⟨place, hsearch, h⟩
  · exact iff_of_true ⟨place, hsearch⟩ (List.mem_of_getElem? hget)
  · refine iff_of_false (by simp [hsearch]) fun hmem => ?_
    obtain ⟨i, hget⟩ := List.mem_iff_getElem?.mp hmem
    rcases Nat.lt_or_ge i place with hi | hi
    · exact lt_irrefl _ (h.below i name hi hget)
    · exact lt_irrefl _ (h.above i name hi hget)

/-- To insert a name where the search for it ends is to put it at its place. -/
theorem insertFound_eq (name : String) (hsorted : xs.Pairwise (· < ·)) :
    insertFound name xs = insert name xs := by
  rcases search_spec name hsorted with ⟨place, hsearch, hget, h⟩ | ⟨place, hsearch, h⟩
  · obtain ⟨hlt, hat⟩ := List.getElem?_eq_some_iff.mp hget
    have hdrop : xs.drop place = name :: xs.drop (place + 1) := by
      rw [List.drop_eq_getElem_cons hlt, hat]
    rw [insertFound, hsearch, h.insert_eq, hdrop, insert, if_neg (lt_irrefl _),
      if_pos (beq_self_eq_true _), ← hdrop, List.take_append_drop]
  · rw [insertFound, hsearch, h.insert_eq, insert_of_lt]
    intro x hx
    obtain ⟨i, hi, hget⟩ := List.mem_drop_iff_getElem.mp hx
    exact h.above _ x (Nat.le_add_right _ _) (List.getElem?_eq_some_iff.mpr ⟨_, hget⟩)

end QueryBuild.Names
