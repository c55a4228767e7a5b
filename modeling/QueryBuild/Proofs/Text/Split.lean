import Mathlib.Data.List.DropRight
import QueryBuild.Text.Blank
/-!
# Cutting and joining lists

How the pieces between separators behave when lists are put together.
-/

namespace QueryBuild.Text

variable {α : Type} {p : α → Bool}

theorem splitOn_of_forall_not {xs : List α} (h : ∀ x ∈ xs, p x = false) : splitOn p xs = [xs] := by
  induction xs with
  | nil => rfl
  | cons x xs ih =>
    have hx : p x = false := h x (by simp)
    have hxs := ih fun y hy => h y (List.mem_cons_of_mem _ hy)
    rw [splitOn, hx, hxs]
    simp

theorem splitOn_of_notMem [BEq α] [LawfulBEq α] {x : α} {xs : List α} (h : x ∉ xs) :
    splitOn (· == x) xs = [xs] :=
  splitOn_of_forall_not fun _ hy => beq_eq_false_iff_ne.mpr fun heq => h (heq ▸ hy)

theorem not_of_mem_splitOn {xs piece : List α} (hpiece : piece ∈ splitOn p xs) {x : α}
    (hx : x ∈ piece) : p x = false := by
  induction xs generalizing piece with
  | nil =>
    rw [List.mem_singleton.mp hpiece] at hx
    simp at hx
  | cons y xs ih =>
    rw [splitOn] at hpiece
    by_cases hy : p y = true
    · rw [if_pos hy] at hpiece
      rcases List.mem_cons.mp hpiece with rfl | hpiece
      · simp at hx
      · exact ih hpiece hx
    · rw [if_neg hy] at hpiece
      cases hsplit : splitOn p xs with
      | nil => exact absurd hsplit (splitOn_ne_nil p xs)
      | cons first rest =>
        rw [hsplit] at hpiece ih
        rcases List.mem_cons.mp hpiece with rfl | hpiece
        · rcases List.mem_cons.mp hx with rfl | hx
          · simpa using hy
          · exact ih (List.mem_cons_self) hx
        · exact ih (List.mem_cons_of_mem _ hpiece) hx

theorem splitOn_append_cons {x : α} (hx : p x = true) (front back : List α) :
    splitOn p (front ++ x :: back) = splitOn p front ++ splitOn p back := by
  induction front with
  | nil => simp [splitOn, hx]
  | cons y front ih =>
    rw [List.cons_append, splitOn, splitOn, ih]
    by_cases hy : p y = true
    · rw [if_pos hy, if_pos hy, List.cons_append]
    · rw [if_neg hy, if_neg hy]
      cases hfront : splitOn p front with
      | nil => exact absurd hfront (splitOn_ne_nil p front)
      | cons piece rest => rfl

theorem intercalate_splitOn [BEq α] [LawfulBEq α] (x : α) (xs : List α) :
    List.intercalate [x] (splitOn (· == x) xs) = xs := by
  induction xs with
  | nil => rfl
  | cons y xs ih =>
    rw [splitOn]
    cases hpieces : splitOn (· == x) xs with
    | nil => exact absurd hpieces (splitOn_ne_nil _ xs)
    | cons piece rest =>
      rw [hpieces] at ih
      by_cases hy : (y == x) = true
      · rw [if_pos hy, List.intercalate_cons_of_ne_nil (by simp), ih, beq_iff_eq.mp hy]
        rfl
      · rw [if_neg hy]
        cases rest with
        | nil => simpa using ih
        | cons second rest =>
          rw [List.intercalate_cons_of_ne_nil (by simp)] at ih ⊢
          rw [← ih]
          simp

theorem dropTail_concat {x : α} (hx : p x = false) (xs : List α) :
    dropTail p (xs ++ [x]) = xs ++ [x] := by
  simp [dropTail, hx]

theorem splitOn_intercalate [BEq α] [LawfulBEq α] (x : α) {pieces : List (List α)}
    (hsome : pieces ≠ []) (h : ∀ piece ∈ pieces, x ∉ piece) :
    splitOn (· == x) (List.intercalate [x] pieces) = pieces := by
  induction pieces with
  | nil => exact absurd rfl hsome
  | cons piece pieces ih =>
    cases pieces with
    | nil => simpa using splitOn_of_notMem (h piece List.mem_cons_self)
    | cons second pieces =>
      have hrest := ih (by simp) fun other hother => h other (List.mem_cons_of_mem _ hother)
      rw [List.intercalate_cons_of_ne_nil (by simp), List.append_assoc, List.singleton_append,
        splitOn_append_cons (p := (· == x)) (beq_self_eq_true x), hrest,
        splitOn_of_notMem (h piece List.mem_cons_self), List.singleton_append]

theorem filter_dropTail (xs : List α) :
    (dropTail p xs).filter (!p ·) = xs.filter (!p ·) := by
  have hdropped : (xs.reverse.takeWhile p).reverse.filter (!p ·) = [] := by
    rw [List.filter_eq_nil_iff]
    intro x hx
    have hp := List.mem_takeWhile_imp (List.mem_reverse.mp hx)
    simp [hp]
  conv_rhs => rw [← dropTail_append_tail p xs]
  rw [List.filter_append, hdropped, List.append_nil]

theorem dropTail_dropTail (xs : List α) : dropTail p (dropTail p xs) = dropTail p xs := by
  rw [dropTail, dropTail, List.reverse_reverse, List.dropWhile_idempotent]

end QueryBuild.Text
