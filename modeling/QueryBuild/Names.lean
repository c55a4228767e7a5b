/-!
# Sorted lists of names

Names in strictly increasing order, as sets. The order of strings by code points is also the order
of their UTF-8 bytes.
-/

namespace QueryBuild.Names

/-- The list with a name added at its place, unless it is there already. -/
def insert (name : String) : List String → List String
  | [] => [name]
  | x :: xs =>
    if name < x then name :: x :: xs
    else if name == x then x :: xs
    else x :: insert name xs

/-- The names of a list, sorted and without repetitions. -/
def ofList (names : List String) : List String :=
  names.foldl (fun sorted name => insert name sorted) []

theorem mem_insert {name x : String} {xs : List String} :
    x ∈ insert name xs ↔ x = name ∨ x ∈ xs := by
  induction xs with
  | nil => simp [insert]
  | cons y ys ih =>
    rw [insert]
    split
    · simp
    · split
      · rename_i h
        simp only [beq_iff_eq] at h
        simp [h]
      · simp only [List.mem_cons, ih]
        exact ⟨fun h => by rcases h with h | h | h <;> simp [h],
          fun h => by rcases h with h | h | h <;> simp [h]⟩

end QueryBuild.Names
