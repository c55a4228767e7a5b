/-!
# Results that may be errors

A function that is applied to a result changes its value and keeps its error.
-/

namespace QueryBuild

variable {ε α β : Type} {f : α → β} {result : Except ε α}

theorem ok_of_map {b : β} (h : result.map f = .ok b) : ∃ a, result = .ok a ∧ f a = b := by
  cases result with
  | error e => cases h
  | ok a =>
    cases h
    exact ⟨a, rfl, rfl⟩

theorem error_of_map {e : ε} (h : result.map f = .error e) : result = .error e := by
  cases result with
  | error e' =>
    cases h
    rfl
  | ok a => cases h

end QueryBuild
