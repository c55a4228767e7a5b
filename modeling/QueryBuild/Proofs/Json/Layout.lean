import Mathlib.Tactic.Common
import QueryBuild.Json.Basic
import QueryBuild.Json.Reader
/-!
# Layouts of JSON text

The same value can be written in several ways that differ in white space only. A layout says where
there is some; one layout puts every entry on a line of its own, another has no white space at all.
What is read back does not depend on it.
-/

namespace QueryBuild.Json

/-- The white space of a text: in front of an entry at a level and of the bracket behind the entries
of the level below, and between a colon and its value. -/
structure Layout where
  gap : Nat → List Char
  space : List Char
  gap_blank : ∀ level, ∀ c ∈ gap level, Reader.isSpace c = true
  space_blank : ∀ c ∈ space, Reader.isSpace c = true

/-- The characters of a string in quotes. -/
def quoted (s : String) : List Char :=
  '"' :: (s.toList.flatMap escape ++ ['"'])

namespace Layout

variable (l : Layout)

mutual

/-- The characters of a value whose first line stands at a level. -/
def render (level : Nat) : Json → List Char
  | .null => ['n', 'u', 'l', 'l']
  | .bool true => ['t', 'r', 'u', 'e']
  | .bool false => ['f', 'a', 'l', 's', 'e']
  | .num n => n.repr.toList
  | .str s => quoted s
  | .arr [] => ['[', ']']
  | .arr (x :: xs) =>
    '[' :: (l.gap (level + 1) ++ (render (level + 1) x ++ (renderItems (level + 1) xs ++
      (l.gap level ++ [']']))))
  | .obj [] => ['\x7b', '\x7d']
  | .obj (f :: fs) =>
    '\x7b' :: (l.gap (level + 1) ++ (renderField (level + 1) f ++ (renderFields (level + 1) fs ++
      (l.gap level ++ ['\x7d']))))

/-- The items after the first one. -/
def renderItems (level : Nat) : List Json → List Char
  | [] => []
  | x :: xs => ',' :: (l.gap level ++ (render level x ++ renderItems level xs))

/-- A key and its value. -/
def renderField (level : Nat) : String × Json → List Char
  | (key, value) => quoted key ++ ':' :: (l.space ++ render level value)

/-- The fields after the first one. -/
def renderFields (level : Nat) : List (String × Json) → List Char
  | [] => []
  | f :: fs => ',' :: (l.gap level ++ (renderField level f ++ renderFields level fs))

end

/-- The text of a value. -/
def text (value : Json) : String :=
  String.ofList (l.render 0 value)

/-- Every entry on a line of its own. -/
def pretty : Layout where
  gap level := '\n' :: List.replicate (2 * level) ' '
  space := [' ']
  gap_blank level c hc := by
    rcases List.mem_cons.mp hc with rfl | hc
    · decide
    · rw [List.eq_of_mem_replicate hc]
      decide
  space_blank c hc := by
    rw [List.mem_singleton.mp hc]
    decide

@[simp]
theorem pretty_gap (level : Nat) :
    pretty.gap level = '\n' :: List.replicate (2 * level) ' ' :=
  rfl

@[simp]
theorem pretty_space : pretty.space = [' '] :=
  rfl

/-- No white space. -/
def compact : Layout where
  gap _ := []
  space := []
  gap_blank _ _ hc := by cases hc
  space_blank _ hc := by cases hc

end Layout

theorem toList_quote (s : String) : (quote s).toList = quoted s := by
  rw [quote, String.toList_ofList]
  rfl

mutual

theorem toList_render (level : Nat) (v : Json) :
    (render level v).toList = Layout.pretty.render level v := by
  match v with
  | .null => simp [render, Layout.render]
  | .bool true => simp [render, Layout.render]
  | .bool false => simp [render, Layout.render]
  | .num n => rfl
  | .str s => exact toList_quote s
  | .arr [] => simp [render, Layout.render]
  | .arr (x :: xs) =>
    have hx := toList_render (level + 1) x
    have hxs := toList_renderItems (level + 1) xs
    simp [render, Layout.render, newline, hx, hxs]
  | .obj [] => simp [render, Layout.render]
  | .obj (f :: fs) =>
    have hf := toList_renderField (level + 1) f
    have hfs := toList_renderFields (level + 1) fs
    simp [render, Layout.render, newline, hf, hfs]

theorem toList_renderItems (level : Nat) (xs : List Json) :
    (renderItems level xs).toList = Layout.pretty.renderItems level xs := by
  match xs with
  | [] => rfl
  | x :: xs =>
    have hx := toList_render level x
    have hxs := toList_renderItems level xs
    simp [renderItems, Layout.renderItems, newline, hx, hxs]

theorem toList_renderField (level : Nat) (f : String × Json) :
    (renderField level f).toList = Layout.pretty.renderField level f := by
  match f with
  | (key, value) =>
    have hvalue := toList_render level value
    simp [renderField, Layout.renderField, toList_quote, hvalue]

theorem toList_renderFields (level : Nat) (fs : List (String × Json)) :
    (renderFields level fs).toList = Layout.pretty.renderFields level fs := by
  match fs with
  | [] => rfl
  | f :: fs =>
    have hf := toList_renderField level f
    have hfs := toList_renderFields level fs
    simp [renderFields, Layout.renderFields, newline, hf, hfs]

end

/-- The text of a value is that of the layout with a line for every entry. -/
theorem text_eq_pretty (v : Json) : v.text = Layout.pretty.text v := by
  rw [text, Layout.text, ← toList_render, String.ofList_toList]

end QueryBuild.Json
