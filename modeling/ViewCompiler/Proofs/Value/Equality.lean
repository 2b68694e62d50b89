import Mathlib.Data.List.Forall2
import ViewCompiler.Value.Access

/-! Equality of values. Only a text equals a text; lists are equal item by item, dictionaries field by
field. -/
namespace ViewCompiler.Value

variable {v : Value} {s : String} {xs ys : List Value} {fs gs : Fields}

theorem key?_eq_text : v.key? = some (.text s) ↔ v = .str s := by
  cases v with
  | float x => simp only [key?]; cases x.toInt? <;> simp
  | null | bool | int | str | list | dict => simp [key?]

theorem key_eq_text : v.key = .ok (.text s) ↔ v = .str s := by
  rw [← key?_eq_text, key]
  cases v.key? <;> simp

/-- Only a text equals a text. -/
theorem same_str : v.same (.str s) ↔ v = .str s := by
  have scalar : (.str s : Value).key? = some (.text s) := rfl
  cases v with
  | list xs => simp [same, key?]
  | dict fs => simp [same, key?]
  | float x => unfold same; cases found : (Value.float x).key? <;> grind [key?_eq_text]
  | null | bool | int | str => simp [same, key?]

/-- Values that can be keys are equal if they are one key. -/
theorem same_of_key? {w : Value} {j k : Key} (first : v.key? = some j) (second : w.key? = some k) :
    v.same w = (j == k) := by
  unfold same
  split
  · cases first
  · cases first
  · rw [first, second]

theorem sameItems_iff : sameItems xs ys ↔ List.Forall₂ (fun x y => x.same y) xs ys := by
  induction xs generalizing ys with
  | nil => cases ys <;> simp [sameItems]
  | cons x xs ih => cases ys <;> simp [sameItems, ih]

theorem sameFields_iff : sameFields fs gs ↔
    ∀ f ∈ fs, ∃ w, Entries.get? gs f.1 = some w ∧ f.2.same w := by
  induction fs with
  | nil => simp [sameFields]
  | cons f fs ih =>
    rw [sameFields, Bool.and_eq_true, ih, List.forall_mem_cons]
    refine and_congr_left fun _ => ?_
    cases Entries.get? gs f.1 <;> simp

end ViewCompiler.Value
