import ViewCompiler.Document.Child

/-! The parts of a mapping: the values that its shape hands on as children. What a mapping becomes is
the node of its shape over what its parts become, and `parts_induction` is the one induction over what
is parsed. -/
namespace ViewCompiler.Document

/-- The values that are read as the children of the shape. -/
def Shape.parts : Shape → List Value
  | .loop _ _ template => [template]
  | .frag items | .sect _ items => items
  | .ref _ | .call _ _ | .slot _ _ _ | .widget _ => []

/-- The node of the shape, over what its parts become. -/
def Shape.node (file : Value) : Shape → Node
  | .ref target => refNode (locate file) target
  | .call name args => .call { toHead := locate file, name := .str name, args := .dict args }
  | .loop source item template =>
    .loop { toHead := locate file, source := .str source, item } (parseChild file template)
  | .slot name description optional =>
    .slot { toHead := locate file, name := .str name, description, optional := .bool optional }
  | .frag items => .frag { toHead := locate file } (.proper (items.map (parseChild file)))
  | .sect fields items => wrap (locate file) fields
      (sectionNode (locate file) fields (items.map (parseChild file)))
  | .widget fields => wrap (locate file) fields (widgetNode (locate file) fields)

variable {file raw : Value} {fs : Fields}

theorem parseItems_eq_map (file : Value) (items : List Value) :
    parseItems file items = items.map (parseChild file) := by
  induction items with
  | nil => rw [parseItems]; rfl
  | cons v vs ih => rw [parseItems, ih]; rfl

theorem parseChild_dict (file : Value) (fs : Fields) :
    parseChild file (.dict fs) = (Shape.of (expand fs)).node file := by
  rw [parseChild]
  split <;> rename_i shape <;> rw [shape, Shape.node]
  · rw [parseItems_eq_map]
  · rw [parseItems_eq_map]

/-- What is no mapping becomes a widget of unknown type. -/
theorem parseChild_of_ne_dict (bare : ∀ fs, raw ≠ .dict fs) :
    parseChild file raw = .widget { toHead := locate file, type := .str unknownType } := by
  cases raw with
  | dict fs => exact absurd rfl (bare fs)
  | null | bool | int | float | str | list => rw [parseChild]; simp

theorem sizeOf_lt_of_mem_parts {v : Value} (member : v ∈ (Shape.of (expand fs)).parts) :
    sizeOf v < sizeOf (Value.dict fs) := by
  have within := Shape.within_of_expand fs
  cases shape : Shape.of (expand fs) with
  | loop source item template =>
    rw [shape] at within member
    obtain rfl := List.mem_singleton.mp member
    exact within
  | frag items | sect fields items =>
    rw [shape] at within member
    exact Nat.lt_trans (List.sizeOf_lt_of_mem member) within
  | ref | call | slot | widget => rw [shape] at member; cases member

/-- What holds of all values but mappings, and of a mapping whenever it holds of its parts, holds of
every value. -/
theorem parts_induction {P : Value → Prop} (bare : ∀ raw, (∀ fs, raw ≠ .dict fs) → P raw)
    (mapping : ∀ fs, (∀ v ∈ (Shape.of (expand fs)).parts, P v) → P (.dict fs)) : ∀ raw, P raw := by
  intro raw
  induction size : sizeOf raw using Nat.strongRecOn generalizing raw with
  | ind k ih =>
    cases raw with
    | dict fs =>
      exact mapping fs fun v member => ih _ (size ▸ sizeOf_lt_of_mem_parts member) v rfl
    | null | bool | int | float | str | list => exact bare _ fun fs same => by cases same

end ViewCompiler.Document
