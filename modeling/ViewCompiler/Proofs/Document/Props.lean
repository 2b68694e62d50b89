import ViewCompiler.Proofs.Document.Parsed

/-! What a mapping gives to the widget that is parsed from it. A structural key never becomes a prop,
except for a source that is no text; every other key does, with its value. -/
namespace ViewCompiler

/-- The node is the widget, or the widget with a condition around it. -/
def Node.Presents (n : Node) (w : Widget) : Prop :=
  n = .widget w ∨ ∃ c, n = .cond c (.proper [.widget w]) .null

namespace Document

section props

variable {fs : Fields} {key : String}

/-- The fields of a widget that are props whatever their values are. -/
def picked (fs : Fields) : Fields := fs.filter fun f => ! structuralKeys.contains f.1

theorem get?_picked (fs : Fields) (key : String) : Entries.get? (picked fs) key =
    if structuralKeys.contains key then none else Entries.get? fs key := by
  rw [picked, Entries.get?_filter fun key => ! structuralKeys.contains key]
  cases structuralKeys.contains key <;> rfl

theorem get?_propsOf_of_ne (other : key ≠ "source") :
    Entries.get? (propsOf fs) key =
      if structuralKeys.contains key then none else Entries.get? fs key := by
  unfold propsOf
  split
  · exact get?_picked fs key
  · exact get?_picked fs key
  · rw [Entries.get?_put_of_ne _ _ other.symm]
    exact get?_picked fs key

/-- A source is a binding or a prop, as it is a text or not, and never both. -/
theorem source_cases (fs : Fields) :
    (fs.getD "source" = .null ∧ bindingOf (fs.getD "source") = .null ∧
      Entries.get? (propsOf fs) "source" = none) ∨
    (∃ path, fs.getD "source" = .str path ∧
      bindingOf (fs.getD "source") = .proper { path := .str path } ∧
      Entries.get? (propsOf fs) "source" = none) ∨
    ((fs.getD "source").isNull = false ∧ (fs.getD "source").isStr = false ∧
      bindingOf (fs.getD "source") = .null ∧
      Entries.get? (propsOf fs) "source" = some (fs.getD "source")) := by
  unfold propsOf
  cases fs.getD "source" with
  | null => exact .inl ⟨rfl, rfl, get?_picked fs "source"⟩
  | str path => exact .inr (.inl ⟨path, rfl, rfl, get?_picked fs "source"⟩)
  | bool | int | float | list | dict =>
    exact .inr (.inr ⟨rfl, rfl, rfl, Entries.get?_put_self _ _ _⟩)

end props

section shape

variable {file : Value} {fs fields : Fields} {w : Widget} {n : Node}

theorem expand_of_typed {type : Value} (typed : Entries.get? fs "type" = some type) :
    expand fs = fs := by
  rw [expand, Entries.has, typed]
  rfl

/-- What is no other shape is a widget with all its fields. -/
theorem Shape.fields_of_widget (shape : Shape.of fs = .widget fields) : fields = fs := by
  unfold Shape.of at shape
  repeat' split at shape
  all_goals cases shape
  rfl

theorem eq_widget_of_presents_wrap {head : Head} (presents : (wrap head fs n).Presents w)
    (bare : ∀ c body otherwise, n ≠ .cond c body otherwise) : n = .widget w := by
  unfold wrap at presents
  split at presents
  · obtain same | ⟨c, same⟩ := presents <;> cases same
    rfl
  · obtain same | ⟨c, same⟩ := presents
    · exact same
    · exact absurd same (bare _ _ _)

/-- A widget is made of the fields of the mapping, once these are expanded. -/
theorem eq_widgetNode_of_presents (presents : (parseChild file (.dict fs)).Presents w) :
    Node.widget w = widgetNode (locate file) (expand fs) := by
  rw [parseChild_dict] at presents
  cases shape : Shape.of (expand fs) with
  | ref | call | loop | slot | frag =>
    rw [shape] at presents
    obtain same | ⟨_, same⟩ := presents <;> cases same
  | sect fields items =>
    rw [shape] at presents
    cases eq_widget_of_presents_wrap presents fun _ _ _ absurd => by cases absurd
  | widget fields =>
    rw [shape] at presents
    obtain rfl := Shape.fields_of_widget shape
    exact (eq_widget_of_presents_wrap presents fun _ _ _ absurd => by cases absurd).symm

end shape

end Document
end ViewCompiler
