import ViewCompiler.Proofs.Document.Parsed
import ViewCompiler.Proofs.Document.Shorthands

/-! Shapes of mappings. A mapping keeps its shape when the items for its children are changed one by
one: no shorthand looks at them, and the rules only ask where there are items. -/
namespace ViewCompiler.Document

/-- The keys under which a list holds the children of a mapping. -/
def itemKeys : List String := ["$fragment", "widgets", "sections"]

/-- The keys under which a text alone makes a shape of a mapping. -/
def textKeys : List String := ["$ref", "$partial", "each", "$slot"]

def conditionKeys : List String := ["show", "hide"]

def sectionKeys : List String := ["name", "layout", "tag", "aria-label"]

/-- No text makes a shape of the mapping. -/
def Plain (fs : Fields) : Prop := ∀ key ∈ textKeys, nonEmpty? fs key = none

variable {file : Value} {fs gs fields : Fields} {items : List Value} {key : String} {v : Value}
  {head : Head} {n : Node}

section congr

theorem nonEmpty?_congr (same : Entries.get? gs key = Entries.get? fs key) :
    nonEmpty? gs key = nonEmpty? fs key := by
  rw [nonEmpty?, same]
  rfl

theorem items?_congr (same : Entries.get? gs key = Entries.get? fs key) :
    items? gs key = items? fs key := by
  rw [items?, same]
  rfl

theorem condition?_congr (same : ∀ key ∈ conditionKeys, gs.getD key = fs.getD key) :
    condition? gs = condition? fs := by
  rw [condition?, same "show" (by decide), same "hide" (by decide)]
  rfl

/-- A condition is made of the values under its keys, whatever the others are. -/
theorem wrap_congr (same : ∀ key ∈ conditionKeys, gs.getD key = fs.getD key) :
    wrap head gs n = wrap head fs n := by
  rw [wrap, condition?_congr same]
  rfl

theorem sectionNode_congr (same : ∀ key ∈ sectionKeys, gs.getD key = fs.getD key)
    (children : List Node) : sectionNode head gs children = sectionNode head fs children := by
  rw [sectionNode, same "name" (by decide), same "layout" (by decide), same "tag" (by decide),
    same "aria-label" (by decide)]
  rfl

end congr

section shape

theorem plain_iff : Plain fs ↔ nonEmpty? fs "$ref" = none ∧ nonEmpty? fs "$partial" = none ∧
    nonEmpty? fs "each" = none ∧ nonEmpty? fs "$slot" = none := by
  simp [Plain, textKeys]

theorem Shape.of_of_plain (plain : Plain fs) : Shape.of fs =
    (items? fs "$fragment").elim ((sectionItems? fs).elim (.widget fs) (.sect fs)) .frag := by
  obtain ⟨ref, call, loop, slot⟩ := plain_iff.mp plain
  rw [Shape.of, ref, call, loop, slot]
  cases items? fs "$fragment" with
  | some items => rfl
  | none => cases sectionItems? fs <;> rfl

theorem nonEmpty?_eq_some {name : String} : nonEmpty? fs key = some name ↔
    Entries.get? fs key = some (.str name) ∧ name ≠ "" := by
  rw [nonEmpty?]
  split
  · next s found =>
    rw [found, Option.some.injEq, Value.str.injEq]
    by_cases empty : s = ""
    · rw [if_pos empty]
      simp only [reduceCtorEq, false_iff, not_and, not_not]
      exact fun same => same ▸ empty
    · rw [if_neg empty, Option.some.injEq]
      exact ⟨fun same => ⟨same, same ▸ empty⟩, And.left⟩
  · next other =>
    simp only [reduceCtorEq, false_iff, not_and]
    exact fun found => absurd found (other name)

theorem nonEmpty?_eq_none :
    nonEmpty? fs key = none ↔ ∀ s, Entries.get? fs key = some (.str s) → s = "" := by
  rw [Option.eq_none_iff_forall_ne_some]
  refine forall_congr' fun s => ?_
  rw [ne_eq, nonEmpty?_eq_some, not_and, not_not]

theorem nonEmpty?_expand (other : key ∉ affectedKeys) :
    nonEmpty? (expand fs) key = nonEmpty? fs key :=
  nonEmpty?_congr (get?_expand other)

def Shape.name? : Shape → Option String
  | .ref target => some target
  | .call name _ => some name
  | .loop source _ _ => some source
  | .slot name _ _ => some name
  | .frag _ | .sect _ _ | .widget _ => none

theorem Shape.name_ne_empty {name : String} (named : (Shape.of fs).name? = some name) :
    name ≠ "" := by
  have given : ∃ key, nonEmpty? fs key = some name := by
    unfold Shape.of at named
    repeat' split at named
    all_goals cases named
    all_goals exact ⟨_, ‹_›⟩
  obtain ⟨_, found⟩ := given
  exact (nonEmpty?_eq_some.mp found).2

theorem Shape.of_eq_call {name : String} {args : Fields} : Shape.of fs = .call name args ↔
    nonEmpty? fs "$ref" = none ∧ nonEmpty? fs "$partial" = some name ∧
      args = Entries.erase fs "$partial" := by
  constructor
  · intro shape
    unfold Shape.of at shape
    repeat' split at shape
    all_goals cases shape
    exact ⟨‹_›, ‹_›, rfl⟩
  · rintro ⟨noRef, named, rfl⟩
    rw [Shape.of, noRef, named]

theorem Shape.of_eq_frag :
    Shape.of fs = .frag items ↔ Plain fs ∧ items? fs "$fragment" = some items := by
  constructor
  · intro shape
    unfold Shape.of at shape
    repeat' split at shape
    all_goals cases shape
    exact ⟨plain_iff.mpr ⟨‹_›, ‹_›, ‹_›, ‹_›⟩, ‹_›⟩
  · rintro ⟨plain, found⟩
    rw [Shape.of_of_plain plain, found, Option.elim_some]

theorem Shape.of_eq_sect : Shape.of fs = .sect fields items ↔ Plain fs ∧
    items? fs "$fragment" = none ∧ sectionItems? fs = some items ∧ fields = fs := by
  constructor
  · intro shape
    unfold Shape.of at shape
    repeat' split at shape
    all_goals cases shape
    exact ⟨plain_iff.mpr ⟨‹_›, ‹_›, ‹_›, ‹_›⟩, ‹_›, ‹_›, rfl⟩
  · rintro ⟨plain, absent, found, rfl⟩
    rw [Shape.of_of_plain plain, absent, found, Option.elim_none, Option.elim_some]

theorem parseChild_of_frag (shape : Shape.of (expand fs) = .frag items) :
    parseChild file (.dict fs) =
      .frag { toHead := locate file } (.proper (items.map (parseChild file))) := by
  rw [parseChild_dict, shape, Shape.node]

theorem parseChild_of_sect (shape : Shape.of (expand fs) = .sect fields items) :
    parseChild file (.dict fs) = wrap (locate file) fields
      (sectionNode (locate file) fields (items.map (parseChild file))) := by
  rw [parseChild_dict, shape, Shape.node]

theorem parseChild_of_widget (shape : Shape.of (expand fs) = .widget fields) :
    parseChild file (.dict fs) = wrap (locate file) fields (widgetNode (locate file) fields) := by
  rw [parseChild_dict, shape, Shape.node]

end shape

def changeItems (f : Value → Value) (key : String) : Value → Value
  | .list items => .list (if key ∈ itemKeys then items.map f else items)
  | v => v

def withItems (f : Value → Value) (fs : Fields) : Fields := Entries.mapValues (changeItems f) fs

section withItems

variable (f : Value → Value)

theorem changeItems_of_not_mem (other : key ∉ itemKeys) : changeItems f key v = v := by
  cases v with
  | list items => rw [changeItems, if_neg other]
  | null | bool | int | float | str | dict => rfl

theorem get?_withItems (fs : Fields) (key : String) :
    Entries.get? (withItems f fs) key = (Entries.get? fs key).map (changeItems f key) :=
  Entries.get?_mapValues (changeItems f) fs key

theorem get?_withItems_of_not_mem (fs : Fields) (other : key ∉ itemKeys) :
    Entries.get? (withItems f fs) key = Entries.get? fs key := by
  rw [get?_withItems]
  cases Entries.get? fs key with
  | none => rfl
  | some v => exact congrArg some (changeItems_of_not_mem f other)

/-- No rule of the shorthand sees the items for the children. -/
theorem overlooked_withItems : Overlooked (withItems f) where
  get? _ seen fs := get?_withItems_of_not_mem f fs
    ((by decide : ∀ key ∈ "columns" :: affectedKeys, key ∉ itemKeys) _ seen)
  erase key _ fs := Entries.erase_mapValues (changeItems f) fs key
  put key affected v fs := by
    have other : key ∉ itemKeys := (by decide : ∀ key ∈ affectedKeys, key ∉ itemKeys) key affected
    conv_lhs => rw [← changeItems_of_not_mem f other (v := v)]
    exact Entries.put_mapValues (changeItems f) fs key v

theorem expand_withItems (fs : Fields) : expand (withItems f fs) = withItems f (expand fs) :=
  (overlooked_withItems f).expand fs

theorem plain_withItems (plain : Plain fs) : Plain (withItems f fs) := by
  intro key listed
  have other : key ∉ itemKeys := (by decide : ∀ key ∈ textKeys, key ∉ itemKeys) key listed
  rw [nonEmpty?_congr (get?_withItems_of_not_mem f fs other)]
  exact plain key listed

theorem items?_withItems (fs : Fields) (member : key ∈ itemKeys) :
    items? (withItems f fs) key = (items? fs key).map (·.map f) := by
  rw [items?, items?, get?_withItems]
  cases Entries.get? fs key with
  | none => rfl
  | some v =>
    cases v with
    | list items =>
      rw [Option.map_some, changeItems, if_pos member]
      rfl
    | null | bool | int | float | str | dict => rfl

theorem sectionItems?_withItems (fs : Fields) :
    sectionItems? (withItems f fs) = (sectionItems? fs).map (·.map f) := by
  rw [sectionItems?, sectionItems?, items?_withItems f fs (by decide),
    items?_withItems f fs (by decide)]
  cases items? fs "widgets" <;> rfl

theorem frag_withItems (shape : Shape.of (expand fs) = .frag items) :
    Shape.of (expand (withItems f fs)) = .frag (items.map f) := by
  obtain ⟨plain, found⟩ := Shape.of_eq_frag.mp shape
  rw [expand_withItems, Shape.of_eq_frag, items?_withItems f _ (by decide), found]
  exact ⟨plain_withItems f plain, rfl⟩

theorem sect_withItems (shape : Shape.of (expand fs) = .sect fields items) :
    Shape.of (expand (withItems f fs)) = .sect (withItems f fields) (items.map f) := by
  obtain ⟨plain, absent, found, rfl⟩ := Shape.of_eq_sect.mp shape
  rw [expand_withItems, Shape.of_eq_sect, items?_withItems f _ (by decide), absent,
    sectionItems?_withItems, found]
  exact ⟨plain_withItems f plain, rfl, rfl, rfl⟩

theorem getD_withItems_of_not_mem (fs : Fields) (other : key ∉ itemKeys) :
    (withItems f fs).getD key = fs.getD key := by
  rw [Fields.getD, get?_withItems_of_not_mem f fs other]
  rfl

end withItems

end ViewCompiler.Document
