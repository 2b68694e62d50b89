import ViewCompiler.Node.Same
import ViewCompiler.Proofs.Document.Props
import ViewCompiler.Proofs.Document.Shapes
import ViewCompiler.Proofs.Value.KeyOrder

/-! Order of keys in a document. What precedes what is a matter of the rules alone: documents that differ
in the order of keys expand to fields that do, have the same shape, and are parsed to equal nodes. -/
namespace ViewCompiler

theorem Node.sameNodes_iff {ns ms : List Node} :
    Node.sameNodes ns ms ↔ List.Forall₂ (fun n m => n.same m) ns ms := by
  induction ns generalizing ms with
  | nil => cases ms <;> simp [sameNodes]
  | cons n ns ih => cases ms <;> simp [sameNodes, ih]

namespace Document

variable {file : String} {fs gs : Fields} {raw raw' v : Value} {key : String}

section shorthand

variable {α : Type}

theorem firstPresent_alike (alike : fs.Alike gs) (name : α → String) (as : List α) :
    Option.Rel (fun found found' => found'.1 = found.1 ∧ found.2.Alike found'.2)
      (firstPresent fs name as) (firstPresent gs name as) := by
  induction as with
  | nil => exact .none
  | cons a as ih =>
    rw [firstPresent, firstPresent]
    obtain ⟨left, right⟩ | ⟨v, w, left, right, related⟩ := cases_of_rel (alike.get? (name a)) <;>
      rw [left, right]
    · exact ih
    · exact .some ⟨rfl, related⟩

theorem chartOf_alike (alike : fs.Alike gs) (type : String) :
    (chartOf fs type).Alike (chartOf gs type) := by
  have text : (Value.str type).Alike (.str type) := .scalar rfl
  rw [chartOf, chartOf, axis, axis, axis, axis]
  obtain ⟨left, right⟩ | ⟨_, _, left, right, x⟩ := cases_of_rel (alike.get? "x") <;>
    rw [left, right] <;>
    obtain ⟨left, right⟩ | ⟨_, _, left, right, y⟩ := cases_of_rel (alike.get? "y") <;>
    rw [left, right]
  · exact .cons text rfl .nil
  · exact .cons text rfl (.cons y rfl .nil)
  · exact .cons text rfl (.cons x rfl .nil)
  · exact .cons text rfl (.cons x rfl (.cons y rfl .nil))

theorem isTable_alike (alike : fs.Alike gs) : isTable gs = isTable fs := by
  rw [isTable, isTable, alike.has_eq]
  obtain ⟨left, right⟩ | ⟨v, w, left, right, related⟩ := cases_of_rel (alike.get? "columns") <;>
    rw [left, right]
  cases related <;> rfl

/-- The same rule applies, and what it writes is alike. -/
theorem rewriteOf_alike (alike : fs.Alike gs) :
    (rewriteOf gs).1 = (rewriteOf fs).1 ∧ Fields.Alike (rewriteOf fs).2 (rewriteOf gs).2 := by
  have text (s : String) : (Value.str s).Alike (.str s) := .scalar rfl
  rw [rewriteOf, rewriteOf, alike.has_eq, isTable_alike alike]
  cases Entries.has fs "type" with
  | true => exact ⟨rfl, .nil⟩
  | false =>
  obtain ⟨left, right⟩ | ⟨⟨_, _⟩, ⟨tag, _⟩, left, right, rfl, content⟩ :=
    cases_of_rel (firstPresent_alike alike id headingTags) <;> rw [left, right]
  case inr => exact ⟨rfl, .cons (text _) rfl (.cons (text tag) rfl (.cons content rfl .nil))⟩
  obtain ⟨left, right⟩ | ⟨⟨⟨_, type⟩, _⟩, ⟨_, _⟩, left, right, rfl, source⟩ :=
    cases_of_rel (firstPresent_alike alike Prod.fst chartTypes) <;> rw [left, right]
  case inr =>
    have chart := Value.alike_dict.mpr (chartOf_alike alike type)
    exact ⟨rfl, .cons (text _) rfl (.cons source rfl (.cons chart rfl .nil))⟩
  cases isTable fs with
  | true => exact ⟨rfl, .cons (text _) rfl .nil⟩
  | false => exact ⟨rfl, .nil⟩

theorem expand_alike (alike : fs.Alike gs) : (expand fs).Alike (expand gs) := by
  obtain ⟨gone, written⟩ := rewriteOf_alike alike
  rw [expand_eq, expand_eq, gone]
  exact (alike.eraseAll _).merge written

end shorthand

section shapes

inductive Shape.Alike : Shape → Shape → Prop
  | ref (target) : Alike (.ref target) (.ref target)
  | call (name) {args args' : Fields} (given : args.Alike args') :
      Alike (.call name args) (.call name args')
  | loop (source) {item item' template template' : Value} (named : item.Alike item')
      (inside : template.Alike template') :
      Alike (.loop source item template) (.loop source item' template')
  | slot (name) {description description' : Value} (optional)
      (described : description.Alike description') :
      Alike (.slot name description optional) (.slot name description' optional)
  | frag {items items' : List Value} (inside : List.Forall₂ Value.Alike items items') :
      Alike (.frag items) (.frag items')
  | sect {fields fields' : Fields} {items items' : List Value} (given : fields.Alike fields')
      (inside : List.Forall₂ Value.Alike items items') :
      Alike (.sect fields items) (.sect fields' items')
  | widget {fields fields' : Fields} (given : fields.Alike fields') :
      Alike (.widget fields) (.widget fields')

theorem nonEmpty?_alike (alike : fs.Alike gs) (key : String) :
    nonEmpty? gs key = nonEmpty? fs key := by
  rw [nonEmpty?, nonEmpty?]
  obtain ⟨left, right⟩ | ⟨v, w, left, right, related⟩ := cases_of_rel (alike.get? key) <;>
    rw [left, right]
  cases related <;> rfl

theorem items?_alike (alike : fs.Alike gs) (key : String) :
    Option.Rel (List.Forall₂ Value.Alike) (items? fs key) (items? gs key) := by
  rw [items?, items?]
  obtain ⟨left, right⟩ | ⟨v, w, left, right, related⟩ := cases_of_rel (alike.get? key) <;>
    rw [left, right]
  · exact .none
  · cases related with
    | list length each => exact .some (List.forall₂_iff_zip.mpr ⟨length, each⟩)
    | dict => exact .none
    | scalar bare =>
      cases v with
      | list | dict => cases bare
      | null | bool | int | float | str => exact .none

theorem sectionItems?_alike (alike : fs.Alike gs) :
    Option.Rel (List.Forall₂ Value.Alike) (sectionItems? fs) (sectionItems? gs) := by
  rw [sectionItems?, sectionItems?]
  obtain ⟨left, right⟩ | ⟨items, items', left, right, related⟩ :=
    cases_of_rel (items?_alike alike "widgets") <;> rw [left, right]
  · exact items?_alike alike "sections"
  · exact .some related

/-- Fields that are alike have one shape, with parts that are. -/
theorem Shape.of_alike (alike : fs.Alike gs) : (Shape.of fs).Alike (Shape.of gs) := by
  simp only [Shape.of, nonEmpty?_alike alike, (alike.getD "optional").truthy_eq]
  cases nonEmpty? fs "$ref" with
  | some target => exact .ref target
  | none =>
  cases nonEmpty? fs "$partial" with
  | some name => exact .call name (alike.erase _)
  | none =>
  cases nonEmpty? fs "each" with
  | some source =>
    exact .loop source ((alike.getD "as").orElse (.scalar rfl)) (alike.getD "template")
  | none =>
  cases nonEmpty? fs "$slot" with
  | some name => exact .slot name _ (alike.getD "description")
  | none =>
  obtain ⟨left, right⟩ | ⟨_, _, left, right, inside⟩ :=
    cases_of_rel (items?_alike alike "$fragment") <;> rw [left, right]
  case inr => exact .frag inside
  obtain ⟨left, right⟩ | ⟨_, _, left, right, inside⟩ :=
    cases_of_rel (sectionItems?_alike alike) <;> rw [left, right]
  case inr => exact .sect alike inside
  exact .widget alike

end shapes

section nodes

theorem same_locate (file : String) : (locate (.str file)).same (locate (.str file)) := by
  simp [Head.same, Loose.same, Location.same, locate, Value.sameItems, Value.same, Value.key?]

theorem layoutOf_same {w : Value} (alike : v.Alike w) :
    (layoutOf v).same Layout.same (layoutOf w) := by
  cases alike with
  | scalar bare =>
    cases v with
    | list | dict => cases bare
    | null | bool | int | float | str => rfl
  | list => rfl
  | dict distinct keys each =>
    have given := Value.alike_dict.mp (.dict distinct keys each)
    simp [layoutOf, Loose.same, Layout.same, Value.sameItems, (given.getD _).same]

theorem bindingOf_same {w : Value} (alike : v.Alike w) :
    (bindingOf v).same Binding.same (bindingOf w) := by
  cases alike with
  | scalar bare =>
    cases v with
    | list | dict => cases bare
    | str path =>
      simp [bindingOf, Loose.same, Binding.same, Value.sameItems, Value.same, Value.key?]
    | null | bool | int | float => rfl
  | list | dict => rfl

theorem propsOf_alike (alike : fs.Alike gs) : (propsOf fs).Alike (propsOf gs) := by
  have source := alike.getD "source"
  have picked := alike.filter fun key => ! structuralKeys.contains key
  rw [propsOf, propsOf]
  generalize fs.getD "source" = v, gs.getD "source" = w at source
  cases source with
  | @scalar v bare =>
    cases v with
    | null | str => exact picked
    | bool | int | float | list | dict => exact picked.put (.scalar bare) "source"
  | list length each => exact picked.put (.list length each) "source"
  | dict distinct keys each => exact picked.put (.dict distinct keys each) "source"

/-- The values from which a text is made have no mapping in them. -/
def Plaintext (fs : Fields) : Prop :=
  ∀ key ∈ ["type", "show", "hide"], ∀ v, Entries.get? fs key = some v → v.Flat

theorem condition?_eq (alike : fs.Alike gs) (plaintext : Plaintext fs) :
    condition? gs = condition? fs :=
  condition?_congr fun key listed =>
    alike.getD_eq_of_flat (plaintext key (List.mem_cons_of_mem _ listed))

/-- An expansion writes no type but a text. -/
theorem plaintext_expand (plaintext : Plaintext fs) : Plaintext (expand fs) := by
  intro key member v found
  rcases List.mem_cons.mp member with rfl | other
  · obtain ⟨gone, written, rule⟩ : ∃ gone written, Rule fs gone written := ⟨_, _, rule_rewriteOf fs⟩
    rw [get?_expand_of_rule rule] at found
    cases rule with
    | typed | plain => exact plaintext "type" member v found
    | heading | chart | table =>
      cases found
      exact .scalar rfl
  · have unaffected := (by decide : ∀ key ∈ ["show", "hide"], key ∉ affectedKeys) key other
    rw [get?_expand unaffected] at found
    exact plaintext key member v found

variable {n m : Node}

theorem same_wrap (same : n.same m) (conditions : condition? gs = condition? fs) :
    (wrap (locate (.str file)) fs n).same (wrap (locate (.str file)) gs m) := by
  rw [wrap, wrap, conditions]
  cases condition? fs with
  | none => exact same
  | some c =>
    simp [Node.same, Conditional.same, Node.sameChildren, Node.sameNodes, Loose.null, same,
      same_locate, Value.same, Value.key?]

theorem same_refNode (target : String) :
    (refNode (locate (.str file)) target).same (refNode (locate (.str file)) target) := by
  simp [refNode, Node.same, Ref.same, same_locate, Value.sameItems, Value.same_str]

theorem same_sectionNode {ns ms : List Node} (alike : fs.Alike gs)
    (inside : List.Forall₂ (fun n m => n.same m) ns ms) :
    (sectionNode (locate (.str file)) fs ns).same (sectionNode (locate (.str file)) gs ms) := by
  simp [sectionNode, Node.same, Node.sameChildren, Section.same, Value.sameItems, same_locate,
    (alike.getD _).same, layoutOf_same (alike.getD _), Node.sameNodes_iff.mpr inside]

theorem same_widgetNode (alike : fs.Alike gs) (plaintext : Plaintext fs) :
    (widgetNode (locate (.str file)) fs).same (widgetNode (locate (.str file)) gs) := by
  have props := (Value.alike_dict.mpr (propsOf_alike alike)).same
  simp [widgetNode, Node.same, Widget.same, Value.sameItems, same_locate, props,
    bindingOf_same (alike.getD _), alike.getD_eq_of_flat (plaintext "type" (by decide)),
    Value.same_str]

/-- Shapes that are alike give equal nodes wherever their parts do. -/
theorem same_node (alike : fs.Alike gs) (plaintext : Plaintext fs)
    (inside : ∀ v ∈ (Shape.of fs).parts, ∀ w, v.Alike w →
      (parseChild (.str file) v).same (parseChild (.str file) w)) :
    ((Shape.of fs).node (.str file)).same ((Shape.of gs).node (.str file)) := by
  have related := Shape.of_alike alike
  have items {items items' : List Value} (pairs : List.Forall₂ Value.Alike items items')
      (parts : (Shape.of fs).parts = items) : List.Forall₂ (fun n m => n.same m)
        (items.map (parseChild (.str file))) (items'.map (parseChild (.str file))) := by
    rw [List.forall₂_map_left_iff, List.forall₂_map_right_iff]
    exact forall₂_imp_of_mem pairs fun v member => inside v (parts ▸ member)
  generalize shape : Shape.of fs = s, shape' : Shape.of gs = s' at related items
  cases related with
  | ref target => exact same_refNode target
  | call name given =>
    simp [Shape.node, Node.same, Call.same, same_locate, Value.sameItems, Value.same_str,
      (Value.alike_dict.mpr given).same]
  | @loop source item item' template template' named related =>
    have member : template ∈ (Shape.of fs).parts := by
      rw [shape]
      exact List.mem_singleton_self template
    simp [Shape.node, Node.same, Loop.same, same_locate, Value.sameItems, Value.same_str,
      named.same, inside template member template' related]
  | slot name optional described =>
    have flag := (Value.Alike.scalar rfl : (Value.bool optional).Alike _).same
    simp [Shape.node, Node.same, Slot.same, same_locate, Value.sameItems, Value.same_str,
      described.same, flag]
  | frag pairs =>
    have children := Node.sameNodes_iff.mpr (items pairs rfl)
    simp [Shape.node, Node.same, Node.sameChildren, same_locate, children]
  | sect given pairs =>
    obtain ⟨-, -, -, rfl⟩ := Shape.of_eq_sect.mp shape
    obtain ⟨-, -, -, rfl⟩ := Shape.of_eq_sect.mp shape'
    exact same_wrap (same_sectionNode alike (items pairs rfl)) (condition?_eq alike plaintext)
  | widget given =>
    obtain rfl := Shape.fields_of_widget shape
    obtain rfl := Shape.fields_of_widget shape'
    exact same_wrap (same_widgetNode alike plaintext) (condition?_eq alike plaintext)

end nodes

section documents

/-- The value is read as a child in the place of the first, or somewhere below. -/
inductive ReadIn (raw : Value) : Value → Prop
  | self : ReadIn raw raw
  | part {fs : Fields} {v : Value} (above : ReadIn raw (.dict fs))
      (member : v ∈ (Shape.of (expand fs)).parts) : ReadIn raw v

theorem ReadIn.of_part {v w : Value} (member : v ∈ (Shape.of (expand fs)).parts)
    (read : ReadIn v w) : ReadIn (.dict fs) w := by
  induction read with
  | self => exact .part .self member
  | part _ inside ih => exact .part ih inside

/-- Documents that differ in nothing but the order of keys, at any depth, are parsed to equal nodes, if
no mapping stands where a text is made of the value: in the type of a child or in what shows or hides
it. -/
theorem same_parseChild_of_alike (alike : raw.Alike raw')
    (plaintext : ∀ fs, ReadIn raw (.dict fs) → Plaintext fs) :
    (parseChild (.str file) raw).same (parseChild (.str file) raw') := by
  induction raw using parts_induction generalizing raw' with
  | bare raw bare =>
    have bare' : ∀ fs, raw' ≠ .dict fs := by
      rintro fs rfl
      cases alike with
      | scalar => exact bare fs rfl
      | dict => exact bare _ rfl
    rw [parseChild_of_ne_dict bare, parseChild_of_ne_dict bare']
    exact @same_widgetNode file [] [] .nil fun _ _ _ absurd => by cases absurd
  | mapping fs ih =>
    obtain ⟨gs, rfl⟩ : ∃ gs, raw' = .dict gs := by
      cases alike with
      | scalar bare => cases bare
      | dict => exact ⟨_, rfl⟩
    have alike := Value.alike_dict.mp alike
    rw [parseChild_dict, parseChild_dict]
    refine same_node (expand_alike alike) (plaintext_expand (plaintext fs .self)) ?_
    intro v member w related
    exact ih v member related fun hs read => plaintext hs (read.of_part member)

def news : Value := .dict [("show", .bool true), ("h2", .str "News"),
  ("size", .dict [("width", .int 3), ("height", .int 2)])]

/-- The same with the keys in another order, also in the mapping among the props. -/
def newsReordered : Value := .dict [("size", .dict [("height", .int 2), ("width", .int 3)]),
  ("h2", .str "News"), ("show", .bool true)]

theorem same_parseChild_of_alike_news :
    (parseChild (.str "home.yaml") news).same (parseChild (.str "home.yaml") newsReordered) := by
  have size : (Value.dict [("width", .int 3), ("height", .int 2)]).Alike
      (.dict [("height", .int 2), ("width", .int 3)]) :=
    .dict (by decide) (by decide) fun {key v w} left right => by
      have member := Entries.mem_of_get? left
      simp only [List.mem_cons, Prod.mk.injEq, List.not_mem_nil, or_false] at member
      obtain ⟨rfl, rfl⟩ | ⟨rfl, rfl⟩ := member <;> cases right <;> exact .scalar rfl
  have alike : news.Alike newsReordered :=
    .dict (by decide) (by decide) fun {key v w} left right => by
      have member := Entries.mem_of_get? left
      simp only [List.mem_cons, Prod.mk.injEq, List.not_mem_nil, or_false] at member
      obtain ⟨rfl, rfl⟩ | ⟨rfl, rfl⟩ | ⟨rfl, rfl⟩ := member <;> cases right
      · exact .scalar rfl
      · exact .scalar rfl
      · exact size
  -- A heading has no children, so only the mapping itself is read as one.
  have only {v : Value} (read : ReadIn news v) : v = news := by
    induction read with
    | self => rfl
    | part _ member ih =>
      cases ih
      cases member
  refine same_parseChild_of_alike alike fun fs read key member v found => ?_
  cases only read
  simp only [List.mem_cons, List.not_mem_nil, or_false] at member
  obtain rfl | rfl | rfl := member <;> cases found
  exact .scalar rfl

end documents

end Document
end ViewCompiler
