import ViewCompiler.Proofs.Document.Props
import ViewCompiler.Proofs.Document.Shapes
import ViewCompiler.Proofs.Template.Placeholders

/-! Templates filled before they are parsed. To fill a parsed template is to parse the template with the
arguments put into its mappings of widgets: what comes in the place of a source is a binding or a prop
as the parser would have it. -/
namespace ViewCompiler.Document

/-- The keys that may make anything but a widget of a mapping. -/
def shapeKeys : List String := textKeys ++ itemKeys

/-- Templates as they are written: sections and fragments over mappings of widgets with a type. -/
inductive IsTemplate : Value → Prop
  | widget {fs} (typed : Entries.has fs "type")
      (plain : ∀ key ∈ shapeKeys, Entries.has fs key = false) : IsTemplate (.dict fs)
  | sect {fs fields items} (shape : Shape.of (expand fs) = .sect fields items)
      (each : ∀ v ∈ items, IsTemplate v) : IsTemplate (.dict fs)
  | frag {fs items} (shape : Shape.of (expand fs) = .frag items)
      (each : ∀ v ∈ items, IsTemplate v) : IsTemplate (.dict fs)

/-- A field of a widget with an argument put in: only its source and its props are filled. -/
def fillField (args : Fields) (key : String) (v : Value) : Value :=
  if key = "source" ∨ key ∉ structuralKeys then fill args v else v

def fillFields (args fs : Fields) : Fields := Entries.mapValues (fillField args) fs

def hasItems (fs : Fields) : Bool := itemKeys.any fun key => (items? fs key).isSome

mutual
/-- The template as it is written, with arguments put into the mappings of its widgets. -/
def fillRaw (args : Fields) : Value → Value
  | .dict fs => .dict (if hasItems fs then fillHolder args fs else fillFields args fs)
  | v => v

def fillHolder (args : Fields) : Fields → Fields
  | [] => []
  | (key, v) :: fs => (key, if key ∈ itemKeys then fillPlace args v else v) :: fillHolder args fs

def fillPlace (args : Fields) : Value → Value
  | .list items => .list (fillItems args items)
  | v => v

def fillItems (args : Fields) : List Value → List Value
  | [] => []
  | v :: vs => fillRaw args v :: fillItems args vs
end

variable {args fs fields : Fields} {file v : Value} {items : List Value} {key : String} {head : Head}
  {n m : Node}

section written

theorem fillItems_eq_map (args : Fields) (items : List Value) :
    fillItems args items = items.map (fillRaw args) := by
  induction items with
  | nil => rfl
  | cons v vs ih => rw [fillItems, ih, List.map_cons]

theorem fillHolder_eq_withItems (args fs : Fields) :
    fillHolder args fs = withItems (fillRaw args) fs := by
  induction fs with
  | nil => rfl
  | cons f fs ih =>
    obtain ⟨key, v⟩ := f
    rw [fillHolder, ih, withItems, withItems, Entries.mapValues, Entries.mapValues, List.map_cons]
    congr 2
    by_cases member : key ∈ itemKeys
    · rw [if_pos member]
      cases v with
      | list items => rw [fillPlace, changeItems, if_pos member, fillItems_eq_map]
      | null | bool | int | float | str | dict => rfl
    · rw [if_neg member, changeItems_of_not_mem _ member]

theorem fillRaw_of_items (found : items? fs key = some items) (member : key ∈ itemKeys) :
    fillRaw args (.dict fs) = .dict (withItems (fillRaw args) fs) := by
  have holds : hasItems fs := List.any_eq_true.mpr ⟨key, member, by rw [found]; rfl⟩
  rw [fillRaw, if_pos holds, fillHolder_eq_withItems]

theorem items?_expand (member : key ∈ itemKeys) : items? (expand fs) key = items? fs key := by
  have other : key ∉ affectedKeys := (by decide : ∀ key ∈ itemKeys, key ∉ affectedKeys) key member
  exact items?_congr (get?_expand other)

theorem fillRaw_of_frag (shape : Shape.of (expand fs) = .frag items) :
    fillRaw args (.dict fs) = .dict (withItems (fillRaw args) fs) := by
  have found := (Shape.of_eq_frag.mp shape).2
  rw [items?_expand (by decide)] at found
  exact fillRaw_of_items found (by decide)

theorem fillRaw_of_sect (shape : Shape.of (expand fs) = .sect fields items) :
    fillRaw args (.dict fs) = .dict (withItems (fillRaw args) fs) := by
  obtain ⟨-, -, found, -⟩ := Shape.of_eq_sect.mp shape
  rw [sectionItems?, items?_expand (by decide), items?_expand (by decide)] at found
  split at found
  · next widgets => exact fillRaw_of_items widgets (by decide)
  · exact fillRaw_of_items found (by decide)

theorem get?_of_not_has (absent : Entries.has fs key = false) : Entries.get? fs key = none :=
  Option.isSome_eq_false_iff.mp absent |> Option.isNone_iff_eq_none.mp

theorem shape_of_absent (absent : ∀ key ∈ shapeKeys, Entries.has fs key = false) :
    Shape.of fs = .widget fs := by
  have plain : Plain fs := fun key listed => by
    rw [nonEmpty?, get?_of_not_has (absent key (List.mem_append_left _ listed))]
  have free : ∀ key ∈ itemKeys, items? fs key = none := fun key listed => by
    rw [items?, get?_of_not_has (absent key (List.mem_append_right _ listed))]
  have sections : sectionItems? fs = none := by
    rw [sectionItems?, free "widgets" (by decide)]
    exact free "sections" (by decide)
  rw [Shape.of_of_plain plain, free _ (by decide), sections, Option.elim_none, Option.elim_none]

theorem fillRaw_of_absent (absent : ∀ key ∈ shapeKeys, Entries.has fs key = false) :
    fillRaw args (.dict fs) = .dict (fillFields args fs) := by
  have free : hasItems fs = false := List.any_eq_false.mpr fun key listed => by
    rw [items?, get?_of_not_has (absent key (List.mem_append_right _ listed))]
    decide
  rw [fillRaw, free]
  rfl

end written

section fields

theorem getD_fillFields (args fs : Fields) (key : String) :
    (fillFields args fs).getD key = fillField args key (fs.getD key) := by
  rw [Fields.getD, fillFields, Entries.get?_mapValues, Fields.getD]
  cases Entries.get? fs key with
  | none =>
    rw [fillField, fill_of_not_isStr args (by simp [Value.isStr])]
    exact (ite_self _).symm
  | some v => rfl

/-- A field that is neither the source nor a prop stays. -/
theorem getD_fillFields_of_mem (args fs : Fields) (member : key ∈ structuralKeys)
    (other : key ≠ "source") : (fillFields args fs).getD key = fs.getD key := by
  rw [getD_fillFields, fillField, if_neg (by simp [member, other])]

theorem wrap_fillFields (args fs : Fields) : wrap head (fillFields args fs) n = wrap head fs n := by
  refine wrap_congr fun key listed => ?_
  obtain ⟨member, other⟩ :=
    (by decide : ∀ key ∈ conditionKeys, key ∈ structuralKeys ∧ key ≠ "source") key listed
  exact getD_fillFields_of_mem args fs member other

theorem wrap_withItems (f : Value → Value) (fs : Fields) :
    wrap head (withItems f fs) n = wrap head fs n :=
  wrap_congr fun key listed => getD_withItems_of_not_mem f fs
    ((by decide : ∀ key ∈ conditionKeys, key ∉ itemKeys) key listed)

theorem sectionNode_withItems (f : Value → Value) (fs : Fields) (ns : List Node) :
    sectionNode head (withItems f fs) ns = sectionNode head fs ns := by
  refine sectionNode_congr (fun key listed => ?_) ns
  exact getD_withItems_of_not_mem f fs
    ((by decide : ∀ key ∈ sectionKeys, key ∉ itemKeys) key listed)

theorem picked_fillFields (args fs : Fields) :
    picked (fillFields args fs) = fillProps args (picked fs) := by
  rw [picked, fillFields, Entries.filter_mapValues (fillField args) fs
    fun key => ! structuralKeys.contains key]
  refine List.map_congr_left fun f member => ?_
  have prop : f.1 ∉ structuralKeys := by simpa using (List.mem_filter.mp member).2
  rw [fillField, if_pos (.inr prop)]

/-- What comes in the place of something is something. -/
theorem isNull_fill (given : ∀ v ∈ Entries.values args, v.isNull = false) (v : Value) :
    (fill args v).isNull = v.isNull := by
  obtain ⟨name, rfl, known⟩ | ⟨-, stays⟩ := fill_cases args v
  · exact given _ (List.mem_map_of_mem (Entries.mem_of_get? known))
  · rw [stays]

end fields

section nodes

theorem substitute_wrap (done : n.substitute args = .ok m) :
    (wrap head fs n).substitute args = .ok (wrap head fs m) := by
  unfold wrap
  split
  · refine (Node.walkWidgets_container_eq_ok rfl).mpr ⟨⟨trivial, .inl rfl⟩, [m], ?_, rfl⟩
    exact Except.mapM_eq_ok.mpr (.cons done .nil)
  · exact done

/-- The widget that is parsed from the fields, but for its source and its props. -/
def bareWidget (head : Head) (fs : Fields) : Widget where
  toHead := head
  type := .str ((fs.getD "type").orElse (.str unknownType)).text

theorem widgetNode_of_isNull (absent : (fs.getD "source").isNull) :
    widgetNode head fs = .widget { bareWidget head fs with props := .dict (picked fs) } := by
  rw [widgetNode, propsOf]
  cases source : fs.getD "source" with
  | null => rfl
  | bool | int | float | str | list | dict => rw [source] at absent; cases absent

/-- The parser puts a source where filling puts what comes in the place of a path. -/
theorem widgetNode_of_not_isNull (given : (fs.getD "source").isNull = false) : widgetNode head fs =
    .widget ((bareWidget head fs).rebind { path := .null } (picked fs) (fs.getD "source")) := by
  rw [widgetNode, propsOf]
  cases source : fs.getD "source" with
  | null => rw [source] at given; cases given
  | bool | int | float | str | list | dict => rfl

theorem substitute_widgetNode (given : ∀ v ∈ Entries.values args, v.isNull = false) :
    (widgetNode head fs).substitute args = .ok (widgetNode head (fillFields args fs)) := by
  have source : (fillFields args fs).getD "source" = fill args (fs.getD "source") := by
    rw [getD_fillFields, fillField, if_pos (.inl rfl)]
  have bare : bareWidget head (fillFields args fs) = bareWidget head fs := by
    rw [bareWidget, bareWidget, getD_fillFields_of_mem args fs (by decide) (by decide)]
  cases absent : (fs.getD "source").isNull with
  | true =>
    have still : ((fillFields args fs).getD "source").isNull := by rw [source, isNull_fill given, absent]
    rw [widgetNode_of_isNull absent, widgetNode_of_isNull still, bare, picked_fillFields]
    exact Except.map_eq_ok.mpr ⟨_, Widget.fill_of_unbound rfl rfl, rfl⟩
  | false =>
    have still : ((fillFields args fs).getD "source").isNull = false := by
      rw [source, isNull_fill given, absent]
    rw [widgetNode_of_not_isNull absent, widgetNode_of_not_isNull still, bare, picked_fillFields,
      source]
    exact Except.map_eq_ok.mpr ⟨_, Widget.fill_rebind _ _ _ _ _, rfl⟩

/-- To fill a template after it was parsed is to fill it before it is parsed. -/
theorem substitute_parseChild {raw : Value} (template : IsTemplate raw)
    (given : ∀ v ∈ Entries.values args, v.isNull = false) :
    (parseChild file raw).substitute args = .ok (parseChild file (fillRaw args raw)) := by
  have items {vs : List Value} (each : ∀ v ∈ vs,
      (parseChild file v).substitute args = .ok (parseChild file (fillRaw args v))) :
      (vs.map (parseChild file)).mapM (·.substitute args) =
        .ok ((vs.map (fillRaw args)).map (parseChild file)) := by
    rw [Except.mapM_eq_ok, List.map_map, List.forall₂_map_left_iff, List.forall₂_map_right_iff]
    exact List.forall₂_same.mpr each
  induction template with
  | @widget fs typed absent =>
    -- The filled mapping has the same keys, so it is read as a widget again.
    have shape : ∀ gs : Fields, (∀ key, Entries.has gs key = Entries.has fs key) →
        Shape.of (expand gs) = .widget gs := fun gs same => by
      rw [expand, same, if_pos typed]
      exact shape_of_absent fun key listed => (same key).trans (absent key listed)
    have keys := Entries.has_mapValues (fillField args) fs
    rw [fillRaw_of_absent absent, parseChild_of_widget (shape fs fun _ => rfl),
      parseChild_of_widget (shape (fillFields args fs) keys), wrap_fillFields]
    exact substitute_wrap (substitute_widgetNode given)
  | sect shape each ih =>
    rw [fillRaw_of_sect shape, parseChild_of_sect shape,
      parseChild_of_sect (sect_withItems _ shape), wrap_withItems, sectionNode_withItems]
    exact substitute_wrap ((Node.walkWidgets_container_eq_ok rfl).mpr ⟨trivial, _, items ih, rfl⟩)
  | frag shape each ih =>
    rw [fillRaw_of_frag shape, parseChild_of_frag shape, parseChild_of_frag (frag_withItems _ shape)]
    exact (Node.walkWidgets_container_eq_ok rfl).mpr ⟨trivial, _, items ih, rfl⟩

def reportTemplate : Value := .dict [
  ("name", .str "$title"), ("show", .str "$title"), ("widgets", .list [
    .dict [("type", .str "table"), ("source", .str "$rows"), ("name", .str "$title"),
      ("title", .str "$title"), ("hide", .str "$rows")],
    .dict [("$fragment", .list [
      .dict [("type", .str "total"), ("source", .str "$path"), ("label", .str "Sum of $title"),
        ("columns", .list [.str "$title"])]])]])]

/-- Rows that are no path, and a path that looks like a placeholder. -/
def reportArgs : Fields :=
  [("title", .str "Orders"), ("rows", .list [.int 1, .bool false]), ("path", .str "$title")]

def report : Value := .dict [
  ("name", .str "$title"), ("show", .str "$title"), ("widgets", .list [
    .dict [("type", .str "table"), ("source", .list [.int 1, .bool false]), ("name", .str "$title"),
      ("title", .str "Orders"), ("hide", .str "$rows")],
    .dict [("$fragment", .list [
      .dict [("type", .str "total"), ("source", .str "$title"), ("label", .str "Sum of $title"),
        ("columns", .list [.str "$title"])]])]])]

theorem isTemplate_reportTemplate : IsTemplate reportTemplate := by
  refine .sect rfl (List.forall_mem_cons.mpr ⟨.widget (by decide) (by decide), ?_⟩)
  refine List.forall_mem_singleton.mpr (.frag rfl (List.forall_mem_singleton.mpr ?_))
  exact .widget (by decide) (by decide)

theorem substitute_parseChild_report : IsTemplate reportTemplate ∧
    (∀ v ∈ Entries.values reportArgs, v.isNull = false) ∧ fillRaw reportArgs reportTemplate = report ∧
    ∀ file, (parseChild file reportTemplate).substitute reportArgs = .ok (parseChild file report) := by
  have given : ∀ v ∈ Entries.values reportArgs, v.isNull = false := by decide
  have filled : fillRaw reportArgs reportTemplate = report := rfl
  exact ⟨isTemplate_reportTemplate, given, filled,
    fun _ => filled ▸ substitute_parseChild isTemplate_reportTemplate given⟩

end nodes

end ViewCompiler.Document
