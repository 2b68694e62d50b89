import ViewCompiler.Proofs.Document.Shorthands
import ViewCompiler.Proofs.Validate.RequiredProps

/-! Widgets that are written in shorthand. An expansion is final, and what a rule makes of a mapping is
a widget of a known type with every prop that the type requires: the rule writes its own fields over
those that the mapping has under the same keys, and parsing keeps them. -/
namespace ViewCompiler

namespace Document

variable {fs : Fields} {type : String}

/-- A rule makes a widget of the type: a heading whatever stands under the tag, a chart or a table only
if it has a source. -/
inductive Makes (fs : Fields) : String → Prop
  | heading {tag content} (rule : Rule fs [tag]
      [("type", .str "heading"), ("tag", .str tag), ("text", content)]) : Makes fs "heading"
  | chart {key source chart} (rule : Rule fs [key, "x", "y"]
      [("type", .str "chart"), ("source", source), ("chart", .dict chart)])
      (given : source.isNull = false) : Makes fs "chart"
  | table (rule : Rule fs [] [("type", .str "data-table")])
      (given : (fs.getD "source").isNull = false) : Makes fs "data-table"

def shorthandTypes : List String := ["heading", "chart", "data-table"]

/-- Whatever a rule writes has a type, and no rule applies to what has one. -/
theorem expand_expand (fs : Fields) : expand (expand fs) = expand fs := by
  have rule := rule_rewriteOf fs
  have found := get?_expand_of_rule rule "type"
  generalize (rewriteOf fs).1 = gone, (rewriteOf fs).2 = written at rule found
  cases rule with
  | heading | chart | table => exact expand_of_typed found
  | typed given =>
    have unchanged := expand_of_rule_nil (.typed given)
    rw [unchanged, unchanged]
  | plain untyped noHeading noChart noTable =>
    have unchanged := expand_of_rule_nil (.plain untyped noHeading noChart noTable)
    rw [unchanged, unchanged]

namespace Makes

theorem mem_shorthandTypes (makes : Makes fs type) : type ∈ shorthandTypes := by
  cases makes <;> decide

theorem type_eq (makes : Makes fs type) : (expand fs).getD "type" = .str type := by
  cases makes with
  | heading rule | chart rule | table rule =>
    rw [Fields.getD, get?_expand_of_rule rule]
    rfl

theorem text_eq (makes : Makes fs type) :
    (((expand fs).getD "type").orElse (.str unknownType)).text = type := by
  rw [makes.type_eq]
  cases makes <;> rfl

/-- What the known type requires is there after the expansion, under keys that parsing keeps. -/
theorem exists_schema (makes : Makes fs type) :
    ∃ s, Registry.catalog.get (.str type) = .ok (some s) ∧
      (∀ prop ∈ s.requiredProps, ((expand fs).getD prop).isNull = false) ∧
      ∀ prop ∈ s.requiredProps, prop ∉ lostKeys := by
  cases makes with
  | heading rule => exact ⟨_, rfl, List.forall_mem_nil _, List.forall_mem_nil _⟩
  | chart rule given =>
    have written : ((expand fs).getD "source").isNull = false ∧
        ((expand fs).getD "chart").isNull = false := by
      rw [Fields.getD, Fields.getD, get?_expand_of_rule rule, get?_expand_of_rule rule]
      exact ⟨given, rfl⟩
    exact ⟨_, rfl, List.forall_mem_cons.mpr ⟨written.1, List.forall_mem_singleton.mpr written.2⟩,
      by decide⟩
  | table rule given =>
    have kept {key : String} (other : key ≠ "type") : (expand fs).getD key = fs.getD key := by
      rw [Fields.getD, Fields.getD, get?_expand_of_rule rule]
      simp [Entries.get?, other.symm]
    have columns : (fs.getD "columns").isNull = false := by
      cases rule with
      | table _ _ _ listed =>
        rw [Fields.getD, listed]
        rfl
    rw [← kept (by decide)] at given columns
    exact ⟨_, rfl, List.forall_mem_cons.mpr ⟨given, List.forall_mem_singleton.mpr columns⟩,
      by decide⟩

end Makes

end Document

namespace Validate

open Document

variable {file : Value} {fs : Fields} {w : Widget} {s : Schema} {registry : Registry} {type : String}

/-- A widget that is given all that its type requires, under keys that parsing keeps, has nothing found
on its type. -/
theorem checkType_of_given (parsed : Node.widget w = widgetNode (locate file) fs)
    (registered : registry.get w.type = .ok (some s))
    (given : ∀ prop ∈ s.requiredProps, (fs.getD prop).isNull = false)
    (kept : ∀ prop ∈ s.requiredProps, prop ∉ lostKeys) : checkType registry w = Findings.none := by
  have unlost : s.requiredProps.filter lostKeys.contains = [] :=
    List.filter_eq_nil_iff.mpr fun prop member => by
      rw [List.contains_iff_mem]
      exact kept prop member
  rw [checkType, registered, Except.ok_bind]
  exact (checkRequired_of_given parsed given).trans (by rw [unlost]; rfl)

/-- What is found on a widget besides its type is not about its type or its required props. -/
theorem filter_checkWidget_of_checkType {hasLoader : Bool} {own : List Diagnostic}
    (accepted : checkType registry w = Findings.none)
    (checked : checkWidget registry hasLoader w = .ok own) :
    own.filter (·.isAmong [.unknownWidgetType, .missingRequiredProp]) = [] := by
  rw [checkWidget, Findings.all_cons, accepted, Findings.none_and] at checked
  exact reports_remarks.filter_eq_nil (by decide) checked

/-- An expansion is final. A widget that a rule makes has the rule's type, and where a registry has the
known schema for each type of the shorthand, the widget is never found to be of an unknown type or to
lack a required prop, wherever it stands in a page and whatever else its mapping holds. -/
theorem accepted_of_shorthand (file : Value) (fs : Fields) : expand (expand fs) = expand fs ∧
    ∀ {type w registry}, Makes fs type → (parseChild file (.dict fs)).Presents w →
      (∀ t ∈ shorthandTypes, registry.get (.str t) = Registry.catalog.get (.str t)) →
      w.type = .str type ∧ ∀ (p : Page) (ns front back : List Node),
        (Node.page p (.proper ns)).preorder = front ++ .widget w :: back →
        (p.toHead.Placed → (∀ n ∈ ns, n.wellFormed) →
          ∃ found, validate registry (.page p (.proper ns)) = .ok found) ∧
        ∀ found, validate registry (.page p (.proper ns)) = .ok found →
          ∃ before own after, found = before ++ own ++ after ∧
            FindingsAt registry p (.proper ns) front (.widget w) back before own after ∧
            own.filter (·.isAmong [.unknownWidgetType, .missingRequiredProp]) = [] := by
  refine ⟨expand_expand fs, fun {type w registry} makes presents known => ?_⟩
  have parsed := eq_widgetNode_of_presents presents
  have typed : w.type = .str type := by
    rw [Node.widget.inj parsed]
    exact congrArg Value.str makes.text_eq
  obtain ⟨s, listed, given, kept⟩ := makes.exists_schema
  have registered : registry.get w.type = .ok (some s) := by
    rw [typed, known type makes.mem_shorthandTypes, listed]
  refine ⟨typed, fun p ns front back split => ⟨validate_total registry, fun found checked => ?_⟩⟩
  obtain ⟨before, own, after, same, findings⟩ := exists_findingsAt split checked
  exact ⟨before, own, after, same, findings, filter_checkWidget_of_checkType
    (checkType_of_given parsed registered given kept) findings.here⟩

/-- A chart over a source that is no text, beside fields under the keys that the rule writes and takes
away, and hidden from some. -/
def salesFields : Fields := [
  ("chart", .str "old"), ("bar-chart", .list [.int 3]), ("source", .str "rows"),
  ("x", .str "month"), ("hide", .str "$closed")]

def salesHead : Head := locate (.str "sales.yaml")

def salesChart : Widget where
  toHead := salesHead
  type := .str "chart"
  props := .dict [
    ("chart", .dict [("type", .str "bar"), ("xAxis", .str "month")]), ("source", .list [.int 3])]

def salesPage : Page where
  name := .str "Sales"
  type := .str "page"
  route := .str "/sales"

theorem parseChild_salesFields : parseChild (.str "sales.yaml") (.dict salesFields) =
    .cond { toHead := salesHead, condition := .str "!$closed" } (.proper [.widget salesChart])
      .null := by
  rw [parseChild]
  rfl

theorem accepted_of_shorthand_sales : Makes salesFields "chart" ∧
    ∃ found before own after, validate .catalog (.page salesPage
        (.proper [parseChild (.str "sales.yaml") (.dict salesFields)])) = .ok found ∧
      found = before ++ own ++ after ∧
      own.filter (·.isAmong [.unknownWidgetType, .missingRequiredProp]) = [] := by
  have makes : Makes salesFields "chart" := .chart (rule_rewriteOf salesFields) rfl
  obtain ⟨-, each⟩ := accepted_of_shorthand (.str "sales.yaml") salesFields
  obtain ⟨-, anywhere⟩ := each makes (.inr ⟨_, parseChild_salesFields⟩) fun _ _ => rfl
  let shown := parseChild (.str "sales.yaml") (.dict salesFields)
  obtain ⟨total, findings⟩ := anywhere salesPage [shown] [.page salesPage (.proper [shown]), shown] []
    (by simp only [shown, parseChild_salesFields]; rfl)
  obtain ⟨found, checked⟩ := total ⟨_, rfl⟩
    (List.forall_mem_singleton.mpr (parsed_parseChild _ _).wellFormed)
  obtain ⟨before, own, after, same, -, accepted⟩ := findings found checked
  exact ⟨makes, found, before, own, after, checked, same, accepted⟩

end Validate
end ViewCompiler
