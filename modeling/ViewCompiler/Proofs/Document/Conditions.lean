import ViewCompiler.Proofs.Document.Canonical

/-! Conditions on what is shown. The keys for showing and hiding decide whether a conditional stands
around a section or a widget, and nothing else: without them a mapping is parsed to the same node,
unless it is a call, whose arguments they are. -/
namespace ViewCompiler.Document

/-- The mapping without the keys that show or hide what it describes. -/
def bare (fs : Fields) : Fields := Entries.erase (Entries.erase fs "show") "hide"

/-- A value as it is written in a condition. -/
inductive Renders : Value → String → Prop
  | yes : Renders (.bool true) "true"
  | no : Renders (.bool false) "false"
  | other {v} (noBool : ∀ b, v ≠ .bool b) : Renders v v.text

/-- The condition that a mapping gives: what shows it goes before what hides it. -/
inductive ShownIf (fs : Fields) : String → Prop
  | show {shown text} (given : Entries.get? fs "show" = some shown) (notNull : shown ≠ .null)
      (renders : Renders shown text) : ShownIf fs text
  | hide {hidden text} (notShown : fs.getD "show" = .null)
      (given : Entries.get? fs "hide" = some hidden) (notNull : hidden ≠ .null)
      (renders : Renders hidden text) : ShownIf fs ("!" ++ text)

def Unconditional (fs : Fields) : Prop := fs.getD "show" = .null ∧ fs.getD "hide" = .null

variable {file : Value} {fs : Fields} {key : String} {n : Node}

section condition

theorem renders_expression (v : Value) : Renders v (expression v) := by
  cases v with
  | bool b =>
    cases b with
    | true => exact .yes
    | false => exact .no
  | null | int | float | str | list | dict => exact .other fun _ same => by cases same

theorem get?_of_getD {v : Value} (given : fs.getD key = v) (notNull : v ≠ .null) :
    Entries.get? fs key = some v := by
  cases found : Entries.get? fs key with
  | none =>
    rw [Fields.getD, found] at given
    exact absurd given.symm notNull
  | some w =>
    rw [Fields.getD, found] at given
    exact congrArg some given

theorem condition?_cases (fs : Fields) : Unconditional fs ∧ condition? fs = none ∨
    ¬ Unconditional fs ∧ ∃ c, condition? fs = some c ∧ ShownIf fs c := by
  unfold condition?
  split
  · next noShow noHide => exact .inl ⟨⟨noShow, noHide⟩, rfl⟩
  · next noShow given =>
    exact .inr ⟨fun absent => given absent.2, _, rfl,
      .hide noShow (get?_of_getD rfl given) given (renders_expression _)⟩
  · next given _ =>
    exact .inr ⟨fun absent => given absent.1, _, rfl,
      .show (get?_of_getD rfl given) given (renders_expression _)⟩

end condition

section bare

theorem expand_bare (fs : Fields) : expand (bare fs) = bare (expand fs) := by
  rw [bare, (overlooked_erase (by decide)).expand, (overlooked_erase (by decide)).expand, bare]

theorem get?_bare (other : key ∉ conditionKeys) :
    Entries.get? (bare fs) key = Entries.get? fs key :=
  (Entries.get?_eraseAll fs conditionKeys key).trans (if_neg other)

theorem getD_bare (other : key ∉ conditionKeys) : (bare fs).getD key = fs.getD key := by
  rw [Fields.getD, get?_bare other]
  rfl

theorem condition?_bare (fs : Fields) : condition? (bare fs) = none := by
  have noShow : (bare fs).getD "show" = .null := by
    rw [Fields.getD, bare, Entries.get?_erase_of_ne _ (by decide), Entries.get?_erase_self]
    rfl
  have noHide : (bare fs).getD "hide" = .null := by
    rw [Fields.getD, bare, Entries.get?_erase_self]
    rfl
  rw [condition?, noShow, noHide]

def Shape.bare : Shape → Shape
  | .call name args => .call name (Document.bare args)
  | .sect fields items => .sect (Document.bare fields) items
  | .widget fields => .widget (Document.bare fields)
  | shape => shape

theorem erase_bare (fs : Fields) (key : String) :
    Entries.erase (bare fs) key = bare (Entries.erase fs key) := by
  rw [bare, bare, Entries.erase_comm, Entries.erase_comm fs]

theorem Shape.of_bare (fs : Fields) : Shape.of (Document.bare fs) = (Shape.of fs).bare := by
  have text {key} (other : key ∉ conditionKeys) :
      nonEmpty? (Document.bare fs) key = nonEmpty? fs key := nonEmpty?_congr (get?_bare other)
  have items {key} (other : key ∉ conditionKeys) :
      items? (Document.bare fs) key = items? fs key := items?_congr (get?_bare other)
  simp (disch := decide) only [Shape.of, sectionItems?, text, items, getD_bare, erase_bare]
  repeat' split
  all_goals rfl

theorem propsOf_bare (fs : Fields) : propsOf (bare fs) = propsOf fs := by
  have picked : (bare fs).filter (fun f => ! structuralKeys.contains f.1) =
      fs.filter fun f => ! structuralKeys.contains f.1 := by
    rw [bare, Entries.filter_erase (p := fun key => ! structuralKeys.contains key) _ rfl,
      Entries.filter_erase (p := fun key => ! structuralKeys.contains key) _ rfl]
  rw [propsOf, propsOf, getD_bare (by decide)]
  simp only [picked]

theorem widgetNode_bare (head : Head) (fs : Fields) :
    widgetNode head (bare fs) = widgetNode head fs := by
  rw [widgetNode, widgetNode, propsOf_bare, getD_bare (by decide), getD_bare (by decide)]

theorem sectionNode_bare (head : Head) (fs : Fields) (children : List Node) :
    sectionNode head (bare fs) children = sectionNode head fs children :=
  sectionNode_congr (fun key listed => getD_bare
    ((by decide : ∀ key ∈ sectionKeys, key ∉ conditionKeys) key listed)) children

theorem wrap_of_condition? {c : Option String} {head : Head} (given : condition? fs = c) :
    wrap head fs n = c.elim n fun c =>
      .cond { toHead := head, condition := .str c } (.proper [n]) .null := by
  rw [wrap, given]
  cases c <;> rfl

theorem wrap_bare (head : Head) (fs : Fields) (n : Node) : wrap head (bare fs) n = n :=
  wrap_of_condition? (condition?_bare fs)

theorem wrap_expand (head : Head) (fs : Fields) (n : Node) :
    wrap head (expand fs) n = wrap head fs n := by
  refine wrap_congr fun key listed => ?_
  have unaffected := (by decide : ∀ key ∈ conditionKeys, key ∉ affectedKeys) key listed
  rw [Fields.getD, Fields.getD, get?_expand unaffected]

end bare

/-- A section or a widget is parsed from the mapping without its condition, and wrapped after that; all
else is as if the mapping had no condition. -/
theorem parseChild_eq_wrap (noCall : ∀ name args, Shape.of (expand fs) ≠ .call name args) :
    parseChild file (.dict fs) =
      if (parseChild file (.dict (bare fs))).isShowable
        then wrap (locate file) fs (parseChild file (.dict (bare fs)))
        else parseChild file (.dict (bare fs)) := by
  rw [parseChild_dict, parseChild_dict, expand_bare, Shape.of_bare]
  cases shape : Shape.of (expand fs) with
  | call name args => exact absurd shape (noCall name args)
  | ref | loop | slot | frag => rfl
  | sect fields items =>
    obtain ⟨-, -, -, rfl⟩ := Shape.of_eq_sect.mp shape
    rw [Shape.bare, Shape.node, Shape.node, wrap_bare, sectionNode_bare, wrap_expand]
    rfl
  | widget fields =>
    obtain rfl := Shape.fields_of_widget shape
    rw [Shape.bare, Shape.node, Shape.node, wrap_bare, widgetNode_bare, wrap_expand]
    rfl

theorem of_ne_call (noCall : (∃ target, Entries.get? fs "$ref" = some (.str target) ∧ target ≠ "") ∨
    ∀ name, Entries.get? fs "$partial" = some (.str name) → name = "") (name : String) (args : Fields) :
    Shape.of (expand fs) ≠ .call name args := by
  intro shape
  obtain ⟨noRef, named, -⟩ := Shape.of_eq_call.mp shape
  rw [nonEmpty?_expand (by decide)] at noRef named
  obtain ⟨target, given⟩ | unnamed := noCall
  · rw [nonEmpty?_eq_some.mpr given] at noRef
    cases noRef
  · rw [nonEmpty?_eq_none.mpr unnamed] at named
    cases named

/-- What shows or hides a mapping decides whether there is a conditional and nothing else. Where the
mapping gives no condition, or is no section and no widget without it, it is parsed as if it had none of
the two keys; otherwise the result is the conditional, at the same place, around that very node. -/
theorem condition_of_parseChild
    (noCall : (∃ target, Entries.get? fs "$ref" = some (.str target) ∧ target ≠ "") ∨
      ∀ name, Entries.get? fs "$partial" = some (.str name) → name = "") :
    let inner := parseChild file (.dict (bare fs))
    (Unconditional fs ∨ inner.isShowable = false → parseChild file (.dict fs) = inner) ∧
    (¬ Unconditional fs → inner.isShowable → ∃ c, ShownIf fs c ∧
      inner.head?.map Head.loc = some (locate file).loc ∧ parseChild file (.dict fs) =
        .cond { toHead := locate file, condition := .str c } (.proper [inner]) .null) := by
  intro inner
  have parsed : parseChild file (.dict fs) =
      if inner.isShowable then wrap (locate file) fs inner else inner :=
    parseChild_eq_wrap (of_ne_call noCall)
  have located : inner.head?.map Head.loc = some (locate file).loc :=
    (Node.all_iff.mp (all_isCanonical file (.dict (bare fs)))).1.located
  obtain ⟨unconditional, none⟩ | ⟨conditional, c, some, shownIf⟩ := condition?_cases fs
  · have unwrapped : parseChild file (.dict fs) = inner := by
      rw [parsed, wrap_of_condition? none, Option.elim_none, ite_self]
    exact ⟨fun _ => unwrapped, fun conditional => absurd unconditional conditional⟩
  · refine ⟨fun bare => ?_, fun _ showable => ⟨c, shownIf, located, ?_⟩⟩
    · rw [parsed, if_neg (Bool.eq_false_iff.mp (bare.resolve_left conditional))]
    · rw [parsed, if_pos showable, wrap_of_condition? some, Option.elim_some]

def shownHeading : Fields := [("h2", .str "News"), ("show", .bool true), ("hide", .str "busy")]

theorem condition_of_parseChild_heading : parseChild (.str "home.yaml") (.dict shownHeading) =
      .cond { toHead := locate (.str "home.yaml"), condition := .str "true" }
        (.proper [parseChild (.str "home.yaml") (.dict [("h2", .str "News")])]) .null := by
  obtain ⟨-, wrapped⟩ := @condition_of_parseChild (.str "home.yaml") shownHeading
    (.inr fun _ absurd => by cases absurd)
  have showable : (parseChild (.str "home.yaml") (.dict (bare shownHeading))).isShowable := by
    rw [parseChild_of_widget rfl]
    rfl
  obtain ⟨c, shownIf, -, parsed⟩ := wrapped (fun absent => by cases absent.1) showable
  obtain ⟨given, -, renders⟩ | ⟨notShown, -⟩ := shownIf
  · cases given
    cases renders with
    | yes => exact parsed
    | other noBool => exact absurd rfl (noBool true)
  · cases notShown

end ViewCompiler.Document
