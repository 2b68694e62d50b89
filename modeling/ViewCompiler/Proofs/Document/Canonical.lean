import Mathlib.Data.List.TakeWhile
import ViewCompiler.Node.Export
import ViewCompiler.Proofs.Document.Outcome
import ViewCompiler.Proofs.Document.Props
import ViewCompiler.Proofs.Document.Shapes
import ViewCompiler.Proofs.Validate.Totality

/-! The form of what is parsed. Whatever the data are, every node of a parsed tree is located in its file
and has the form that its kind should have: names are texts and not empty, a condition stands around one
section or widget, and no structural key is left among props. So every pass over the tree comes to its
end. -/
namespace ViewCompiler

section texts

theorem Decimal.layout_ne_nil (d : Decimal) : d.layout ≠ [] := by
  rw [layout]
  split
  · rw [positional]
    split
    · exact List.cons_ne_nil _ _
    · dsimp only
      split <;> simp
  · simp [scientific]

theorem Binary64.render_ne_empty (x : Binary64) : x.render Value.numberNames ≠ "" := by
  cases x with
  | nan | infinite negative => simp [render, Value.numberNames]
  | finite negative m q =>
    rw [render, ne_eq, ← String.toList_eq_nil_iff, String.toList_ofList]
    cases negative with
    | true => exact List.cons_ne_nil _ _
    | false => by_cases zero : m = 0 <;> simp [zero, Decimal.layout_ne_nil]

namespace Value

/-- What counts as true has a text that is not empty. -/
theorem text_ne_empty {v : Value} (counts : v.truthy) : v.text ≠ "" := by
  cases v with
  | null => cases counts
  | bool b => cases b <;> decide
  | int n =>
    cases n with
    | ofNat n => exact Nat.repr_ne_empty
    | negSucc n => simp [text, literal, toString, Int.repr]
  | float x => exact x.render_ne_empty
  | str s => exact bne_iff_ne.mp counts
  | list xs | dict fs => simp [text, literal]

theorem truthy_orElse {v w : Value} (counts : w.truthy) : (v.orElse w).truthy := by
  rw [orElse]
  split
  · assumption
  · exact counts

def IsName (v : Value) : Prop := ∃ s, v = .str s ∧ s ≠ ""

end Value

end texts

/-- The target is the name of a page, or that and the name of a section with the first number sign of the
target between them. -/
def Ref.IsSplit (r : Ref) : Prop :=
  ∃ target pageName sectionName : String, r.target = .str target ∧ r.pageName = .str pageName ∧
    r.sectionName = .str sectionName ∧ '#' ∉ pageName.toList ∧
    target = if '#' ∈ target.toList then pageName ++ "#" ++ sectionName else pageName

namespace Node

/-- A section or a widget: what may stand under a condition. -/
def isShowable : Node → Bool
  | .sect _ _ | .widget _ => true
  | .page _ _ | .ref _ | .call _ | .slot _ | .cond _ _ _ | .loop _ _ | .frag _ _ | .custom _
  | .stray _ => false

/-- The keys of a mapping that never become props of a widget. -/
def reservedKeys : List String := ["type", "name", "show", "hide", "layout"]

def HasForm : Node → Prop
  | .sect _ children | .frag _ children => children.isProper
  | .widget w => w.type.IsName ∧ ∃ props, w.props = .dict props ∧
    ∀ key ∈ reservedKeys, Entries.has props key = false
  | .ref r => r.target.IsName ∧ r.IsSplit
  | .call c => c.name.IsName
  | .slot s => s.name.IsName
  | .cond _ body otherwise => otherwise = .null ∧ ∃ n, body = .proper [n] ∧ n.isShowable
  | .loop l _ => l.source.IsName
  | .page _ _ | .custom _ | .stray _ => False

/-- A child node as it is parsed, located at the beginning of its file. -/
structure IsCanonical (file : Value) (n : Node) : Prop where
  located : n.head?.map Head.loc = some (.proper { file, line := .int 1, col := .int 1 })
  formed : n.HasForm

end Node

namespace Document

variable {file : Value} {fs : Fields} {n : Node}

/-- What stands before the first number sign has none, and there is nothing else where there is none. -/
theorem splitTarget_spec (target : String) : '#' ∉ (splitTarget target).1.toList ∧
    target = if '#' ∈ target.toList then (splitTarget target).1 ++ "#" ++ (splitTarget target).2
      else (splitTarget target).1 := by
  have before : ∀ c ∈ target.toList.takeWhile (· != '#'), c ≠ '#' := fun c member =>
    bne_iff_ne.mp (List.mem_takeWhile_imp (p := (· != '#')) member)
  have parts := List.takeWhile_append_dropWhile (p := (· != '#')) (l := target.toList)
  refine ⟨fun member => before '#' (by simpa [splitTarget] using member) rfl, ?_⟩
  rw [← String.toList_inj]
  cases rest : target.toList.dropWhile (· != '#') with
  | nil =>
    rw [rest, List.append_nil] at parts
    have absent : '#' ∉ target.toList := fun member => before '#' (by rwa [parts]) rfl
    rw [if_neg absent, splitTarget, String.toList_ofList, parts]
  | cons c cs =>
    have sign : c = '#' := by
      have found := List.head?_dropWhile_not (· != '#') target.toList
      rw [rest] at found
      simpa using found
    subst sign
    rw [rest] at parts
    have present : '#' ∈ target.toList := by
      rw [← parts]
      exact List.mem_append_right _ List.mem_cons_self
    rw [if_pos present, splitTarget, rest]
    simpa using parts.symm

theorem isCanonical_refNode {target : String} (named : target ≠ "") :
    (refNode (locate file) target).IsCanonical file :=
  ⟨rfl, ⟨target, rfl, named⟩, target, _, _, rfl, rfl, rfl, splitTarget_spec target⟩

theorem isCanonical_widgetNode : (widgetNode (locate file) fs).IsCanonical file := by
  have counts : ((fs.getD "type").orElse (.str unknownType)).truthy := Value.truthy_orElse rfl
  refine ⟨rfl, ⟨_, rfl, Value.text_ne_empty counts⟩, _, rfl, fun key reserved => ?_⟩
  have other : key ≠ "source" :=
    (by decide : ∀ key ∈ Node.reservedKeys, key ≠ "source") key reserved
  have structural : structuralKeys.contains key :=
    (by decide : ∀ key ∈ Node.reservedKeys, structuralKeys.contains key) key reserved
  rw [Entries.has, get?_propsOf_of_ne other, if_pos structural]
  rfl

theorem all_wrap (showable : n.isShowable) (each : n.All (Node.IsCanonical file)) :
    (wrap (locate file) fs n).All (Node.IsCanonical file) := by
  unfold wrap
  split
  · exact Node.all_iff.mpr
      ⟨⟨rfl, rfl, n, rfl, showable⟩, fun m member => List.mem_singleton.mp member ▸ each⟩
  · exact each

/-- Every node of a parsed tree has the form that it should have. -/
theorem all_isCanonical (file raw : Value) : (parseChild file raw).All (Node.IsCanonical file) := by
  induction raw using parts_induction with
  | bare raw bare =>
    rw [parseChild_of_ne_dict bare]
    exact Node.all_leaf rfl ⟨rfl, ⟨unknownType, rfl, by decide⟩, [], rfl, fun _ _ => rfl⟩
  | mapping fs ih =>
    rw [parseChild_dict]
    have named : ∀ {name}, (Shape.of (expand fs)).name? = some name → name ≠ "" :=
      Shape.name_ne_empty
    have inside : ∀ {items}, (Shape.of (expand fs)).parts = items →
        ∀ m ∈ items.map (parseChild file), m.All (Node.IsCanonical file) := fun same =>
      List.forall_mem_map.mpr (same ▸ ih)
    cases shape : Shape.of (expand fs) <;> rw [shape] at named inside
    case ref => exact Node.all_leaf rfl (isCanonical_refNode (named rfl))
    case call => exact Node.all_leaf rfl ⟨rfl, _, rfl, named rfl⟩
    case slot => exact Node.all_leaf rfl ⟨rfl, _, rfl, named rfl⟩
    case loop => exact Node.all_iff.mpr ⟨⟨rfl, _, rfl, named rfl⟩, inside rfl⟩
    case frag => exact Node.all_iff.mpr ⟨⟨rfl, rfl⟩, inside rfl⟩
    case sect => exact all_wrap rfl (Node.all_iff.mpr ⟨⟨rfl, rfl⟩, inside rfl⟩)
    case widget => exact all_wrap rfl (Node.all_leaf rfl isCanonical_widgetNode)

section passes

variable {pages : List Node} {registry : Registry} {partials : List (Value × Partial)} {env : Env}

theorem isTree_parseChild (file raw : Value) : (parseChild file raw).isTree :=
  Node.isTree_of_wellFormed (parsed_parseChild file raw).wellFormed

theorem wellFormed_of_parsed (made : Env.of pages registry partials = .ok env)
    (pagesParsed : ∀ page ∈ pages, ∃ file raw, parsePage file raw = .ok page)
    (partialsParsed : ∀ e ∈ partials, e.1.isStr ∧ ∃ file raw, parsePartial file raw = .ok e.2) :
    env.WellFormed := by
  have sound : ∀ page ∈ pages, page.isSoundPage := by
    intro page member
    obtain ⟨_, _, parsed⟩ := pagesParsed page member
    exact isSoundPage_of_parsePage parsed
  obtain ⟨_, again, formed⟩ := Env.of_total registry sound fun e member =>
    isSoundEntry_of_parsePartial (partialsParsed e member)
  obtain rfl := Except.ok.inj (made.symm.trans again)
  exact formed

theorem exported_of_isTree {n : Node} (tree : n.isTree) : n.exported = .ok n.toValue := by
  cases n with
  | page | custom | stray => cases (Node.isTree_iff.mp tree).1
  | sect | widget | ref | call | slot | cond | loop | frag => rfl

/-- Whatever the value is, all nodes that are parsed from it have the form that they should have, and a
list has as many children as it has items, in the same order. A walk through the tree fails only as one of
its actions does; the tree is resolved against all pages and partials that are parsed, and it is
validated and exported. -/
theorem isCanonical_of_parseChild (file raw : Value) :
    (∀ n ∈ (parseChild file raw).preorder, n.IsCanonical file) ∧
    (∀ items, parseChildren file (.list items) = items.map (parseChild file)) ∧
    (∀ (σ : Type) (visitor : Visitor (StateT σ (Except Fault))),
      visitor.Explains ((parseChild file raw).walk visitor)) ∧
    (∀ pages registry partials env, Env.of pages registry partials = .ok env →
      (∀ page ∈ pages, ∃ file raw, parsePage file raw = .ok page) →
      (∀ e ∈ partials, e.1.isStr ∧ ∃ file raw, parsePartial file raw = .ok e.2) →
      ∀ busy, ∃ m, (env.resolveChild busy (parseChild file raw)).result = .ok m) ∧
    (∀ registry hasLoader, ∃ ds,
      Validate.checkNode registry hasLoader (parseChild file raw) = .ok ds) ∧
    (parseChild file raw).exported = .ok (parseChild file raw).toValue := by
  have tree := isTree_parseChild file raw
  have formed := (parsed_parseChild file raw).wellFormed
  refine ⟨all_isCanonical file raw, parseItems_eq_map file, fun _ _ => Node.explains_walk tree,
    fun pages registry partials env made pagesParsed partialsParsed busy => ?_,
    fun _ _ => Validate.succeeds_checkNode formed, exported_of_isTree tree⟩
  obtain ⟨m, resolved, -⟩ :=
    Env.exists_resolves (wellFormed_of_parsed made pagesParsed partialsParsed) formed
  exact ⟨m, (Env.gives_of_resolves resolved).1⟩

/-- A section under a condition, over a heading, a reference to a page, a loop without a template and
what is no mapping. -/
def gallery : Value := .dict [
  ("name", .str "Gallery"), ("hide", .bool false), ("widgets", .list [
    .dict [("h2", .str "Pictures"), ("show", .int 1)], .dict [("$ref", .str "home")],
    .dict [("each", .str "rows")], .int 7])]

def galleryPage : Value := .dict [
  ("name", .str "Home"), ("type", .str "page"), ("route", .str "/"), ("sections", .list [gallery])]

theorem isCanonical_of_parseChild_gallery : ∃ page env c n m,
    parsePage (.str "home.yaml") galleryPage = .ok page ∧ Env.of [page] {} [] = .ok env ∧
    parseChild (.str "home.yaml") gallery = .cond c (.proper [n]) .null ∧ n.isShowable ∧
    (env.resolveChild [] (parseChild (.str "home.yaml") gallery)).result = .ok m := by
  obtain ⟨page, parsed⟩ : ∃ page, parsePage (.str "home.yaml") galleryPage = .ok page := by
    rcases parsePage_cases (.str "home.yaml") galleryPage with
      ⟨refused, -⟩ | ⟨-, stuck, -⟩ | ⟨-, -, parsed⟩
    · cases refused
    · cases stuck
    · exact parsed
  obtain ⟨env, made, -⟩ : ∃ env, Env.of [page] {} [] = .ok env ∧ env.WellFormed :=
    Env.of_total {} (List.forall_mem_singleton.mpr (isSoundPage_of_parsePage parsed))
      fun _ absurd => by cases absurd
  obtain ⟨each, -, -, resolves, -⟩ := isCanonical_of_parseChild (.str "home.yaml") gallery
  obtain ⟨m, resolved⟩ := resolves [page] {} [] env made
    (List.forall_mem_singleton.mpr ⟨_, _, parsed⟩) (fun _ absurd => by cases absurd) []
  obtain ⟨c, n, same⟩ : ∃ c n,
      parseChild (.str "home.yaml") gallery = .cond c (.proper [n]) .null := by
    rw [gallery, parseChild_of_sect rfl]
    exact ⟨_, _, rfl⟩
  have form := (each _ (Node.mem_preorder_self _)).formed
  rw [same] at form
  obtain ⟨-, _, one, showable⟩ := form
  cases one
  exact ⟨page, env, c, n, m, parsed, made, same, showable, resolved⟩

end passes

end Document
end ViewCompiler
