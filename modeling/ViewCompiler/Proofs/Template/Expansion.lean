import ViewCompiler.Node.Same
import ViewCompiler.Proofs.Template.Bindings
import ViewCompiler.Proofs.Template.Placeholders

/-! What comes in the place of a call: the template of the partial as it is, except that placeholders in
the props and bindings of its widgets give way to what they are bound to. `Node.Fills` says so without
the walk that does it. -/
namespace ViewCompiler

/-- What comes in the place of a value: for a placeholder that is bound what it is bound to, whatever
that is, and for all else the value itself. -/
inductive Fills (bound : String → Option Value) : Value → Value → Prop
  | placeholder {name v} (known : bound name = some v) : Fills bound (.str ("$" ++ name)) v
  | kept {v} (free : ∀ name, v = .str ("$" ++ name) → bound name = none) : Fills bound v v

/-- The same keys in the same order, each with what comes in the place of its value. -/
def FillsProps (bound : String → Option Value) (props filled : Fields) : Prop :=
  List.Forall₂ (fun f g => g.1 = f.1 ∧ Fills bound f.2 g.2) props filled

/-- What comes in the place of a widget. A binding whose path gives way to a text is a binding with that
path; if it gives way to anything else there is none, and what it gave way to is the source among the
props. -/
inductive Widget.Fills (bound : String → Option Value) (w : Widget) : Widget → Prop
  | unbound {props filled} (mapping : w.props = .dict props) (source : w.source = .null)
      (each : FillsProps bound props filled) : Fills bound w { w with props := .dict filled }
  | bound {props filled binding path} (mapping : w.props = .dict props)
      (source : w.source = .proper binding) (text : ViewCompiler.Fills bound binding.path (.str path))
      (each : FillsProps bound props filled) : Fills bound w
        { w with source := .proper { binding with path := .str path }, props := .dict filled }
  | moved {props filled binding v} (mapping : w.props = .dict props)
      (source : w.source = .proper binding) (other : ViewCompiler.Fills bound binding.path v)
      (noText : ¬ v.isStr) (each : FillsProps bound props filled) : Fills bound w
        { w with source := .null, props := .dict (Entries.put filled "source" v) }

namespace Node

/-- What comes in the place of a template: a tree that differs from it in its widgets only. -/
inductive Fills (bound : String → Option Value) : Node → Node → Prop
  | widget {w v} (filled : w.Fills bound v) : Fills bound (.widget w) (.widget v)
  | ref {r} : Fills bound (.ref r) (.ref r)
  | call {c} : Fills bound (.call c) (.call c)
  | slot {s} : Fills bound (.slot s) (.slot s)
  | container {n ms} (container : n.isContainer) (length : n.subtrees.length = ms.length)
      (each : ∀ {t m}, (t, m) ∈ n.subtrees.zip ms → Fills bound t m) :
      Fills bound n (n.withSubtrees ms)

end Node

section filling

variable {args : Fields} {w v : Widget} {n m : Node}

theorem fills_fill (args : Fields) (v : Value) : Fills args.get? v (fill args v) := by
  obtain ⟨name, same, known⟩ | ⟨free, stays⟩ := fill_cases args v
  · rw [same] at known ⊢
    exact .placeholder known
  · rw [stays]
    exact .kept free

theorem fillsProps_fillProps (args props : Fields) :
    FillsProps args.get? props (fillProps args props) :=
  List.forall₂_map_right_iff.mpr (List.forall₂_same.mpr fun f _ => ⟨rfl, fills_fill args f.2⟩)

theorem Widget.fills_of_fill (done : w.fill args = .ok v) : w.Fills args.get? v := by
  obtain ⟨props, mapping, ⟨source, rfl⟩ | ⟨binding, source, rfl⟩⟩ := fill_eq_ok.mp done
  · exact .unbound mapping source (fillsProps_fillProps args props)
  · have path := fills_fill args binding.path
    by_cases text : (ViewCompiler.fill args binding.path).isStr
    · obtain ⟨s, same⟩ := Value.exists_of_isStr text
      rw [same] at path ⊢
      exact .bound mapping source path (fillsProps_fillProps args props)
    · rw [rebind_of_not_isStr text]
      exact .moved mapping source path text (fillsProps_fillProps args props)

/-- The induction is on the template: a walk leaves each node as it is but for its widgets. -/
theorem Node.fills_of_substitute (walked : n.substitute args = .ok m) : n.Fills args.get? m := by
  induction n using induction generalizing m with
  | _ n ih =>
  by_cases container : n.isContainer
  · obtain ⟨-, ms, pairs, rfl⟩ := forall₂_of_walkWidgets container walked
    have each : List.Forall₂ (Node.Fills args.get?) n.subtrees ms :=
      forall₂_imp_of_mem pairs fun t member u => ih t member
    obtain ⟨length, related⟩ := List.forall₂_iff_zip.mp each
    exact .container container length related
  · cases n with
    | ref => cases walked; exact .ref
    | call => cases walked; exact .call
    | slot => cases walked; exact .slot
    | widget w =>
      obtain ⟨v, filled, rfl⟩ := Except.map_eq_ok.mp walked
      exact .widget (Widget.fills_of_fill filled)
    | page | custom | stray => cases walked
    | sect | frag | cond | loop => exact absurd rfl container

end filling

namespace Env

variable {env : Env} {c : Call} {p : Partial} {key : String} {args : Fields}

/-- A call that is expanded gives way to one tree, whatever is being expanded and however it goes on:
the template, filled with what the call and the parameters bind. -/
theorem resolveCall_fills (found : env.callTarget c = .ok (.found key p))
    (mapping : c.args = .dict args) (distinct : (Entries.keys args).Nodup)
    (named : ∀ param ∈ p.params, param.name.isStr) (fillable : p.template.All (·.isFillable)) :
    ∃ t, p.template.Fills (p.bound args) t ∧
      ∀ (expand : Expander) (busy : List String), key ∉ busy → ∀ ds m,
        (env.resolveCall expand busy c).Gives ds m ↔
          c.toHead.Placed ∧ (expand (key :: busy) t).Gives ds m := by
  obtain ⟨bindings, bound, same⟩ := Partial.exists_bindings named distinct
  obtain ⟨t, walked⟩ := Node.exists_substitute bindings fillable
  have filled : Env.filled p c = .ok t :=
    Except.bind_eq_ok.mpr ⟨bindings, by rw [mapping]; exact bound, walked⟩
  refine ⟨t, same ▸ Node.fills_of_substitute walked, fun expand busy fresh ds m => ?_⟩
  rw [gives_resolveCall_fresh found fresh]
  simp only [filled, Except.ok.injEq, exists_eq_left']

/-- A panel with a table and a total, and with a call of another partial in it. -/
def panelTemplate : Node := .sect { name := .str "$title" } (.proper [
  .widget {
    type := .str "table"
    source := .proper { path := .str "$rows", entityType := .str "Row" }
    props := .dict [("title", .str "$title"), ("note", .str "All of $title"),
      ("columns", .list [.str "$title"])] },
  .widget {
    type := .str "total"
    source := .proper { path := .str "$path", fieldType := .str "number" }
    props := .dict [("label", .str "$label")] },
  .cond { condition := .str "$rows" } (.proper [
    .call { name := .str "legend", args := .dict [("title", .str "$title")] }]) .null])

/-- The title is declared twice, and the rows have no default. -/
def panel : Partial where
  name := .str "panel"
  template := panelTemplate
  params := [
    { name := .str "title", default := .str "Untitled", hasDefault := true },
    { name := .str "title", default := .str "Panel", hasDefault := true },
    { name := .str "rows" }]

/-- Nothing is handed over as rows, and a text that looks like a placeholder as path. -/
def panelArgs : Fields := [("rows", .null), ("path", .str "$title")]

def panelCall : Call where
  name := .str "panel"
  args := .dict panelArgs

def panelEnv : Env where
  pages := []
  partials := [("panel", panel)]
  registry := {}

def panelFilled : Node := .sect { name := .str "$title" } (.proper [
  .widget {
    type := .str "table"
    props := .dict [("title", .str "Panel"), ("note", .str "All of $title"),
      ("columns", .list [.str "$title"]), ("source", .null)] },
  .widget {
    type := .str "total"
    source := .proper { path := .str "$title", fieldType := .str "number" }
    props := .dict [("label", .str "$label")] },
  .cond { condition := .str "$rows" } (.proper [
    .call { name := .str "legend", args := .dict [("title", .str "$title")] }]) .null])

theorem resolveCall_fills_panel :
    panelEnv.callTarget panelCall = .ok (.found "$partial:panel" panel) ∧
    (Entries.keys panelArgs).Nodup ∧ (∀ param ∈ panel.params, param.name.isStr) ∧
    panelTemplate.All (·.isFillable) ∧
    ∃ t, panelTemplate.Fills (panel.bound panelArgs) t ∧ t.same panelFilled ∧
      (panelEnv.resolveCall (fun _ n => pure n) [] panelCall).Gives [] t := by
  have found : panelEnv.callTarget panelCall = .ok (.found "$partial:panel" panel) := rfl
  have distinct : (Entries.keys panelArgs).Nodup := by decide
  have named : ∀ param ∈ panel.params, param.name.isStr := by decide
  have fillable : panelTemplate.All (·.isFillable) :=
    List.all_eq_true.mp (by decide : panelTemplate.preorder.all (·.isFillable) = true)
  refine ⟨found, distinct, named, fillable, ?_⟩
  obtain ⟨t, fills, resolved⟩ := resolveCall_fills found rfl distinct named fillable
  have known : (panelEnv.resolveCall (fun _ n => pure n) [] panelCall).result.toOption.map
      (·.same panelFilled) = some true := by
    decide +kernel
  obtain ⟨m, run, same⟩ := Except.exists_of_toOption_map known
  obtain ⟨placed, own⟩ := (resolved _ [] (by simp) _ m).mp (Traced.gives_of_result run)
  obtain ⟨rfl, -⟩ := Traced.gives_pure.mp own
  exact ⟨t, fills, same, (resolved _ [] (by simp) [] t).mpr ⟨placed, Traced.gives_pure.mpr ⟨rfl, rfl⟩⟩⟩

end Env

end ViewCompiler
