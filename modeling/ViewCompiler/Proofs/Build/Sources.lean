import ViewCompiler.Proofs.Build.Shares
import ViewCompiler.Proofs.Document.Props
import ViewCompiler.Proofs.Template.Placeholders

/-! Where a widget has its source: in its binding if it is a text, else among its props, and never in
both. Parsing sees to it, filling moves a source from one place to the other, and inlining copies
widgets as they are. -/
namespace ViewCompiler

/-- The props are a dictionary, and a source among them is no text and the only one. -/
def Widget.HasOneSource (w : Widget) : Prop :=
  ∃ props, w.props = .dict props ∧ ∀ v, Entries.get? props "source" = some v →
    w.source.isNull ∧ ¬ v.isStr

def Node.HasOneSource : Node → Prop
  | .widget w => w.HasOneSource
  | .page _ _ | .sect _ _ | .ref _ | .call _ | .slot _ | .cond _ _ _ | .loop _ _ | .frag _ _
  | .custom _ | .stray _ => True

section parsing

open Document

variable {file raw : Value} {n : Node}

theorem hasOneSource_widgetNode (head : Head) (fs : Fields) : (widgetNode head fs).HasOneSource := by
  refine ⟨propsOf fs, rfl, fun v found => ?_⟩
  obtain ⟨-, -, absent⟩ | ⟨_, -, -, absent⟩ | ⟨-, other, unbound, present⟩ := source_cases fs
  · rw [absent] at found
    cases found
  · rw [absent] at found
    cases found
  · obtain rfl := Option.some.inj (present.symm.trans found)
    exact ⟨by rw [unbound]; rfl, by simp [other]⟩

theorem Document.Parsed.hasOneSource (parsed : Parsed file n) : n.HasOneSource := by
  cases parsed with
  | ref | call | slot | loop | frag | sect | shown => trivial
  | widget => exact hasOneSource_widgetNode _ _
  | unknown => exact ⟨[], rfl, fun _ absurd => by cases absurd⟩

theorem hasOneSource_of_parsePage (done : parsePage file raw = .ok n) :
    n.All Node.HasOneSource := by
  obtain ⟨_, p, ns, rfl, -, -, -, -, -, parsed⟩ := exists_of_parsePage done
  exact Node.all_iff.mpr ⟨trivial, fun m member => (parsed m member).all Parsed.hasOneSource⟩

end parsing

section filling

variable {args props : Fields} {w filled : Widget} {v : Value}

/-- A binding that is filled with something else than a text gives way to a prop. -/
theorem Widget.hasOneSource_fill (done : w.fill args = .ok filled) (own : w.HasOneSource) :
    filled.HasOneSource := by
  obtain ⟨props, mapping, one⟩ := own
  have stays : ∀ u, Entries.get? (fillProps args props) "source" = some u →
      w.source.isNull ∧ ¬ u.isStr := by
    intro u found
    rw [get?_fillProps] at found
    obtain ⟨v, before, rfl⟩ := Option.map_eq_some_iff.mp found
    obtain ⟨unbound, other⟩ := one v before
    exact ⟨unbound, by rwa [fill_of_not_isStr args other]⟩
  obtain ⟨_, same, form⟩ := fill_eq_ok.mp done
  obtain rfl := Value.dict.inj (mapping.symm.trans same)
  obtain ⟨-, rfl⟩ | ⟨binding, bound, rfl⟩ := form
  · exact ⟨_, rfl, stays⟩
  · by_cases text : (ViewCompiler.fill args binding.path).isStr
    · obtain ⟨path, known⟩ := Value.exists_of_isStr text
      rw [known]
      refine ⟨_, rfl, fun u found => ?_⟩
      obtain ⟨unbound, -⟩ := stays u found
      rw [bound] at unbound
      cases unbound
    · rw [rebind_of_not_isStr text]
      refine ⟨_, rfl, fun u found => ⟨rfl, ?_⟩⟩
      rw [Entries.get?_put_self] at found
      rwa [← Option.some.inj found]

end filling

theorem Node.lasts_hasOneSource : Lasts HasOneSource where
  container {n ns} container _ := by
    cases n with
    | sect | frag | cond | loop => trivial
    | page | widget | ref | call | slot | custom | stray => cases container
  widget filled own := Widget.hasOneSource_fill filled own
  page _ := trivial

/-- A widget has one source wherever it stands: so it is parsed, so it stays when a template is filled
with whatever arguments and when anything is resolved, and so it comes out of a build. -/
theorem hasOneSource_throughout :
    (∀ file raw, (Document.parseChild file raw).All Node.HasOneSource) ∧
    (∀ (template filled : Node) (args : Fields), template.All Node.HasOneSource →
      template.substitute args = .ok filled → filled.All Node.HasOneSource) ∧
    (∀ (env : Env) (busy : List String) (n m : Node) (ds : List Diagnostic),
      env.All Node.HasOneSource → n.All Node.HasOneSource →
      (env.resolveChild busy n).Gives ds m → m.All Node.HasOneSource) ∧
    ∀ (documents : Documents) (registry : Registry) (partials : List (Value × Partial)) (b : Build),
      (∀ e ∈ partials, ∃ file raw, Document.parsePartial file raw = .ok e.2) →
      build documents registry partials = .ok b → ∀ page ∈ b.pages, page.All Node.HasOneSource := by
  refine ⟨fun file raw => (Document.parsed_parseChild file raw).all Document.Parsed.hasOneSource,
    ?_, ?_, ?_⟩
  · intro template filled args each walked
    exact Node.lasts_hasOneSource.substitute walked each
  · intro env busy n m ds known each run
    exact Node.lasts_hasOneSource.resolves known (Env.gives_resolveChild.mp run).1 each
  · intro documents registry partials b parsed run
    refine all_of_build Node.lasts_hasOneSource hasOneSource_of_parsePage run fun e member => ?_
    obtain ⟨file, raw, done⟩ := parsed e member
    obtain ⟨_, template, _, same⟩ := Document.exists_of_parsePartial done
    rw [same]
    exact (Document.parsed_parseChild file template).all Document.Parsed.hasOneSource

def rowsTemplate : Value := .dict [("type", .str "data-table"), ("source", .str "$rows")]

def rowsNode : Node := Document.parseChild (.str "rows.yaml") rowsTemplate

/-- A list, which is no binding. -/
def rowsArgs : Fields := [("rows", .list [.int 1, .int 2])]

def rowsEnv : Env where
  pages := []
  partials := [("rows", ⟨.str "rows", rowsNode, []⟩)]
  registry := {}

def rowsCall : Node := .call { name := .str "rows", args := .dict rowsArgs }

def rowsPartial : Value := .dict [
  ("name", .str "rows"), ("params", .list [.dict [("name", .str "rows")]]),
  ("template", rowsTemplate)]

def rowsDocuments : Documents := [(.str "home.yaml", .dict [
  ("name", .str "Home"), ("type", .str "page"), ("route", .str "/"),
  ("sections", .list [.dict [("$partial", .str "rows"), ("rows", .list [.int 1, .int 2])]])])]

def rowsBuild : Except Fault (Partial × Build) := do
  let p ← Document.parsePartial (.str "rows.yaml") rowsPartial
  let b ← build rowsDocuments {} [(.str "rows", p)]
  return (p, b)

def Node.hasSourceProp : Node → Bool
  | .widget w => (w.props.fields.toOption.bind (Entries.get? · "source")).isSome
  | _ => false

theorem hasOneSource_throughout_rows :
    (∃ filled, rowsNode.substitute rowsArgs = .ok filled ∧ filled.All Node.HasOneSource) ∧
    (∃ ds m, (rowsEnv.resolveChild [] rowsCall).Gives ds m ∧ m.All Node.HasOneSource) ∧
    ∃ p b w props v, Document.parsePartial (.str "rows.yaml") rowsPartial = .ok p ∧
      build rowsDocuments {} [(.str "rows", p)] = .ok b ∧
      Node.widget w ∈ b.pages.flatMap Node.preorder ∧ w.props = .dict props ∧
      Entries.get? props "source" = some v ∧ w.source.isNull ∧ ¬ v.isStr := by
  obtain ⟨parsed, filling, resolving, building⟩ := hasOneSource_throughout
  have template : rowsNode.All Node.HasOneSource := parsed _ _
  refine ⟨?_, ?_, ?_⟩
  · have known : (rowsNode.substitute rowsArgs).toOption.map (fun _ => true) = some true := by
      decide +kernel
    obtain ⟨filled, walked, -⟩ := Except.exists_of_toOption_map known
    exact ⟨filled, walked, filling _ _ _ template walked⟩
  · have known : (rowsEnv.resolveChild [] rowsCall).result.toOption.map (fun _ => true) =
        some true := by
      decide +kernel
    obtain ⟨m, run, -⟩ := Except.exists_of_toOption_map known
    have env : rowsEnv.All Node.HasOneSource := by
      refine ⟨fun _ absurd => (List.not_mem_nil absurd).elim, fun p member => ?_⟩
      obtain rfl := List.mem_singleton.mp member
      exact template
    have call : rowsCall.HasOneSource := trivial
    have given := Traced.gives_of_result run
    exact ⟨_, m, given, resolving _ _ _ _ _ env (Node.all_leaf rfl call) given⟩
  · have known : rowsBuild.toOption.map (fun r => (r.2.pages.flatMap Node.preorder).any
        Node.hasSourceProp) = some true := by
      decide +kernel
    obtain ⟨⟨p, b⟩, run, found⟩ := Except.exists_of_toOption_map known
    obtain ⟨_, done, rest⟩ := Except.bind_eq_ok.mp run
    obtain ⟨_, built, made⟩ := Except.bind_eq_ok.mp rest
    cases made
    obtain ⟨n, member, has⟩ := List.any_eq_true.mp found
    obtain ⟨page, inside, below⟩ := List.mem_flatMap.mp member
    have own := building _ _ _ b (fun e given => by
      obtain rfl := List.mem_singleton.mp given
      exact ⟨_, _, done⟩) built page inside n below
    cases n with
    | widget w =>
      obtain ⟨props, mapping, one⟩ := own
      rw [Node.hasSourceProp, mapping] at has
      obtain ⟨v, present⟩ := Option.isSome_iff_exists.mp has
      exact ⟨p, b, w, props, v, done, built, member, mapping, present, one v present⟩
    | page | sect | ref | call | slot | cond | loop | frag | custom | stray => cases has

end ViewCompiler
