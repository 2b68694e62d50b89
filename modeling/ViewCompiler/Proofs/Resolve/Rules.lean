import ViewCompiler.Proofs.Node.Subtrees
import ViewCompiler.Proofs.Trace.Success
import ViewCompiler.Resolve

/-! The rules of resolution, free of traces and budgets. `Env.Resolves` relates a tree to what becomes
of it while some keys are being expanded; what is reported on the way can be read off the result. One
level of the resolver follows the rules whenever the expander that it calls does. -/
namespace ViewCompiler

def Head.Placed (h : Head) : Prop := ∃ place, h.place = .ok place

def Head.errors (h : Head) (code : Code) (message : String) : List Diagnostic :=
  match h.place with
  | .ok place => [Diagnostic.make .error code message place]
  | .error _ => []

theorem Traced.gives_report_iff {h : Head} {code : Code} {message : String} {u : Unit}
    {ds : List Diagnostic} :
    (Traced.report h code message).Gives ds u ↔ h.Placed ∧ ds = h.errors code message := by
  rw [Traced.gives_report]
  constructor
  · rintro ⟨place, placed, rfl⟩
    exact ⟨⟨place, placed⟩, by simp [Head.errors, placed]⟩
  · rintro ⟨⟨place, placed⟩, rfl⟩
    exact ⟨place, placed, by simp [Head.errors, placed]⟩

namespace Env

variable {env : Env} {expand : Expander} {busy : List String}

/-- What is reported of a node that stands in a resolved tree. A target that was found and not put in
the place of the node was being expanded already. -/
def errorsAt (env : Env) : Node → List Diagnostic
  | .ref r =>
    match env.refTarget r with
    | .ok (.missing code message) => r.toHead.errors code message
    | .ok (.found key _) => r.toHead.errors .circularRef s!"Circular $ref: {key}"
    | .error _ => []
  | .call c =>
    match env.callTarget c with
    | .ok (.missing code message) => c.toHead.errors code message
    | .ok (.found _ p) => c.toHead.errors .circularRef s!"Circular $partial: {p.name.text}"
    | .error _ => []
  | .widget w =>
    match env.registry.has w.type with
    | .ok false =>
      w.toHead.errors .unknownWidgetType s!"Unknown widget type \"{w.type.text}\""
    | _ => []
  | .page _ _ | .sect _ _ | .slot _ | .cond _ _ _ | .loop _ _ | .frag _ _ | .custom _
  | .stray _ => []

def errorsOf (env : Env) (n : Node) : List Diagnostic := n.preorder.flatMap env.errorsAt

def filled (p : Partial) (c : Call) : Except Fault Node := p.bindings c.args >>= p.template.substitute

/-- The tree becomes the other while the keys are being expanded. -/
inductive Resolves (env : Env) : List String → Node → Node → Prop
  | ref {busy r key target m} (found : env.refTarget r = .ok (.found key target))
      (fresh : key ∉ busy) (placed : r.toHead.Placed)
      (expanded : Resolves env (key :: busy) target m) : Resolves env busy (.ref r) m
  | circularRef {busy r key target} (found : env.refTarget r = .ok (.found key target))
      (entered : key ∈ busy) (placed : r.toHead.Placed) : Resolves env busy (.ref r) (.ref r)
  | missingRef {busy r code message} (missing : env.refTarget r = .ok (.missing code message))
      (placed : r.toHead.Placed) : Resolves env busy (.ref r) (.ref r)
  | call {busy c key p t m} (found : env.callTarget c = .ok (.found key p))
      (fresh : key ∉ busy) (template : filled p c = .ok t) (placed : c.toHead.Placed)
      (expanded : Resolves env (key :: busy) t m) : Resolves env busy (.call c) m
  | circularCall {busy c key p} (found : env.callTarget c = .ok (.found key p))
      (entered : key ∈ busy) (placed : c.toHead.Placed) : Resolves env busy (.call c) (.call c)
  | missingCall {busy c code message} (missing : env.callTarget c = .ok (.missing code message))
      (placed : c.toHead.Placed) : Resolves env busy (.call c) (.call c)
  | widget {busy w known} (looked : env.registry.has w.type = .ok known)
      (placed : known = false → w.toHead.Placed) : Resolves env busy (.widget w) (.widget w)
  | slot {busy s} : Resolves env busy (.slot s) (.slot s)
  | container {busy n ms} (container : n.isContainer) (passable : n.Passable)
      (length : n.subtrees.length = ms.length)
      (each : ∀ {t m}, (t, m) ∈ n.subtrees.zip ms → Resolves env busy t m) :
      Resolves env busy n (n.withSubtrees ms)

theorem errorsOf_eq (n : Node) :
    env.errorsOf n = env.errorsAt n ++ n.subtrees.flatMap env.errorsOf := by
  unfold errorsOf
  rw [Node.preorder_eq]
  simp [List.flatMap_assoc]

@[simp] theorem errorsOf_ref (r : Ref) : env.errorsOf (.ref r) = env.errorsAt (.ref r) := by
  simp [errorsOf_eq, Node.subtrees]

@[simp] theorem errorsOf_call (c : Call) : env.errorsOf (.call c) = env.errorsAt (.call c) := by
  simp [errorsOf_eq, Node.subtrees]

@[simp] theorem errorsOf_widget (w : Widget) :
    env.errorsOf (.widget w) = env.errorsAt (.widget w) := by
  simp [errorsOf_eq, Node.subtrees]

@[simp] theorem errorsOf_slot (s : Slot) : env.errorsOf (.slot s) = [] := by
  simp [errorsOf_eq, Node.subtrees, errorsAt]

theorem errorsAt_withSubtrees {n : Node} {ns : List Node} (container : n.isContainer) :
    env.errorsAt (n.withSubtrees ns) = [] := by
  cases n with
  | sect | frag | cond | loop => rfl
  | page | widget | ref | call | slot | custom | stray => cases container

theorem errorsOf_withSubtrees {n : Node} {ns : List Node} (container : n.isContainer)
    (length : ns.length = n.subtrees.length) :
    env.errorsOf (n.withSubtrees ns) = ns.flatMap env.errorsOf := by
  rw [errorsOf_eq, errorsAt_withSubtrees container,
    Node.subtrees_withSubtrees container length, List.nil_append]

section level

theorem resolveNodes_eq_mapM (ns : List Node) :
    resolveNodes env expand busy ns = ns.mapM (resolveNode env expand busy) := by
  induction ns with
  | nil => rfl
  | cons n ns ih => simp only [resolveNodes, List.mapM_cons, ih]

variable {children rebuilt : Children} {ds : List Diagnostic}

theorem gives_resolveChildren :
    (resolveChildren env expand busy children).Gives ds rebuilt ↔ children.Passable ∧
      ∃ ms, (children.nodes.mapM (resolveNode env expand busy)).Gives ds ms ∧
        rebuilt = .proper ms := by
  cases children with
  | proper ns => simp [resolveChildren, Traced.gives_map, resolveNodes_eq_mapM, eq_comm]
  | stray v =>
    simp only [resolveChildren, bind_pure_comp, Traced.gives_map, Traced.gives_ofExcept,
      Node.noMembers_eq_ok, Loose.nodes_stray, List.mapM_nil, Traced.gives_pure]
    constructor
    · rintro ⟨_, ⟨passable, rfl⟩, rfl⟩
      exact ⟨passable, [], ⟨rfl, rfl⟩, rfl⟩
    · rintro ⟨passable, _, ⟨rfl, rfl⟩, rfl⟩
      exact ⟨(), ⟨passable, rfl⟩, rfl⟩

theorem gives_resolveOtherwise :
    (resolveOtherwise env expand busy children).Gives ds rebuilt ↔
      (children = .null ∨ children.Passable) ∧
      ∃ ms, (children.nodes.mapM (resolveNode env expand busy)).Gives ds ms ∧
        rebuilt = if children.isNull then .null else .proper ms := by
  rcases children.null_or_not_isNull with rfl | notNull
  · simp [resolveOtherwise, Loose.null, Loose.isNull, eq_comm, and_comm]
  · have same : resolveOtherwise env expand busy children =
        resolveChildren env expand busy children := by
      rcases children with ns | v
      · rfl
      · cases v with
        | null => cases notNull
        | bool | int | float | str | list | dict => rfl
    rw [same, gives_resolveChildren]
    simp [Loose.ne_null_of_not_isNull notNull, notNull]

/-- A container is resolved by resolving its subtrees in order and putting the results back. -/
theorem gives_resolveNode_container {n m : Node} (container : n.isContainer) :
    (resolveNode env expand busy n).Gives ds m ↔ n.Passable ∧
      ∃ ms, (n.subtrees.mapM (resolveNode env expand busy)).Gives ds ms ∧
        m = n.withSubtrees ms := by
  cases n with
  | sect s children | frag s children =>
    simp only [resolveNode, bind_pure_comp, Traced.gives_map, gives_resolveChildren]
    constructor
    · rintro ⟨_, ⟨passable, ms, run, rfl⟩, rfl⟩
      exact ⟨passable, ms, run, rfl⟩
    · rintro ⟨passable, ms, run, rfl⟩
      exact ⟨_, ⟨passable, ms, run, rfl⟩, rfl⟩
  | loop l template =>
    simp [resolveNode, Node.subtrees, Node.Passable, Traced.gives_map, Node.withSubtrees, eq_comm]
  | cond c body otherwise =>
    simp only [resolveNode, bind_pure_comp, Traced.gives_bind, Traced.gives_map,
      gives_resolveChildren, gives_resolveOtherwise, Node.subtrees, List.mapM_append]
    constructor
    · rintro ⟨_, ds₁, ds₂, ⟨passable, ns, first, rfl⟩, ⟨_, ⟨free, ms, second, rfl⟩, rfl⟩, rfl⟩
      refine ⟨⟨passable, free⟩, ns ++ ms, ⟨ns, ds₁, ds₂, first, ⟨ms, second, rfl⟩, rfl⟩, ?_⟩
      simp [Node.withSubtrees, ← Traced.length_of_gives_mapM first]
    · rintro ⟨⟨passable, free⟩, _, ⟨ns, ds₁, ds₂, first, ⟨ms, second, rfl⟩, rfl⟩, rfl⟩
      refine ⟨_, ds₁, ds₂, ⟨passable, ns, first, rfl⟩, ⟨_, ⟨free, ms, second, rfl⟩, ?_⟩, rfl⟩
      simp [Node.withSubtrees, ← Traced.length_of_gives_mapM first]
  | page | widget | ref | call | slot | custom | stray => cases container

/-- The node is reported and stays as it is. -/
theorem gives_report_keep {h : Head} {code : Code} {message : String} {n m : Node} :
    (do Traced.report h code message; return n).Gives ds m ↔
      h.Placed ∧ m = n ∧ ds = h.errors code message := by
  simp only [bind_pure_comp, Traced.gives_map, Traced.gives_report_iff, exists_const, and_assoc]
  exact and_congr_right fun _ => ⟨fun ⟨e, k⟩ => ⟨k.symm, e⟩, fun ⟨k, e⟩ => ⟨e, k.symm⟩⟩

section ref

variable {r : Ref} {key message : String} {target m : Node} {code : Code}

theorem gives_resolveRef_missing (missing : env.refTarget r = .ok (.missing code message)) :
    (resolveRef env expand busy r).Gives ds m ↔
      r.toHead.Placed ∧ m = .ref r ∧ ds = r.toHead.errors code message := by
  rw [resolveRef, Traced.gives_ofExcept_bind]
  simp only [missing, Except.ok.injEq, exists_eq_left']
  exact gives_report_keep

theorem gives_resolveRef_circular (found : env.refTarget r = .ok (.found key target))
    (entered : key ∈ busy) :
    (resolveRef env expand busy r).Gives ds m ↔ r.toHead.Placed ∧ m = .ref r ∧
      ds = r.toHead.errors .circularRef s!"Circular $ref: {key}" := by
  rw [resolveRef, Traced.gives_ofExcept_bind]
  simp only [found, Except.ok.injEq, exists_eq_left', if_pos entered]
  exact gives_report_keep

theorem gives_resolveRef_fresh (found : env.refTarget r = .ok (.found key target))
    (fresh : key ∉ busy) :
    (resolveRef env expand busy r).Gives ds m ↔
      r.toHead.Placed ∧ (expand (key :: busy) target).Gives ds m := by
  rw [resolveRef, Traced.gives_ofExcept_bind]
  simp only [found, Except.ok.injEq, exists_eq_left', if_neg fresh, Traced.gives_bind,
    Traced.gives_log]
  simp [Head.Placed]

theorem exists_target_of_gives_resolveRef (run : (resolveRef env expand busy r).Gives ds m) :
    ∃ target, env.refTarget r = .ok target := by
  rw [resolveRef, Traced.gives_ofExcept_bind] at run
  obtain ⟨target, found, -⟩ := run
  exact ⟨target, found⟩

end ref

section call

variable {c : Call} {key message : String} {p : Partial} {m : Node} {code : Code}

theorem gives_resolveCall_missing (missing : env.callTarget c = .ok (.missing code message)) :
    (resolveCall env expand busy c).Gives ds m ↔
      c.toHead.Placed ∧ m = .call c ∧ ds = c.toHead.errors code message := by
  rw [resolveCall, Traced.gives_ofExcept_bind]
  simp only [missing, Except.ok.injEq, exists_eq_left']
  exact gives_report_keep

theorem gives_resolveCall_circular (found : env.callTarget c = .ok (.found key p))
    (entered : key ∈ busy) :
    (resolveCall env expand busy c).Gives ds m ↔ c.toHead.Placed ∧ m = .call c ∧
      ds = c.toHead.errors .circularRef s!"Circular $partial: {p.name.text}" := by
  rw [resolveCall, Traced.gives_ofExcept_bind]
  simp only [found, Except.ok.injEq, exists_eq_left', if_pos entered]
  exact gives_report_keep

theorem gives_resolveCall_fresh (found : env.callTarget c = .ok (.found key p))
    (fresh : key ∉ busy) :
    (resolveCall env expand busy c).Gives ds m ↔
      ∃ t, filled p c = .ok t ∧ c.toHead.Placed ∧ (expand (key :: busy) t).Gives ds m := by
  rw [resolveCall, Traced.gives_ofExcept_bind]
  simp only [found, Except.ok.injEq, exists_eq_left', if_neg fresh, Traced.gives_bind,
    Traced.gives_log]
  simp [Head.Placed, filled]

theorem exists_target_of_gives_resolveCall (run : (resolveCall env expand busy c).Gives ds m) :
    ∃ target, env.callTarget c = .ok target := by
  rw [resolveCall, Traced.gives_ofExcept_bind] at run
  obtain ⟨target, found, -⟩ := run
  exact ⟨target, found⟩

end call

theorem gives_resolveWidget {w : Widget} {m : Node} :
    (resolveWidget env w).Gives ds m ↔ ∃ known, env.registry.has w.type = .ok known ∧
      (known = false → w.toHead.Placed) ∧ m = .widget w ∧ ds = env.errorsAt (.widget w) := by
  rw [resolveWidget, Traced.gives_ofExcept_bind]
  refine exists_congr fun known => and_congr_right fun looked => ?_
  cases known with
  | true => simp [errorsAt, looked, eq_comm]
  | false =>
    simp only [errorsAt, looked, Bool.not_false, if_true, forall_const]
    exact gives_report_keep

/-- One level of the resolver follows the rules if the expander does, and what it reports can be
read off the result. -/
theorem resolves_of_gives_level
    (below : ∀ busy n ds m, (expand busy n).Gives ds m →
      env.Resolves busy n m ∧ ds = env.errorsOf m)
    {n m : Node} (run : (resolveNode env expand busy n).Gives ds m) :
    env.Resolves busy n m ∧ ds = env.errorsOf m := by
  induction n using Node.induction generalizing ds m with
  | _ n ih =>
  by_cases container : n.isContainer
  · obtain ⟨passable, ms, each, rfl⟩ := (gives_resolveNode_container container).mp run
    have inside : ∀ t ∈ n.subtrees, ∀ ds m, (resolveNode env expand busy t).Gives ds m →
        env.Resolves busy t m ∧ ds = env.errorsOf m := fun t member _ _ run => ih t member run
    obtain ⟨matched, rfl⟩ := Traced.forall₂_of_gives_mapM inside each
    obtain ⟨length, pairs⟩ := List.forall₂_iff_zip.mp matched
    exact ⟨.container container passable length pairs,
      (errorsOf_withSubtrees container length.symm).symm⟩
  · cases n with
    | ref r =>
      rw [resolveNode] at run
      obtain ⟨target, found⟩ := exists_target_of_gives_resolveRef run
      cases target with
      | missing code message =>
        obtain ⟨placed, rfl, rfl⟩ := (gives_resolveRef_missing found).mp run
        exact ⟨.missingRef found placed, by simp [errorsAt, found]⟩
      | found key target =>
        by_cases entered : key ∈ busy
        · obtain ⟨placed, rfl, rfl⟩ := (gives_resolveRef_circular found entered).mp run
          exact ⟨.circularRef found entered placed,
            by simp [errorsAt, found]⟩
        · obtain ⟨placed, rest⟩ := (gives_resolveRef_fresh found entered).mp run
          obtain ⟨expanded, rfl⟩ := below _ _ _ _ rest
          exact ⟨.ref found entered placed expanded, rfl⟩
    | call c =>
      rw [resolveNode] at run
      obtain ⟨target, found⟩ := exists_target_of_gives_resolveCall run
      cases target with
      | missing code message =>
        obtain ⟨placed, rfl, rfl⟩ := (gives_resolveCall_missing found).mp run
        exact ⟨.missingCall found placed, by simp [errorsAt, found]⟩
      | found key p =>
        by_cases entered : key ∈ busy
        · obtain ⟨placed, rfl, rfl⟩ := (gives_resolveCall_circular found entered).mp run
          exact ⟨.circularCall found entered placed,
            by simp [errorsAt, found]⟩
        · obtain ⟨t, template, placed, rest⟩ := (gives_resolveCall_fresh found entered).mp run
          obtain ⟨expanded, rfl⟩ := below _ _ _ _ rest
          exact ⟨.call found entered template placed expanded, rfl⟩
    | widget w =>
      rw [resolveNode] at run
      obtain ⟨known, looked, placed, rfl, rfl⟩ := gives_resolveWidget.mp run
      exact ⟨.widget looked placed, (errorsOf_widget w).symm⟩
    | slot s =>
      rw [resolveNode] at run
      obtain ⟨rfl, rfl⟩ := Traced.gives_pure.mp run
      exact ⟨.slot, (errorsOf_slot s).symm⟩
    | page p sections | custom c | stray v =>
      rw [resolveNode] at run
      exact absurd run Traced.not_gives_fail
    | sect | frag | cond | loop => exact absurd rfl container

end level

end Env
end ViewCompiler
