import Mathlib.Data.List.Perm.Subperm
import Mathlib.Logic.Function.Iterate
import ViewCompiler.Proofs.Node.Pending
import ViewCompiler.Proofs.Resolve.Rules
import ViewCompiler.Proofs.Resolve.Targets
import ViewCompiler.Proofs.Template.Filling

/-! How deep expansions nest. On every path of nested expansions no key is entered twice, and only
finitely many keys can be entered, so the budget of a resolution is never used up: the resolver is the
plain recursion that its rules describe. -/
namespace ViewCompiler.Env

/-- Under the key, some of the references and calls lead to a target that has these. -/
inductive Leads (env : Env) (ps : List Node) : String → List Node → Prop
  | ref {r key target} (member : .ref r ∈ ps)
      (found : env.refTarget r = .ok (.found key target)) : Leads env ps key target.pending
  | call {c key p} (member : .call c ∈ ps)
      (found : env.callTarget c = .ok (.found key p)) : Leads env ps key p.template.pending

/-- From the tree, a target that is not being expanded is entered under a key. -/
inductive Enters (env : Env) (busy : List String) (n : Node) : String → Node → Prop
  | ref {r key target} (member : .ref r ∈ n.pending)
      (found : env.refTarget r = .ok (.found key target)) (fresh : key ∉ busy) :
      Enters env busy n key target
  | call {c key p t} (member : .call c ∈ n.pending)
      (found : env.callTarget c = .ok (.found key p)) (fresh : key ∉ busy)
      (template : filled p c = .ok t) : Enters env busy n key t

/-- Expansions under the keys nest in this order, the outermost first. -/
inductive Nests (env : Env) : List String → Node → List String → Prop
  | done {busy n} : Nests env busy n []
  | enter {busy n key t keys} (enters : env.Enters busy n key t)
      (nests : Nests env (key :: busy) t keys) : Nests env busy n (key :: keys)

variable {env : Env} {busy keys : List String} {n t : Node} {ps qs : List Node} {key : String}

theorem Enters.fresh (enters : env.Enters busy n key t) : key ∉ busy := by
  cases enters <;> assumption

/-- A filled template leads where the template leads. -/
theorem Enters.leads (enters : env.Enters busy n key t) : env.Leads n.pending key t.pending := by
  cases enters with
  | ref member found => exact .ref member found
  | call member found _ template =>
    obtain ⟨args, -, walked⟩ := Except.bind_eq_ok.mp template
    rw [Node.pending_substitute walked]
    exact .call member found

theorem Enters.of_mem_subtrees {m : Node} (member : m ∈ n.subtrees)
    (enters : env.Enters busy m key t) : env.Enters busy n key t := by
  have inside : m.pending ⊆ n.pending := Node.pending_subset_of_mem_subtrees member
  cases enters with
  | ref member found fresh => exact .ref (inside member) found fresh
  | call member found fresh template => exact .call (inside member) found fresh template

theorem Nests.of_mem_subtrees {m : Node} (member : m ∈ n.subtrees)
    (nests : env.Nests busy m keys) : env.Nests busy n keys := by
  cases nests with
  | done => exact .done
  | enter enters nests => exact .enter (enters.of_mem_subtrees member) nests

/-- No key is entered while it is being expanded, nor twice on a path. -/
theorem Nests.nodup (nests : env.Nests busy n keys) : keys.Nodup ∧ ∀ key ∈ keys, key ∉ busy := by
  induction nests with
  | done => exact ⟨.nil, by simp⟩
  | @enter busy n key t keys enters _ ih =>
    obtain ⟨nodup, apart⟩ := ih
    have fresh : key ∉ keys := fun member => apart key member List.mem_cons_self
    refine ⟨List.nodup_cons.mpr ⟨fresh, nodup⟩, ?_⟩
    intro other member
    rcases List.mem_cons.mp member with rfl | later
    · exact enters.fresh
    · exact fun entered => apart other later (List.mem_cons_of_mem _ entered)

section budget

variable {expand other : Expander}

theorem resolveRef_congr {r : Ref}
    (agree : ∀ key t, env.Enters busy (.ref r) key t →
      expand (key :: busy) t = other (key :: busy) t) :
    resolveRef env expand busy r = resolveRef env other busy r := by
  unfold resolveRef
  cases found : env.refTarget r with
  | error fault => rfl
  | ok answer =>
    cases answer with
    | missing code message => rfl
    | found key target =>
      simp only [Traced.ofExcept_ok_bind]
      by_cases entered : key ∈ busy
      · simp only [if_pos entered]
      · simp only [if_neg entered, agree key target (.ref (by simp) found entered)]

theorem resolveCall_congr {c : Call}
    (agree : ∀ key t, env.Enters busy (.call c) key t →
      expand (key :: busy) t = other (key :: busy) t) :
    resolveCall env expand busy c = resolveCall env other busy c := by
  unfold resolveCall
  cases found : env.callTarget c with
  | error fault => rfl
  | ok answer =>
    cases answer with
    | missing code message => rfl
    | found key p =>
      simp only [Traced.ofExcept_ok_bind]
      by_cases entered : key ∈ busy
      · simp only [if_pos entered]
      · simp only [if_neg entered]
        cases template : p.bindings c.args >>= p.template.substitute with
        | error fault => rfl
        | ok t =>
          simp only [Traced.ofExcept_ok_bind, agree key t (.call (by simp) found entered template)]

theorem resolveNodes_congr {ns : List Node}
    (inside : ∀ m ∈ ns, resolveNode env expand busy m = resolveNode env other busy m) :
    resolveNodes env expand busy ns = resolveNodes env other busy ns := by
  induction ns with
  | nil => rfl
  | cons n ns ih =>
    simp only [resolveNodes, inside n (by simp), ih fun m member => inside m (by simp [member])]

theorem resolveChildren_congr {children : Children}
    (inside : ∀ m ∈ children.nodes, resolveNode env expand busy m = resolveNode env other busy m) :
    resolveChildren env expand busy children = resolveChildren env other busy children := by
  cases children with
  | proper ns =>
    have same : resolveNodes env expand busy ns = resolveNodes env other busy ns :=
      resolveNodes_congr inside
    simp only [resolveChildren, same]
  | stray v => rfl

theorem resolveOtherwise_congr {children : Children}
    (inside : ∀ m ∈ children.nodes, resolveNode env expand busy m = resolveNode env other busy m) :
    resolveOtherwise env expand busy children = resolveOtherwise env other busy children := by
  cases children with
  | proper ns =>
    have same : resolveNodes env expand busy ns = resolveNodes env other busy ns :=
      resolveNodes_congr inside
    simp only [resolveOtherwise, same]
  | stray v => cases v <;> rfl

/-- One level asks the expander for nothing but the targets that are entered from the tree. -/
theorem resolveNode_congr
    (agree : ∀ key t, env.Enters busy n key t → expand (key :: busy) t = other (key :: busy) t) :
    resolveNode env expand busy n = resolveNode env other busy n := by
  induction n using Node.induction with
  | _ n ih =>
  have inside : ∀ m ∈ n.subtrees, resolveNode env expand busy m = resolveNode env other busy m :=
    fun m member => ih m member fun key t enters => agree key t (enters.of_mem_subtrees member)
  cases n with
  | ref r => exact resolveRef_congr agree
  | call c => exact resolveCall_congr agree
  | sect s children | frag s children =>
    simp only [resolveNode, resolveChildren_congr inside]
  | loop l template => simp only [resolveNode, inside template (List.mem_singleton.mpr rfl)]
  | cond c body otherwise =>
    have first := resolveChildren_congr fun m member => inside m (List.mem_append_left _ member)
    have second := resolveOtherwise_congr fun m member => inside m (List.mem_append_right _ member)
    simp only [resolveNode, first, second]
  | page | widget | slot | custom | stray => rfl

/-- Levels of the recursion that no path uses up give the same result, whatever stands in for deeper
ones. -/
theorem iterate_eq_iterate {j k : Nat} (base deeper : Expander)
    (first : ∀ keys, env.Nests busy n keys → keys.length < j)
    (second : ∀ keys, env.Nests busy n keys → keys.length < k) :
    (resolveNode env)^[j] base busy n = (resolveNode env)^[k] deeper busy n := by
  induction j generalizing k busy n with
  | zero => exact absurd (first [] .done) (Nat.not_lt_zero _)
  | succ j ih =>
    cases k with
    | zero => exact absurd (second [] .done) (Nat.not_lt_zero _)
    | succ k =>
      rw [Function.iterate_succ_apply', Function.iterate_succ_apply']
      apply resolveNode_congr
      intro key t enters
      apply ih
      · intro keys nests
        exact Nat.lt_of_succ_lt_succ (first _ (.enter enters nests))
      · intro keys nests
        exact Nat.lt_of_succ_lt_succ (second _ (.enter enters nests))

theorem resolveWithin_eq_iterate (k : Nat) :
    resolveWithin env k = (resolveNode env)^[k] (resolveWithin env 0) := by
  induction k with
  | zero => rfl
  | succ k ih =>
    rw [Function.iterate_succ_apply', ← ih]
    rfl

/-- A path is no longer than a list in which all keys are that it can enter. -/
theorem Nests.length_le {all : List String} (nests : env.Nests busy n keys)
    (known : keys ⊆ all) : keys.length ≤ all.length :=
  (nests.nodup.1.subperm known).length_le

end budget

section keys

/-- The key under which the target of a reference or of any partial is entered. -/
def refKey? : Node → Option String
  | .ref r =>
    match r.pageName with
    | .str name => some s!"{slug name}#{r.sectionName.text}"
    | _ => none
  | _ => none

def pending (env : Env) : List Node :=
  (Entries.values env.pages ++ (Entries.values env.partials).map (·.template)).flatMap Node.pending

def partialKeys (env : Env) : List String :=
  (Entries.values env.partials).map fun p => s!"$partial:{p.name.text}"

theorem Leads.subset (leads : env.Leads ps key qs) : qs ⊆ env.pending := by
  intro m member
  cases leads with
  | ref _ found =>
    obtain ⟨_, page, indexed, inside, -⟩ := mem_preorder_of_refTarget found
    have stored := Entries.mem_values_of_get? indexed
    exact List.mem_flatMap.mpr
      ⟨page, List.mem_append_left _ stored, Node.pending_subset inside member⟩
  | call _ found =>
    obtain ⟨_, -, indexed, -⟩ := callTarget_eq_found.mp found
    have stored := Entries.mem_values_of_get? indexed
    exact List.mem_flatMap.mpr
      ⟨_, List.mem_append_right _ (List.mem_map_of_mem (f := Partial.template) stored), member⟩

theorem Leads.key_mem (leads : env.Leads ps key qs) :
    key ∈ ps.filterMap refKey? ++ env.partialKeys := by
  cases leads with
  | @ref r _ _ member found =>
    obtain ⟨name, _, _, named, -, -, -, rfl⟩ := refTarget_eq_found.mp found
    exact List.mem_append_left _ (List.mem_filterMap.mpr ⟨_, member, by simp [refKey?, named]⟩)
  | call _ found =>
    obtain ⟨name, -, indexed, rfl⟩ := callTarget_eq_found.mp found
    have stored := Entries.mem_values_of_get? indexed
    exact List.mem_append_right _ (List.mem_map.mpr ⟨_, stored, rfl⟩)

/-- All keys on a path are those of the references in the tree, in the pages and in the templates, and
those of the partials. -/
theorem Nests.subset {known : List Node} (nests : env.Nests busy n keys) (root : n.pending ⊆ known)
    (all : env.pending ⊆ known) : keys ⊆ known.filterMap refKey? ++ env.partialKeys := by
  induction nests with
  | done => exact List.nil_subset _
  | enter enters _ ih =>
    refine List.cons_subset.mpr ⟨?_, ih (List.Subset.trans enters.leads.subset all)⟩
    rcases List.mem_append.mp enters.leads.key_mem with named | stored
    · exact List.mem_append_left _ (List.filterMap_subset _ root named)
    · exact List.mem_append_right _ stored

end keys

section count

theorem nodeRefCount_append (ns ms : List Node) :
    Node.nodeRefCount (ns ++ ms) = Node.nodeRefCount ns + Node.nodeRefCount ms := by
  induction ns with
  | nil => simp [Node.nodeRefCount]
  | cons n ns ih =>
    simp only [List.cons_append, Node.nodeRefCount, ih]
    omega

theorem childRefCount_eq (children : Children) :
    Node.childRefCount children = Node.nodeRefCount children.nodes := by
  cases children <;> rfl

theorem nodeRefCount_subtrees_le (n : Node) : Node.nodeRefCount n.subtrees ≤ n.refCount := by
  cases n with
  | page | sect | frag => simp [Node.subtrees, Node.refCount, childRefCount_eq]
  | cond => simp [Node.subtrees, Node.refCount, childRefCount_eq, nodeRefCount_append]
  | loop => simp [Node.subtrees, Node.refCount, Node.nodeRefCount]
  | widget | ref | call | slot | custom | stray => simp [Node.subtrees, Node.nodeRefCount]

theorem length_refKeys_nodes_le {ns : List Node}
    (each : ∀ n ∈ ns, (n.pending.filterMap refKey?).length ≤ n.refCount) :
    ((ns.flatMap Node.pending).filterMap refKey?).length ≤ Node.nodeRefCount ns := by
  induction ns with
  | nil => simp
  | cons n ns ih =>
    have here := each n (by simp)
    have rest := ih fun m member => each m (by simp [member])
    simp only [List.flatMap_cons, List.filterMap_append, List.length_append, Node.nodeRefCount]
    omega

/-- Only a reference gives a key, so a tree gives no more keys than it has references. -/
theorem length_refKeys_le (n : Node) : (n.pending.filterMap refKey?).length ≤ n.refCount := by
  induction n using Node.induction with
  | _ n ih =>
  have below := Nat.le_trans (length_refKeys_nodes_le ih) (nodeRefCount_subtrees_le n)
  cases n with
  | ref r => exact Nat.le_trans (List.length_filterMap_le _ _) (by simp [Node.refCount])
  | call c => simp [refKey?, Node.refCount]
  | page | sect | widget | slot | cond | loop | frag | custom | stray =>
    rw [Node.pending_eq]
    exact below

theorem length_keys_le_budget (n : Node) :
    ((n.pending ++ env.pending).filterMap refKey? ++ env.partialKeys).length ≤ env.budget n := by
  have own := length_refKeys_le n
  have rest : (env.pending.filterMap refKey?).length ≤ _ :=
    length_refKeys_nodes_le fun m _ => length_refKeys_le m
  rw [nodeRefCount_append] at rest
  simp only [List.filterMap_append, List.length_append, partialKeys, List.length_map, budget,
    Entries.values] at *
  omega

/-- The budget of a resolution outlasts every path of nested expansions. -/
theorem Nests.length_le_budget (nests : env.Nests busy n keys) : keys.length ≤ env.budget n := by
  have known := nests.subset (List.subset_append_left _ _) (List.subset_append_right _ _)
  exact Nat.le_trans (nests.length_le known) (length_keys_le_budget n)

/-- As many levels as no path uses up are enough for the resolver's result. -/
theorem iterate_eq_resolveChild {k : Nat} (base : Expander)
    (short : ∀ keys, env.Nests busy n keys → keys.length < k) :
    (resolveNode env)^[k] base busy n = env.resolveChild busy n := by
  rw [resolveChild, resolveWithin_eq_iterate]
  apply iterate_eq_iterate base _ short
  intro keys nests
  exact Nat.lt_succ_of_le nests.length_le_budget

/-- The resolver is the recursion that its one level describes, without any budget. -/
theorem resolveChild_eq : env.resolveChild busy n = resolveNode env env.resolveChild busy n := by
  show resolveNode env (resolveWithin env (env.budget n)) busy n = _
  apply resolveNode_congr
  intro key t enters
  rw [resolveWithin_eq_iterate]
  apply iterate_eq_resolveChild
  intro keys nests
  exact Nat.lt_of_succ_le (Nests.enter enters nests).length_le_budget

end count

end ViewCompiler.Env
