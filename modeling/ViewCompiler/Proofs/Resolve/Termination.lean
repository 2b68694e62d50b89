import Mathlib.Data.List.Dedup
import ViewCompiler.Proofs.Resolve.Totality

/-! Resolution terminates whatever the cycles between sections and templates are. Nested expansions are
no more than there are sections under their pages and partials, and that many levels of the recursion
give the result, whatever stands in for deeper ones. -/
namespace ViewCompiler.Env

def sectionName? : Node → Option String
  | .sect s _ =>
    match s.name with
    | .str name => some name
    | _ => none
  | _ => none

def sectionPairs (env : Env) : List (String × String) :=
  env.pages.flatMap fun e => (e.2.preorder.filterMap sectionName?).map (e.1, ·)

def partialNames (env : Env) : List String := (Entries.values env.partials).map (·.name.text)

/-- The number of different sections under their pages and of differently named partials. -/
def targetCount (env : Env) : Nat :=
  env.sectionPairs.dedup.length + env.partialNames.dedup.length

/-- All references in the tree, the pages and the templates ask for a section by a text, as parsed ones do. -/
def NamesSections (env : Env) (n : Node) : Prop :=
  ∀ r, .ref r ∈ n.pending ++ env.pending → r.sectionName.isStr

def targetKeys (env : Env) : List String :=
  (env.sectionPairs.dedup.map fun pair => s!"{pair.1}#{pair.2}") ++
    env.partialNames.dedup.map fun name => s!"$partial:{name}"

variable {env : Env} {busy keys : List String} {n t : Node} {key : String}

theorem mem_sectionPairs {r : Ref} (named : r.sectionName.isStr)
    (found : env.refTarget r = .ok (.found key t)) :
    ∃ pair ∈ env.sectionPairs, key = s!"{pair.1}#{pair.2}" := by
  obtain ⟨pageName, page, indexed, inside, same, rfl⟩ := mem_preorder_of_refTarget found
  obtain ⟨name, text⟩ := Value.exists_of_isStr named
  have known : sectionName? t = some name := by
    cases t with
    | sect s children =>
      rw [text] at same
      simp only [sectionName?, Value.same_str.mp same]
    | page | widget | ref | call | slot | cond | loop | frag | custom | stray => cases same
  refine ⟨(slug pageName, name), List.mem_flatMap.mpr ⟨_, Entries.mem_of_get? indexed, ?_⟩, ?_⟩
  · exact List.mem_map.mpr ⟨name, List.mem_filterMap.mpr ⟨t, inside, known⟩, rfl⟩
  · simp only [text, Value.text]

theorem Leads.key_mem_targetKeys {ps qs : List Node}
    (named : ∀ r, .ref r ∈ ps → r.sectionName.isStr) (leads : env.Leads ps key qs) :
    key ∈ env.targetKeys := by
  cases leads with
  | @ref r _ _ member found =>
    obtain ⟨pair, known, rfl⟩ := mem_sectionPairs (named r member) found
    exact List.mem_append_left _ (List.mem_map.mpr ⟨pair, List.mem_dedup.mpr known, rfl⟩)
  | call _ found =>
    obtain ⟨name, -, indexed, rfl⟩ := callTarget_eq_found.mp found
    have stored := Entries.mem_values_of_get? indexed
    exact List.mem_append_right _ (List.mem_map.mpr
      ⟨_, List.mem_dedup.mpr (List.mem_map.mpr ⟨_, stored, rfl⟩), rfl⟩)

theorem NamesSections.of_subset (named : env.NamesSections n)
    (known : t.pending ⊆ n.pending ++ env.pending) : env.NamesSections t := by
  intro r member
  apply named r
  rcases List.mem_append.mp member with inside | listed
  · exact known inside
  · exact List.mem_append_right _ listed

theorem NamesSections.of_leads (named : env.NamesSections n)
    (leads : env.Leads n.pending key t.pending) : env.NamesSections t :=
  named.of_subset (List.Subset.trans leads.subset (List.subset_append_right _ _))

theorem Nests.subset_targetKeys (named : env.NamesSections n) (nests : env.Nests busy n keys) :
    keys ⊆ env.targetKeys := by
  induction nests with
  | done => exact List.nil_subset _
  | enter enters _ ih =>
    refine List.cons_subset.mpr ⟨?_, ih (named.of_leads enters.leads)⟩
    exact enters.leads.key_mem_targetKeys fun r member => named r (List.mem_append_left _ member)

/-- Nested expansions are no more than there are targets. -/
theorem Nests.length_le_targetCount (named : env.NamesSections n) (nests : env.Nests busy n keys) :
    keys.length ≤ env.targetCount := by
  have bound := nests.length_le (nests.subset_targetKeys named)
  simp only [targetKeys, List.length_append, List.length_map] at bound
  exact bound

section sound

variable {r : Ref}

theorem isStr_of_mem_pending (sound : n.wellFormed) (member : .ref r ∈ n.pending) :
    r.sectionName.isStr := by
  have here := Node.wellFormed_of_mem_preorder sound (Node.mem_pending.mp member).1
  exact (Node.isSound_ref.mp (Node.wellFormed_iff.mp here).1).2.2

theorem isStr_of_mem_pending_page (sound : n.isSoundPage) (member : .ref r ∈ n.pending) :
    r.sectionName.isStr := by
  obtain ⟨_, ns, rfl, -, each⟩ := Node.exists_of_isSoundPage sound
  rw [Node.pending_eq] at member
  obtain ⟨m, child, below⟩ := List.mem_flatMap.mp member
  exact isStr_of_mem_pending (each m child) below

theorem isStr_of_mem_env_pending (formed : env.WellFormed) (member : .ref r ∈ env.pending) :
    r.sectionName.isStr := by
  obtain ⟨m, stored, inside⟩ := List.mem_flatMap.mp member
  rcases List.mem_append.mp stored with page | template
  · exact isStr_of_mem_pending_page (formed.pages m page) inside
  · obtain ⟨p, indexed, rfl⟩ := List.mem_map.mp template
    exact isStr_of_mem_pending (Partial.isSound_iff.mp (formed.partials p indexed)).2.1 inside

theorem namesSections_of_wellFormed (formed : env.WellFormed) (sound : n.wellFormed) :
    env.NamesSections n := fun _ member =>
  (List.mem_append.mp member).elim (isStr_of_mem_pending sound) (isStr_of_mem_env_pending formed)

theorem namesSections_of_isSoundPage (formed : env.WellFormed) (sound : n.isSoundPage) :
    env.NamesSections n := fun _ member =>
  (List.mem_append.mp member).elim (isStr_of_mem_pending_page sound) (isStr_of_mem_env_pending formed)

end sound

/-- Resolution is a recursion that reaches its result after finitely many levels, on every input. No path
of nested expansions enters a key twice, so there are no more levels than targets. -/
theorem resolution_terminates (env : Env) (busy : List String) (n : Node) :
    env.resolveChild busy n = resolveNode env env.resolveChild busy n ∧
    (∃ k, ∀ base, (resolveNode env)^[k] base busy n = env.resolveChild busy n) ∧
    (env.WellFormed → n.wellFormed → ∃ m, (env.resolveChild busy n).result = .ok m) ∧
    (∀ keys, env.Nests busy n keys → keys.Nodup ∧ ∀ key ∈ keys, key ∉ busy) ∧
    (env.NamesSections n →
      (∀ keys, env.Nests busy n keys → keys.length ≤ env.targetCount) ∧
      ∀ base, (resolveNode env)^[env.targetCount + 1] base busy n = env.resolveChild busy n) := by
  refine ⟨resolveChild_eq, ⟨env.budget n + 1, fun base => ?_⟩, ?_, fun _ nests => nests.nodup, ?_⟩
  · apply iterate_eq_resolveChild
    intro keys nests
    exact Nat.lt_succ_of_le nests.length_le_budget
  · intro formed sound
    obtain ⟨m, resolved, -⟩ := exists_resolves formed sound
    exact ⟨m, (gives_of_resolves resolved).1⟩
  · intro named
    have bound : ∀ keys, env.Nests busy n keys → keys.length ≤ env.targetCount :=
      fun _ nests => nests.length_le_targetCount named
    refine ⟨bound, fun base => ?_⟩
    apply iterate_eq_resolveChild
    intro keys nests
    exact Nat.lt_succ_of_le (bound keys nests)

/-- A hero section that calls a partial whose template refers back to the section. -/
def heroCycle : Env where
  pages := [("home", .page { name := .str "Home", type := .str "page", route := .str "/" } (.proper [
    .sect { name := .str "hero" } (.proper [.call { name := .str "banner" }])]))]
  partials := [("banner", { name := .str "banner", template := .ref {
    target := .str "Home#hero", pageName := .str "Home", sectionName := .str "hero" } })]
  registry := {}

theorem resolution_terminates_heroCycle :
    heroCycle.targetCount = 2 ∧
    (∃ m, (heroCycle.resolveChild [] (.call { name := .str "banner" })).result = .ok m) ∧
    ∀ keys, heroCycle.Nests [] (.call { name := .str "banner" }) keys → keys.length ≤ 2 := by
  have formed : heroCycle.WellFormed := ⟨by decide +kernel, by decide +kernel⟩
  have sound : (Node.call { name := .str "banner" }).wellFormed := by decide
  have named := namesSections_of_wellFormed formed sound
  have count : heroCycle.targetCount = 2 := by decide +kernel
  obtain ⟨-, -, returns, -, bounded⟩ :=
    resolution_terminates heroCycle [] (.call { name := .str "banner" })
  refine ⟨count, returns formed sound, fun keys nests => ?_⟩
  rw [← count]
  exact (bounded named).1 keys nests

end ViewCompiler.Env
