import ViewCompiler.Proofs.Resolve.Errors
import ViewCompiler.Proofs.Resolve.Keys

/-! Resolution refines plain inlining, which knows of no expansions in progress and has no result where
they would go on forever. What is not cut off as circular is inlined, and what can be inlined is never
cut off: a key that is met again while it is being expanded leads back to itself. -/
namespace ViewCompiler.Env

/-- The tree becomes the other when every target is put in the place of what leads to it. -/
inductive Inlines (env : Env) : Node → Node → Prop
  | ref {r key target m} (found : env.refTarget r = .ok (.found key target))
      (expanded : Inlines env target m) : Inlines env (.ref r) m
  | missingRef {r code message} (missing : env.refTarget r = .ok (.missing code message)) :
      Inlines env (.ref r) (.ref r)
  | call {c key p t m} (found : env.callTarget c = .ok (.found key p))
      (template : filled p c = .ok t) (expanded : Inlines env t m) : Inlines env (.call c) m
  | missingCall {c code message} (missing : env.callTarget c = .ok (.missing code message)) :
      Inlines env (.call c) (.call c)
  | widget {w} : Inlines env (.widget w) (.widget w)
  | slot {s} : Inlines env (.slot s) (.slot s)
  | container {n ms} (container : n.isContainer) (passable : n.Passable)
      (length : n.subtrees.length = ms.length)
      (each : ∀ {t m}, (t, m) ∈ n.subtrees.zip ms → Inlines env t m) :
      Inlines env n (n.withSubtrees ms)

/-- Nothing in a resolved tree was cut off as circular. -/
def IsUncut (env : Env) (m : Node) : Prop := ∀ t ∈ m.preorder, ¬ env.Blames t .circularRef

variable {env : Env} {busy : List String} {n m t : Node}

/-- No circular reference is reported exactly if nothing was cut off. -/
theorem isUncut_iff (answered : ∀ t ∈ m.preorder, env.Answered t) :
    (∀ d ∈ env.errorsOf m, d.code ≠ .str Code.circularRef.name) ↔ env.IsUncut m :=
  forall_code_ne_iff answered

section inlines

theorem isUncut_leaf (leaf : n.subtrees = []) (clear : ¬ env.Blames n .circularRef) :
    env.IsUncut n := by
  intro t inside
  rw [Node.preorder_eq, leaf] at inside
  obtain rfl := List.mem_singleton.mp inside
  exact clear

theorem isUncut_withSubtrees {ms : List Node} (container : n.isContainer)
    (length : n.subtrees.length = ms.length) :
    env.IsUncut (n.withSubtrees ms) ↔ ∀ m ∈ ms, env.IsUncut m := by
  have clear : ¬ env.Blames (n.withSubtrees ms) .circularRef := by
    intro blames
    cases n with
    | sect | frag | cond | loop => cases blames
    | page | widget | ref | call | slot | custom | stray => cases container
  unfold IsUncut
  rw [Node.forall_mem_preorder, Node.subtrees_withSubtrees container length.symm]
  exact and_iff_right clear

/-- What inlining leaves has no target. -/
theorem Inlines.isUncut (inlined : env.Inlines n m) : env.IsUncut m := by
  induction inlined with
  | ref _ _ ih | call _ _ _ ih => exact ih
  | missingRef missing =>
    refine isUncut_leaf rfl fun blames => ?_
    obtain ⟨_, _, found⟩ := blames_circularRef_ref.mp blames
    rw [missing] at found
    cases found
  | missingCall missing =>
    refine isUncut_leaf rfl fun blames => ?_
    obtain ⟨_, _, found⟩ := blames_circularRef_call.mp blames
    rw [missing] at found
    cases found
  | widget | slot => exact isUncut_leaf rfl fun blames => by cases blames
  | container container _ length _ ih =>
    rw [isUncut_withSubtrees container length]
    intro m member
    obtain ⟨_, -, uncut⟩ := exists_left_of_zip length ih member
    exact uncut

/-- What was resolved without a cut was inlined, whatever was in progress. -/
theorem Resolves.inlines (resolved : env.Resolves busy n m) (uncut : env.IsUncut m) :
    env.Inlines n m := by
  induction resolved with
  | ref found _ _ _ ih => exact .ref found (ih uncut)
  | circularRef found _ _ =>
    exact absurd (blames_circularRef_ref.mpr ⟨_, _, found⟩) (uncut _ (Node.mem_preorder_self _))
  | missingRef missing _ => exact .missingRef missing
  | call found _ template _ _ ih => exact .call found template (ih uncut)
  | circularCall found _ _ =>
    exact absurd (blames_circularRef_call.mpr ⟨_, _, found⟩) (uncut _ (Node.mem_preorder_self _))
  | missingCall missing _ => exact .missingCall missing
  | widget => exact .widget
  | slot => exact .slot
  | container container passable length _ ih =>
    rw [isUncut_withSubtrees container length] at uncut
    refine .container container passable length fun member => ih member (uncut _ ?_)
    exact (List.of_mem_zip member).2

end inlines

theorem Inlines.of_isContainer (container : n.isContainer) (inlined : env.Inlines n m) :
    ∃ ms, List.Forall₂ env.Inlines n.subtrees ms ∧ m = n.withSubtrees ms := by
  cases inlined with
  | container _ _ length each => exact ⟨_, List.forall₂_iff_zip.mpr ⟨length, each⟩, rfl⟩
  | ref | missingRef | call | missingCall | widget | slot => cases container

section ends

theorem Leads.of_mem_subtrees {qs : List Node} {key : String} (container : n.isContainer)
    (leads : env.Leads n.pending key qs) : ∃ t ∈ n.subtrees, env.Leads t.pending key qs := by
  rw [Node.pending_of_isContainer container] at leads
  cases leads with
  | ref member found =>
    obtain ⟨t, inside, below⟩ := List.mem_flatMap.mp member
    exact ⟨t, inside, .ref below found⟩
  | call member found =>
    obtain ⟨t, inside, below⟩ := List.mem_flatMap.mp member
    exact ⟨t, inside, .call below found⟩

theorem Leads.of_ref {r : Ref} {qs : List Node} {key : String} (leads : env.Leads [.ref r] key qs) :
    ∃ target, env.refTarget r = .ok (.found key target) ∧ qs = target.pending := by
  cases leads with
  | ref member found =>
    obtain rfl := Node.ref.inj (List.mem_singleton.mp member)
    exact ⟨_, found, rfl⟩
  | call member _ => cases List.mem_singleton.mp member

theorem Leads.of_call {c : Call} {qs : List Node} {key : String}
    (leads : env.Leads [.call c] key qs) :
    ∃ p, env.callTarget c = .ok (.found key p) ∧ qs = p.template.pending := by
  cases leads with
  | ref member _ => cases List.mem_singleton.mp member
  | call member found =>
    obtain rfl := Node.call.inj (List.mem_singleton.mp member)
    exact ⟨_, found, rfl⟩

/-- Only an expansion that ends has a result. -/
theorem Inlines.ends (inlined : env.Inlines n m) : env.Ends n.pending := by
  induction inlined with
  | ref found _ ih =>
    constructor
    rintro qs ⟨key, leads⟩
    obtain ⟨_, again, rfl⟩ := leads.of_ref
    rw [found] at again
    cases again
    exact ih
  | missingRef missing =>
    constructor
    rintro qs ⟨key, leads⟩
    obtain ⟨_, found, -⟩ := leads.of_ref
    rw [missing] at found
    cases found
  | call found template _ ih =>
    constructor
    rintro qs ⟨key, leads⟩
    obtain ⟨_, again, rfl⟩ := leads.of_call
    rw [found] at again
    cases again
    obtain ⟨args, -, walked⟩ := Except.bind_eq_ok.mp template
    rw [Node.pending_substitute walked] at ih
    exact ih
  | missingCall missing =>
    constructor
    rintro qs ⟨key, leads⟩
    obtain ⟨_, found, -⟩ := leads.of_call
    rw [missing] at found
    cases found
  | widget | slot =>
    constructor
    rintro qs ⟨key, ⟨member, -⟩ | ⟨member, -⟩⟩ <;> cases member
  | container container _ length _ ih =>
    constructor
    rintro qs ⟨key, leads⟩
    obtain ⟨t, inside, below⟩ := leads.of_mem_subtrees container
    obtain ⟨_, -, ends⟩ := exists_right_of_zip length ih inside
    exact ends.inv ⟨key, below⟩

end ends

/-- Plain inlining has one result at most. -/
theorem Inlines.unique {m' : Node} (first : env.Inlines n m) (second : env.Inlines n m') :
    m = m' := by
  induction first generalizing m' with
  | ref found _ ih =>
    cases second with
    | ref again rest =>
      rw [found] at again
      cases again
      exact ih rest
    | missingRef missing =>
      rw [found] at missing
      cases missing
    | container container => cases container
  | missingRef missing =>
    cases second with
    | ref found _ =>
      rw [missing] at found
      cases found
    | missingRef => rfl
    | container container => cases container
  | call found template _ ih =>
    cases second with
    | call again filled rest =>
      rw [found] at again
      cases again
      rw [template] at filled
      cases filled
      exact ih rest
    | missingCall missing =>
      rw [found] at missing
      cases missing
    | container container => cases container
  | missingCall missing =>
    cases second with
    | call found _ _ =>
      rw [missing] at found
      cases found
    | missingCall => rfl
    | container container => cases container
  | widget =>
    cases second with
    | widget => rfl
    | container container => cases container
  | slot =>
    cases second with
    | slot => rfl
    | container container => cases container
  | @container n ms container _ length _ ih =>
    obtain ⟨ms', each, rfl⟩ := second.of_isContainer container
    have same : ms = ms' := eq_of_forall₂ (List.forall₂_iff_zip.mpr ⟨length, ih⟩) each
      fun _ _ _ _ agrees inlined => agrees inlined
    rw [same]

section positions

/-- Nothing that is in progress can be met again. -/
def OutOfReach (env : Env) (busy : List String) (ps : List Node) : Prop :=
  ∀ key ∈ busy, ¬ env.Reaches ps key

variable {other : List String} {ps qs : List Node} {key : String}

theorem OutOfReach.not_mem (away : env.OutOfReach busy ps) (leads : env.Leads ps key qs) :
    key ∉ busy :=
  fun entered => away key entered (.of_leads leads)

theorem OutOfReach.mono (away : env.OutOfReach busy ps) (part : qs ⊆ ps) :
    env.OutOfReach busy qs :=
  fun key entered reaches => away key entered (reaches.mono part)

/-- It stays so below a target, which cannot be met again either. -/
theorem OutOfReach.enter (apart : env.KeysApart) (named : env.NamesSections n)
    (ends : env.Ends n.pending) (leads : env.Leads n.pending key qs)
    (away : env.OutOfReach busy n.pending) : env.OutOfReach (key :: busy) qs := by
  intro k entered reaches
  rcases List.mem_cons.mp entered with rfl | earlier
  · exact Ends.not_reaches apart named leads (ends.inv ⟨k, leads⟩) reaches
  · exact away k earlier (.of_next leads reaches)

/-- Where the expansion ends and nothing in progress is in reach, nothing is cut off, and the result is the
same as in any other such position. The induction is on the rules of resolution. -/
theorem Resolves.of_outOfReach (apart : env.KeysApart) (resolved : env.Resolves busy n m)
    (named : env.NamesSections n) (ends : env.Ends n.pending)
    (away : env.OutOfReach busy n.pending) :
    env.IsUncut m ∧ ∀ other, env.OutOfReach other n.pending → env.Resolves other n m := by
  induction resolved with
  | @ref busy r key target m found fresh placed _ ih =>
    have leads : env.Leads (Node.ref r).pending key target.pending := .ref (by simp) found
    obtain ⟨uncut, same⟩ := ih (named.of_leads leads) (ends.inv ⟨key, leads⟩)
      (away.enter apart named ends leads)
    refine ⟨uncut, fun other away => .ref found (away.not_mem leads) placed ?_⟩
    exact same _ (away.enter apart named ends leads)
  | @call busy c key p t m found fresh template placed _ ih =>
    obtain ⟨args, -, walked⟩ := Except.bind_eq_ok.mp template
    have leads : env.Leads (Node.call c).pending key t.pending := by
      rw [Node.pending_substitute walked]
      exact .call (by simp) found
    obtain ⟨uncut, same⟩ := ih (named.of_leads leads) (ends.inv ⟨key, leads⟩)
      (away.enter apart named ends leads)
    refine ⟨uncut, fun other away => .call found (away.not_mem leads) template placed ?_⟩
    exact same _ (away.enter apart named ends leads)
  | circularRef found entered _ =>
    exact absurd entered (away.not_mem (.ref (by simp) found))
  | circularCall found entered _ =>
    exact absurd entered (away.not_mem (.call (by simp) found))
  | missingRef missing placed =>
    exact ⟨(Inlines.missingRef missing).isUncut, fun _ _ => .missingRef missing placed⟩
  | missingCall missing placed =>
    exact ⟨(Inlines.missingCall missing).isUncut, fun _ _ => .missingCall missing placed⟩
  | widget looked placed => exact ⟨Inlines.widget.isUncut, fun _ _ => .widget looked placed⟩
  | slot => exact ⟨Inlines.slot.isUncut, fun _ _ => .slot⟩
  | @container busy n ms container passable length _ ih =>
    have inside : ∀ t ∈ n.subtrees, t.pending ⊆ n.pending :=
      fun t member => Node.pending_subset_of_mem_subtrees member
    have each : ∀ {t m}, (t, m) ∈ n.subtrees.zip ms → env.IsUncut m ∧
        ∀ other, env.OutOfReach other t.pending → env.Resolves other t m := by
      intro t m member
      have part := inside t (List.of_mem_zip member).1
      exact ih member (named.of_subset (List.Subset.trans part (List.subset_append_left _ _)))
        (ends.mono part) (away.mono part)
    refine ⟨(isUncut_withSubtrees container length).mpr fun m member => ?_, fun other away => ?_⟩
    · obtain ⟨_, -, uncut, -⟩ := exists_left_of_zip length each member
      exact uncut
    · refine .container container passable length fun member => (each member).2 other ?_
      exact away.mono (inside _ (List.of_mem_zip member).1)

end positions

/-- Guarded resolution refines plain inlining: nothing is reported as circular exactly if plain inlining
has a result, and then the resolved tree is that result. It comes out the same, errors included, in every
position where nothing in progress can be met again. -/
theorem resolveChild_refines_inlining {env : Env} {n : Node} (apart : env.KeysApart)
    (named : env.NamesSections n) :
    (env.WellFormed → n.wellFormed → ∃ ds m, (env.resolveChild [] n).Gives ds m) ∧
    ∀ ds m, (env.resolveChild [] n).Gives ds m →
      ((∀ d ∈ ds, d.code ≠ .str Code.circularRef.name) ↔ ∃ m', env.Inlines n m') ∧
      ∀ m', env.Inlines n m' → m' = m ∧
        ∀ busy, env.OutOfReach busy n.pending → (env.resolveChild busy n).Gives ds m := by
  constructor
  · intro formed sound
    obtain ⟨m, resolved, -⟩ := exists_resolves formed sound
    exact ⟨_, m, gives_of_resolves resolved⟩
  · intro ds m run
    obtain ⟨resolved, rfl⟩ := gives_resolveChild.mp run
    have free : env.OutOfReach [] n.pending := fun _ entered => by cases entered
    have position : ∀ m', env.Inlines n m' → env.IsUncut m ∧
        ∀ other, env.OutOfReach other n.pending → env.Resolves other n m :=
      fun m' inlined => resolved.of_outOfReach apart named inlined.ends free
    refine ⟨?_, fun m' inlined => ?_⟩
    · rw [isUncut_iff resolved.answered]
      constructor
      · exact fun uncut => ⟨m, resolved.inlines uncut⟩
      · rintro ⟨m', inlined⟩
        exact (position m' inlined).1
    · obtain ⟨uncut, same⟩ := position m' inlined
      refine ⟨inlined.unique (resolved.inlines uncut), fun busy away => ?_⟩
      exact gives_of_resolves (same busy away)

/-- Two references to one section, side by side in another. -/
def sharedHero : Env where
  pages := [("home", .page { name := .str "Home", type := .str "page", route := .str "/" } (.proper [
    .sect { name := .str "hero" } (.proper [.slot { name := .str "title" }]),
    .sect { name := .str "both" } (.proper [
      .ref { target := .str "Home#hero", pageName := .str "Home", sectionName := .str "hero" },
      .ref { target := .str "Home#hero", pageName := .str "Home", sectionName := .str "hero" }])]))]
  partials := []
  registry := {}

def sharedRef : Ref :=
  { target := .str "Home#both", pageName := .str "Home", sectionName := .str "both" }

theorem resolveChild_refines_inlining_sharedHero :
    ∃ m, (sharedHero.resolveChild [] (.ref sharedRef)).Gives [] m ∧
      sharedHero.Inlines (.ref sharedRef) m := by
  have apart : sharedHero.KeysApart := {
    names := fun _ stored => absurd stored List.not_mem_nil
    slugs := by decide +kernel }
  have formed : sharedHero.WellFormed := ⟨by decide +kernel, by decide +kernel⟩
  have sound : (Node.ref sharedRef).wellFormed := by decide
  obtain ⟨returns, agrees⟩ :=
    resolveChild_refines_inlining apart (namesSections_of_wellFormed formed sound)
  obtain ⟨ds, m, run⟩ := returns formed sound
  have clear : (sharedHero.resolveChild [] (.ref sharedRef)).diagnostics.isEmpty := by
    decide +kernel
  rw [run.2] at clear
  obtain rfl := List.isEmpty_iff.mp clear
  obtain ⟨exact, same⟩ := agrees [] m run
  obtain ⟨m', inlined⟩ := exact.mp (by simp)
  rw [(same m' inlined).1] at inlined
  exact ⟨m, run, inlined⟩

end ViewCompiler.Env
