import ViewCompiler.Proofs.Resolve.Inlining

/-! Circular references are no false alarms where keys tell targets apart. A resolution is watched:
every node that is left behind is noticed together with the targets that were being expanded around
it, and an error is circular exactly if the node leads back to one of them. -/
namespace ViewCompiler.Env

/-- What is put in the place of a node: a section of the page with a slug, or a partial's
template. -/
inductive Goal where
  | sect (slug : String) (target : Node)
  | template (p : Partial)

/-- The node leads to a goal under its key. -/
inductive Seeks (env : Env) : Node → String → Goal → Prop
  | ref {r name key target} (named : r.pageName = .str name)
      (found : env.refTarget r = .ok (.found key target)) :
      Seeks env (.ref r) key (.sect (slug name) target)
  | call {c key p} (found : env.callTarget c = .ok (.found key p)) :
      Seeks env (.call c) key (.template p)

structure Expansion where
  key : String
  goal : Goal

def busyKeys (stack : List Expansion) : List String := stack.map Expansion.key

/-- A node that is left behind, and what was being expanded there, the innermost first. -/
structure Notice where
  node : Node
  stack : List Expansion

/-- Resolving the tree inside the expansions leaves the nodes noticed behind, in this order. -/
inductive Watches (env : Env) : List Expansion → Node → List Notice → Prop
  | ref {stack r key slug target notices} (seeks : env.Seeks (.ref r) key (.sect slug target))
      (fresh : key ∉ busyKeys stack)
      (inside : Watches env (⟨key, .sect slug target⟩ :: stack) target notices) :
      Watches env stack (.ref r) notices
  | call {stack c key p t notices} (seeks : env.Seeks (.call c) key (.template p))
      (fresh : key ∉ busyKeys stack) (template : filled p c = .ok t)
      (inside : Watches env (⟨key, .template p⟩ :: stack) t notices) :
      Watches env stack (.call c) notices
  | left {stack n} (unresolved : env.isUnresolved n)
      (entered : ∀ key goal, env.Seeks n key goal → key ∈ busyKeys stack) :
      Watches env stack n [⟨n, stack⟩]
  | leaf {stack n} (bare : n.subtrees = []) (resolved : env.isUnresolved n = false) :
      Watches env stack n []
  | container {stack n notes} (container : n.isContainer)
      (length : n.subtrees.length = notes.length)
      (each : ∀ {t notices}, (t, notices) ∈ n.subtrees.zip notes → Watches env stack t notices) :
      Watches env stack n notes.flatten

variable {env : Env} {busy : List String} {stack : List Expansion} {n m : Node}
  {notices : List Notice} {notice : Notice} {key : String} {goal other : Goal}

/-- The node leads back to a goal that was being expanded around it. -/
def Notice.Reenters (env : Env) (notice : Notice) : Prop :=
  ∃ key goal, env.Seeks notice.node key goal ∧ goal ∈ notice.stack.map Expansion.goal

theorem seeks_ref_iff {r : Ref} : (∃ goal, env.Seeks (.ref r) key goal) ↔
    ∃ target, env.refTarget r = .ok (.found key target) := by
  constructor
  · rintro ⟨_, ⟨-, found⟩⟩
    exact ⟨_, found⟩
  · rintro ⟨target, found⟩
    obtain ⟨name, _, _, named, -⟩ := refTarget_eq_found.mp found
    exact ⟨_, .ref named found⟩

theorem seeks_call_iff {c : Call} : (∃ goal, env.Seeks (.call c) key goal) ↔
    ∃ p, env.callTarget c = .ok (.found key p) := by
  constructor
  · rintro ⟨_, _ | found⟩
    exact ⟨_, found⟩
  · rintro ⟨p, found⟩
    exact ⟨_, .call found⟩

/-- A node that is left behind is circular exactly if it leads to a goal. -/
theorem blames_circularRef_iff : env.Blames n .circularRef ↔ ∃ key goal, env.Seeks n key goal := by
  cases n with
  | ref r => simp only [blames_circularRef_ref, seeks_ref_iff]
  | call c => simp only [blames_circularRef_call, seeks_call_iff]
  | page | sect | widget | slot | cond | loop | frag | custom | stray =>
    constructor
    · rintro ⟨⟩
    · rintro ⟨_, _, ⟨⟩⟩

section watching

theorem watches_left (bare : n.subtrees = []) (unresolved : env.isUnresolved n)
    (entered : ∀ key goal, env.Seeks n key goal → key ∈ busyKeys stack) :
    ∃ notices, env.Watches stack n notices ∧
      notices.map Notice.node = n.preorder.filter env.isUnresolved := by
  refine ⟨_, .left unresolved entered, ?_⟩
  simp [Node.preorder_eq, bare, unresolved]

theorem watches_leaf (bare : n.subtrees = []) (resolved : env.isUnresolved n = false) :
    ∃ notices, env.Watches stack n notices ∧
      notices.map Notice.node = n.preorder.filter env.isUnresolved := by
  refine ⟨_, .leaf bare resolved, ?_⟩
  simp [Node.preorder_eq, bare, resolved]

/-- Trees that are watched one by one are noticed one after the other. -/
theorem exists_notes {W : Node → List Notice → Prop} {ns ms : List Node}
    (each : List.Forall₂ (fun t m => ∃ notices, W t notices ∧
      notices.map Notice.node = m.preorder.filter env.isUnresolved) ns ms) :
    ∃ notes, List.Forall₂ W ns notes ∧
      notes.flatten.map Notice.node = (ms.flatMap Node.preorder).filter env.isUnresolved := by
  obtain ⟨notes, watched, noticed⟩ := forall₂_comp.mp each
  refine ⟨notes, watched, ?_⟩
  rw [List.filter_flatMap, List.map_flatten, ← flatMap_eq_of_forall₂ noticed, List.flatMap_def]

/-- Every resolution can be watched, and exactly what it leaves behind is noticed. -/
theorem Resolves.exists_watches (resolved : env.Resolves busy n m) (known : busyKeys stack = busy) :
    ∃ notices, env.Watches stack n notices ∧
      notices.map Notice.node = m.preorder.filter env.isUnresolved := by
  induction resolved generalizing stack with
  | ref found fresh placed _ ih =>
    subst known
    obtain ⟨name, _, _, named, -⟩ := refTarget_eq_found.mp found
    obtain ⟨notices, inside, left⟩ := @ih (⟨_, .sect (slug name) _⟩ :: stack) rfl
    exact ⟨notices, .ref (.ref named found) fresh inside, left⟩
  | circularRef found entered placed =>
    subst known
    refine watches_left rfl rfl ?_
    rintro _ _ ⟨_, again⟩
    rw [found] at again
    cases again
    exact entered
  | missingRef missing placed =>
    refine watches_left rfl rfl ?_
    rintro _ _ ⟨_, found⟩
    rw [missing] at found
    cases found
  | call found fresh template placed _ ih =>
    subst known
    obtain ⟨notices, inside, left⟩ := @ih (⟨_, .template _⟩ :: stack) rfl
    exact ⟨notices, .call (.call found) fresh template inside, left⟩
  | circularCall found entered placed =>
    subst known
    refine watches_left rfl rfl ?_
    rintro _ _ (_ | again)
    rw [found] at again
    cases again
    exact entered
  | missingCall missing placed =>
    refine watches_left rfl rfl ?_
    rintro _ _ (_ | found)
    rw [missing] at found
    cases found
  | @widget _ w registered looked placed =>
    cases registered with
    | true => exact watches_leaf rfl (by simp [isUnresolved, looked])
    | false => exact watches_left rfl (by simp [isUnresolved, looked]) (by rintro _ _ ⟨⟩)
  | slot => exact watches_leaf rfl rfl
  | @container busy n ms container passable length each ih =>
    obtain ⟨notes, watched, noticed⟩ := exists_notes
      (List.forall₂_iff_zip.mpr ⟨length, fun member => ih member known⟩)
    obtain ⟨count, inside⟩ := List.forall₂_iff_zip.mp watched
    refine ⟨notes.flatten, .container container count inside, ?_⟩
    have settled : env.isUnresolved (n.withSubtrees ms) = false := by
      cases n with
      | sect | frag | cond | loop => rfl
      | page | widget | ref | call | slot | custom | stray => cases container
    rw [Node.preorder_withSubtrees container length.symm,
      List.filter_cons_of_neg (by simp [settled]), noticed]

end watching

section apart

/-- Some node leads to the goal under the key; a reference asks for its section by a text. -/
def Stands (env : Env) (key : String) (goal : Goal) : Prop :=
  ∃ n, env.Seeks n key goal ∧ ∀ r, n = .ref r → r.sectionName.isStr

/-- Where keys tell targets apart, one goal at most stands behind a key. -/
theorem Stands.unique (apart : env.KeysApart) (one : env.Stands key goal)
    (two : env.Stands key other) : goal = other := by
  obtain ⟨_, one, first⟩ := one
  obtain ⟨_, two, second⟩ := two
  cases one with
  | @ref r name _ target named found =>
    cases two with
    | @ref r' name' _ target' named' found' =>
      have targets := refTarget_unique apart (first r rfl) (second r' rfl) found found'
      obtain ⟨_, _, _, same, indexed, -, -, known⟩ := refTarget_eq_found.mp found
      obtain ⟨_, _, _, same', indexed', -, -, known'⟩ := refTarget_eq_found.mp found'
      obtain rfl := Value.str.inj (named.symm.trans same)
      obtain rfl := Value.str.inj (named'.symm.trans same')
      have plain := (apart.slugs _ (Entries.mem_keys_of_get? indexed)).1
      have plain' := (apart.slugs _ (Entries.mem_keys_of_get? indexed')).1
      rw [(eq_of_sectionKey_eq plain plain' (known.symm.trans known')).1, targets]
    | call found' => exact absurd found' (refTarget_ne_callTarget apart found)
  | call found =>
    cases two with
    | ref _ found' => exact absurd found (refTarget_ne_callTarget apart found')
    | call found' => rw [callTarget_unique apart found found']

theorem Seeks.stands (named : env.NamesSections n) (seeks : env.Seeks n key goal) :
    env.Stands key goal := by
  refine ⟨n, seeks, ?_⟩
  rintro r rfl
  exact named r (by simp)

/-- What is left behind inside expansions is circular exactly if it leads back to one of them. The
induction is on the watched resolution; every expansion on the stack stands behind its key. -/
theorem Watches.blames_iff_reenters (apart : env.KeysApart) (watches : env.Watches stack n notices)
    (named : env.NamesSections n) (grounded : ∀ e ∈ stack, env.Stands e.key e.goal) :
    ∀ notice ∈ notices, env.Blames notice.node .circularRef ↔ notice.Reenters env := by
  induction watches with
  | @ref stack r key slug target notices seeks fresh inside ih =>
    have leads : env.Leads (Node.ref r).pending key target.pending := by
      obtain ⟨-, found⟩ := seeks
      exact .ref (by simp) found
    exact ih (named.of_leads leads) (List.forall_mem_cons.mpr ⟨seeks.stands named, grounded⟩)
  | @call stack c key p t notices seeks fresh template inside ih =>
    obtain ⟨args, -, walked⟩ := Except.bind_eq_ok.mp template
    have leads : env.Leads (Node.call c).pending key t.pending := by
      obtain _ | found := seeks
      rw [Node.pending_substitute walked]
      exact .call (by simp) found
    exact ih (named.of_leads leads) (List.forall_mem_cons.mpr ⟨seeks.stands named, grounded⟩)
  | @left stack n unresolved entered =>
    intro notice member
    obtain rfl := List.mem_singleton.mp member
    rw [blames_circularRef_iff]
    constructor
    · rintro ⟨key, goal, seeks⟩
      -- What stands behind the busy key is what the node leads to, since keys tell targets apart.
      obtain ⟨e, inside, same⟩ := List.mem_map.mp (entered key goal seeks)
      have goals : e.goal = goal := (same ▸ grounded e inside).unique apart (seeks.stands named)
      exact ⟨key, goal, seeks, List.mem_map.mpr ⟨e, inside, goals⟩⟩
    · rintro ⟨key, goal, seeks, -⟩
      exact ⟨key, goal, seeks⟩
  | leaf => exact fun _ absurd => by cases absurd
  | @container stack n notes container length each ih =>
    intro notice member
    obtain ⟨notices, inside, below⟩ := List.mem_flatten.mp member
    obtain ⟨t, child, each⟩ := exists_left_of_zip length ih inside
    have part : t.pending ⊆ n.pending ++ env.pending := List.Subset.trans
      (Node.pending_subset_of_mem_subtrees child) (List.subset_append_left _ _)
    exact each (named.of_subset part) grounded notice below

end apart

section pages

/-- Resolving a page leaves the nodes noticed behind; nothing is being expanded around its
children. -/
def WatchesPage (env : Env) (page : Node) (notices : List Notice) : Prop :=
  ∃ notes, List.Forall₂ (env.Watches []) page.subtrees notes ∧ notices = notes.flatten

theorem ResolvesPage.exists_watches {page resolved : Node} (run : env.ResolvesPage page resolved) :
    ∃ notices, env.WatchesPage page notices ∧
      notices.map Notice.node = resolved.preorder.filter env.isUnresolved := by
  obtain @⟨p, sections, ms, passable, each⟩ := run
  obtain ⟨notes, watched, noticed⟩ := exists_notes
    (each.imp fun _ _ resolves => resolves.exists_watches (show busyKeys [] = [] from rfl))
  refine ⟨notes.flatten, ⟨notes, watched, rfl⟩, ?_⟩
  rw [noticed, Node.preorder_eq]
  exact (List.filter_cons_of_neg Bool.false_ne_true).symm

theorem WatchesPage.blames_iff_reenters {page : Node} (apart : env.KeysApart)
    (watches : env.WatchesPage page notices) (named : env.NamesSections page) :
    ∀ notice ∈ notices, env.Blames notice.node .circularRef ↔ notice.Reenters env := by
  obtain ⟨notes, each, rfl⟩ := watches
  intro notice member
  obtain ⟨notices, inside, below⟩ := List.mem_flatten.mp member
  obtain ⟨t, child, watched⟩ := exists_left_of_forall₂ each inside
  have part : t.pending ⊆ page.pending ++ env.pending := List.Subset.trans
    (Node.pending_subset_of_mem_subtrees child) (List.subset_append_left _ _)
  exact watched.blames_iff_reenters apart (named.of_subset part) (fun _ absurd => by cases absurd)
    notice below

/-- Every error of a resolution is that of a node which was left behind while some goals were being
expanded around it. Where keys tell targets apart, it is circular exactly if the node leads back to
one of those goals. -/
theorem circularRef_iff_reenters {pages : List Node} {registry : Registry}
    {partials : List (Value × Partial)} {r : Resolution}
    (run : resolve pages registry partials = .ok r) :
    ∃ env notes, Env.of pages registry partials = .ok env ∧
      List.Forall₂ env.WatchesPage pages notes ∧
      notes.flatten.map Notice.node = (r.pages.flatMap Node.preorder).filter env.isUnresolved ∧
      List.Forall₂ (fun notice d => env.Explains notice.node d) notes.flatten r.errors ∧
      (env.KeysApart → (∀ page ∈ pages, env.NamesSections page) →
        List.Forall₂ (fun notice d => d.code = .str Code.circularRef.name ↔ notice.Reenters env)
          notes.flatten r.errors) := by
  obtain ⟨env, made, pairs, errors⟩ := resolve_eq_ok.mp run
  obtain ⟨notes, watched, noticed⟩ :=
    exists_notes (pairs.imp fun _ _ resolves => resolves.exists_watches)
  have answered : ∀ n ∈ r.pages.flatMap Node.preorder, env.Answered n := by
    intro n member
    obtain ⟨page, stored, inside⟩ := List.mem_flatMap.mp member
    obtain ⟨_, -, resolves⟩ := exists_left_of_forall₂ pairs stored
    exact resolves.answered n inside
  have explained : List.Forall₂ (fun notice d => env.Explains notice.node d) notes.flatten
      r.errors := by
    have listed : r.errors = (r.pages.flatMap Node.preorder).flatMap env.errorsAt := by
      rw [errors, List.flatMap_assoc]
      rfl
    rw [← List.forall₂_map_left_iff, noticed, listed]
    exact forall₂_explains answered
  refine ⟨env, notes, made, watched, noticed, explained, fun apart named => ?_⟩
  refine forall₂_imp_of_mem explained fun notice member d explained => ?_
  rw [explained.code_eq_iff]
  obtain ⟨notices, inside, below⟩ := List.mem_flatten.mp member
  obtain ⟨page, given, watches⟩ := exists_left_of_forall₂ watched inside
  exact watches.blames_iff_reenters apart (named page given) notice below

def heroEnv : Env where
  pages := [("home", heroPage)]
  partials := []
  registry := {}

theorem circularRef_iff_reenters_heroPage :
    ∃ r notes, resolve [heroPage] {} [] = .ok r ∧
      r.errors.map (·.code.text) = ["circular-ref", "unknown-ref-target", "unknown-widget-type"] ∧
      List.Forall₂ heroEnv.WatchesPage [heroPage] notes ∧
      List.Forall₂ (fun notice d => d.code = .str Code.circularRef.name ↔ notice.Reenters heroEnv)
        notes.flatten r.errors := by
  have codes : (resolve [heroPage] {} []).toOption.map (·.errors.map (·.code.text)) =
      some ["circular-ref", "unknown-ref-target", "unknown-widget-type"] := by
    decide +kernel
  have made : Env.of [heroPage] {} [] = .ok heroEnv := rfl
  have apart : heroEnv.KeysApart := {
    names := fun _ stored => absurd stored List.not_mem_nil
    slugs := by decide +kernel }
  have formed : heroEnv.WellFormed := ⟨by decide +kernel, by decide +kernel⟩
  have named : ∀ page ∈ [heroPage], heroEnv.NamesSections page := by
    intro page member
    obtain rfl := List.mem_singleton.mp member
    exact namesSections_of_isSoundPage formed (by decide +kernel)
  obtain ⟨r, run, same⟩ := Except.exists_of_toOption_map codes
  obtain ⟨env, notes, indexed, watched, -, -, exact⟩ := circularRef_iff_reenters run
  obtain rfl := Except.ok.inj (indexed.symm.trans made)
  exact ⟨r, notes, run, same, watched, exact apart named⟩

/-- A page with a call of a card that calls another card of the same name. -/
def cardPage : Node :=
  .page { name := .str "Home", type := .str "page", route := .str "/" } (.proper [
    .call { name := .str "a" }])

def outerCard : Partial := { name := .str "Card", template := .call { name := .str "b" } }

def innerCard : Partial := { name := .str "Card", template := .slot { name := .str "body" } }

/-- Two partials of one name are taken for one another: the inner card leads nowhere, and the call
of it is reported as circular. -/
theorem circularRef_of_shared_name :
    (resolve [cardPage] {} [(.str "a", outerCard), (.str "b", innerCard)]).toOption.map
      (·.errors.map (·.code.text)) = some ["circular-ref"] ∧ innerCard.template.pending = [] :=
  ⟨by decide +kernel, rfl⟩

end pages

end ViewCompiler.Env
