import ViewCompiler.Proofs.Diagnostic
import ViewCompiler.Proofs.Resolve.Totality

/-! The errors of a resolution are explained by the resolved pages alone: in document order, one for
every reference and call that is left and one for every widget of an unregistered type, with the code
that the look-ups force. -/
namespace ViewCompiler

namespace Env

variable {env : Env} {busy : List String} {n m : Node} {ds : List Diagnostic}

/-- A reference or a call is left, or the type of a widget is unknown. -/
def isUnresolved (env : Env) : Node → Bool
  | .ref _ | .call _ => true
  | .widget w =>
    match env.registry.has w.type with
    | .ok known => ! known
    | .error _ => false
  | .page _ _ | .sect _ _ | .slot _ | .cond _ _ _ | .loop _ _ | .frag _ _ | .custom _
  | .stray _ => false

/-- The code that the look-ups force on a node which is left in a resolved tree. -/
inductive Blames (env : Env) : Node → Code → Prop
  | unknownType {w} (unregistered : env.registry.has w.type = .ok false) :
      Blames env (.widget w) .unknownWidgetType
  | unknownPage {r name} (named : r.pageName = .str name)
      (absent : Entries.get? env.pages (slug name) = none) : Blames env (.ref r) .unknownRefTarget
  | unknownSection {r name page sections} (named : r.pageName = .str name)
      (indexed : Entries.get? env.pages (slug name) = some page)
      (parts : page.sections = .ok sections)
      (absent : Node.findInChildren r.sectionName sections = .ok none) :
      Blames env (.ref r) .unknownRefSection
  | circularRef {r name page sections target} (named : r.pageName = .str name)
      (indexed : Entries.get? env.pages (slug name) = some page)
      (parts : page.sections = .ok sections)
      (found : Node.findInChildren r.sectionName sections = .ok (some target)) :
      Blames env (.ref r) .circularRef
  | unknownPartial {c k} (named : c.name.key = .ok k) (absent : env.partialAt k = none) :
      Blames env (.call c) .unknownPartial
  | circularCall {c k p} (named : c.name.key = .ok k) (found : env.partialAt k = some p) :
      Blames env (.call c) .circularRef

/-- The diagnostic is the error that the node calls for: at its place, with the one code that the
look-ups allow. -/
structure Explains (env : Env) (n : Node) (d : Diagnostic) : Prop where
  severity : d.severity = .str Severity.error.name
  blamed : ∃ code, env.Blames n code
  forced : ∀ code, env.Blames n code → d.code = .str code.name
  placed : ∃ h place, n.head? = some h ∧ h.place = .ok place ∧
    d.file = place.file ∧ d.line = place.line ∧ d.col = place.col

theorem Blames.unique {code other : Code} (first : env.Blames n code) (second : env.Blames n other) :
    code = other := by
  cases first <;> cases second <;> first | rfl | simp_all

theorem Blames.explains {code : Code} {h : Head} {message : String} (blamed : env.Blames n code)
    (head : n.head? = some h) (placed : h.Placed) :
    ∃ d, h.errors code message = [d] ∧ env.Explains n d := by
  obtain ⟨place, placed⟩ := placed
  refine ⟨Diagnostic.make .error code message place, by simp only [Head.errors, placed], ?_⟩
  exact {
    severity := rfl
    blamed := ⟨code, blamed⟩
    forced := fun other blames => by rw [blamed.unique blames]; rfl
    placed := ⟨h, place, head, placed, rfl, rfl, rfl⟩ }

/-- All look-ups that concern the node have an answer, and an error has a place to point to. -/
def Answered (env : Env) : Node → Prop
  | .ref r => r.toHead.Placed ∧ ∃ answer, env.refTarget r = .ok answer
  | .call c => c.toHead.Placed ∧ ∃ answer, env.callTarget c = .ok answer
  | .widget w => ∃ known, env.registry.has w.type = .ok known ∧ (known = false → w.toHead.Placed)
  | .page _ _ | .sect _ _ | .slot _ | .cond _ _ _ | .loop _ _ | .frag _ _ | .custom _
  | .stray _ => True

/-- Nothing is left in a resolved tree without an answer. -/
theorem Resolves.answered (resolved : env.Resolves busy n m) :
    ∀ t ∈ m.preorder, env.Answered t := by
  induction resolved with
  | ref _ _ _ _ ih | call _ _ _ _ _ ih => exact ih
  | circularRef found _ placed | missingRef found placed | circularCall found _ placed
  | missingCall found placed =>
    intro t member
    obtain rfl := List.mem_singleton.mp member
    exact ⟨placed, _, found⟩
  | widget looked placed =>
    intro t member
    obtain rfl := List.mem_singleton.mp member
    exact ⟨_, looked, placed⟩
  | slot =>
    intro t member
    obtain rfl := List.mem_singleton.mp member
    trivial
  | @container busy n ms container _ length each ih =>
    rw [Node.preorder_withSubtrees container length.symm]
    intro t member
    rcases List.mem_cons.mp member with rfl | below
    · cases n with
      | sect | frag | cond | loop => trivial
      | page | widget | ref | call | slot | custom | stray => cases container
    · obtain ⟨u, inside, deeper⟩ := List.mem_flatMap.mp below
      obtain ⟨_, -, answered⟩ := exists_left_of_zip length ih inside
      exact answered t deeper

theorem explains_of_answered (answered : env.Answered n) (unresolved : env.isUnresolved n) :
    ∃ d, env.errorsAt n = [d] ∧ env.Explains n d := by
  cases n with
  | ref r =>
    obtain ⟨placed, answer, found⟩ := answered
    obtain ⟨name, named, ⟨absent, rfl⟩ | ⟨page, sections, result, indexed, parts, search, rfl⟩⟩ :=
      refTarget_eq_ok.mp found
    · simp only [errorsAt, found]
      exact (Blames.unknownPage named absent).explains rfl placed
    · cases result with
      | none =>
        simp only [errorsAt, found]
        exact (Blames.unknownSection named indexed parts search).explains rfl placed
      | some target =>
        simp only [errorsAt, found]
        exact (Blames.circularRef named indexed parts search).explains rfl placed
  | call c =>
    obtain ⟨placed, answer, found⟩ := answered
    obtain ⟨k, named, ⟨absent, rfl⟩ | ⟨p, indexed, rfl⟩⟩ := callTarget_eq_ok.mp found
    · simp only [errorsAt, found]
      exact (Blames.unknownPartial named absent).explains rfl placed
    · simp only [errorsAt, found]
      exact (Blames.circularCall named indexed).explains rfl placed
  | widget w =>
    obtain ⟨known, looked, placed⟩ := answered
    simp only [isUnresolved, looked, Bool.not_eq_true'] at unresolved
    subst unresolved
    simp only [errorsAt, looked]
    exact (Blames.unknownType looked).explains rfl (placed rfl)
  | page | sect | slot | cond | loop | frag | custom | stray => cases unresolved

theorem errorsAt_of_resolved (answered : env.Answered n) (resolved : env.isUnresolved n = false) :
    env.errorsAt n = [] := by
  cases n with
  | ref | call => cases resolved
  | widget w =>
    obtain ⟨known, looked, -⟩ := answered
    simp only [isUnresolved, looked, Bool.not_eq_false'] at resolved
    subst resolved
    simp only [errorsAt, looked]
  | page | sect | slot | cond | loop | frag | custom | stray => rfl

/-- The errors of answered nodes are those of the unresolved ones, one for each. -/
theorem forall₂_explains {ns : List Node} (answered : ∀ n ∈ ns, env.Answered n) :
    List.Forall₂ env.Explains (ns.filter env.isUnresolved) (ns.flatMap env.errorsAt) := by
  induction ns with
  | nil => exact .nil
  | cons n ns ih =>
    have rest := ih fun m member => answered m (by simp [member])
    have here := answered n (by simp)
    rw [List.flatMap_cons]
    by_cases unresolved : env.isUnresolved n
    · obtain ⟨d, single, explained⟩ := explains_of_answered here unresolved
      rw [List.filter_cons_of_pos unresolved, single]
      exact .cons explained rest
    · rw [List.filter_cons_of_neg unresolved,
        errorsAt_of_resolved here (Bool.eq_false_iff.mpr unresolved)]
      exact rest

section codes

variable {code : Code}

theorem blames_circularRef_ref {r : Ref} :
    env.Blames (.ref r) .circularRef ↔ ∃ key t, env.refTarget r = .ok (.found key t) := by
  constructor
  · intro blames
    cases blames with
    | circularRef named indexed parts found =>
      exact ⟨_, _, refTarget_eq_found.mpr ⟨_, _, _, named, indexed, parts, found, rfl⟩⟩
  · rintro ⟨key, t, found⟩
    obtain ⟨_, _, _, named, indexed, parts, found, -⟩ := refTarget_eq_found.mp found
    exact .circularRef named indexed parts found

theorem blames_circularRef_call {c : Call} :
    env.Blames (.call c) .circularRef ↔ ∃ key p, env.callTarget c = .ok (.found key p) := by
  constructor
  · intro blames
    cases blames with
    | circularCall named found =>
      exact ⟨_, _, callTarget_eq_ok.mpr ⟨_, named, .inr ⟨_, found, rfl⟩⟩⟩
  · rintro ⟨key, p, found⟩
    obtain ⟨_, named, ⟨-, absurd⟩ | ⟨_, indexed, -⟩⟩ := callTarget_eq_ok.mp found
    · cases absurd
    · exact .circularCall named indexed

theorem Blames.isUnresolved (blamed : env.Blames n code) : env.isUnresolved n := by
  cases blamed with
  | unknownType unregistered => simp only [Env.isUnresolved, unregistered, Bool.not_false]
  | unknownPage | unknownSection | circularRef | unknownPartial | circularCall => rfl

/-- An error has the code that its node is blamed for, and no other. -/
theorem Explains.code_eq_iff {d : Diagnostic} (explained : env.Explains n d) :
    d.code = .str code.name ↔ env.Blames n code := by
  refine ⟨fun known => ?_, explained.forced code⟩
  obtain ⟨other, blames⟩ := explained.blamed
  have same := (explained.forced other blames).symm.trans known
  rwa [Code.name_injective (Value.str.inj same)] at blames

/-- No error has a code exactly if no node is blamed for it. -/
theorem forall_code_ne_iff {ns : List Node} (answered : ∀ t ∈ ns, env.Answered t) :
    (∀ d ∈ ns.flatMap env.errorsAt, d.code ≠ .str code.name) ↔
      ∀ t ∈ ns, ¬ env.Blames t code := by
  have pairs := forall₂_explains answered
  constructor
  · intro free t inside blames
    obtain ⟨d, reported, explained⟩ :=
      exists_right_of_forall₂ pairs (List.mem_filter.mpr ⟨inside, blames.isUnresolved⟩)
    exact free d reported (explained.code_eq_iff.mpr blames)
  · intro clear d reported known
    obtain ⟨t, kept, explained⟩ := exists_left_of_forall₂ pairs reported
    exact clear t (List.mem_filter.mp kept).1 (explained.code_eq_iff.mp known)

end codes

section resolution

/-- A node that calls for no error: neither a reference nor a call, nor a widget of an unknown type. -/
def IsSettled (env : Env) (n : Node) : Prop :=
  n.isPending = false ∧ ∀ w, n = .widget w → env.registry.has w.type = .ok true

theorem ResolvesPage.answered {page resolved : Node} (run : env.ResolvesPage page resolved) :
    ∀ t ∈ resolved.preorder, env.Answered t := by
  obtain ⟨_, each⟩ := run
  intro t member
  rcases Node.mem_preorder.mp member with rfl | ⟨m, child, below⟩
  · trivial
  · obtain ⟨_, -, resolves⟩ := exists_left_of_forall₂ each child
    exact resolves.answered t below

theorem isSettled_iff (answered : env.Answered n) :
    env.IsSettled n ↔ env.isUnresolved n = false := by
  cases n with
  | ref | call => simp [IsSettled, isUnresolved]
  | widget w =>
    obtain ⟨known, looked, -⟩ := answered
    simp [IsSettled, isUnresolved, looked, Node.isPending]
  | page | sect | slot | cond | loop | frag | custom | stray =>
    simp [IsSettled, isUnresolved, Node.isPending]

/-- Nothing is reported exactly if nothing is left to report. -/
theorem flatMap_errorsAt_eq_nil {ns : List Node} (answered : ∀ n ∈ ns, env.Answered n) :
    ns.flatMap env.errorsAt = [] ↔ ∀ n ∈ ns, env.IsSettled n := by
  have lengths := (forall₂_explains answered).length_eq
  rw [← List.length_eq_zero_iff, ← lengths, List.length_eq_zero_iff, List.filter_eq_nil_iff]
  refine forall₂_congr fun n member => ?_
  rw [isSettled_iff (answered n member), Bool.not_eq_true]

/-- The errors of a resolution are those that the resolved pages call for, one for each unresolved node
in document order; well-formed input has a resolution. -/
theorem errors_of_resolve (pages : List Node) (registry : Registry)
    (partials : List (Value × Partial)) :
    ((∀ page ∈ pages, page.isSoundPage) → (∀ e ∈ partials, Partial.isSoundEntry e) →
      ∃ r, resolve pages registry partials = .ok r) ∧
    ∀ r, resolve pages registry partials = .ok r →
      ∃ env, Env.of pages registry partials = .ok env ∧
        r.errors = (r.pages.flatMap Node.preorder).flatMap env.errorsAt ∧
        List.Forall₂ env.Explains ((r.pages.flatMap Node.preorder).filter env.isUnresolved)
          r.errors ∧
        (r.errors = [] ↔ ∀ n ∈ r.pages.flatMap Node.preorder, env.IsSettled n) := by
  constructor
  · intro pagesSound partialsSound
    obtain ⟨r, run, -⟩ := resolve_total pagesSound partialsSound
    exact ⟨r, run⟩
  · intro r run
    obtain ⟨env, indexed, pairs, errors⟩ := resolve_eq_ok.mp run
    have answered : ∀ n ∈ r.pages.flatMap Node.preorder, env.Answered n := by
      intro n member
      obtain ⟨page, stored, inside⟩ := List.mem_flatMap.mp member
      obtain ⟨_, -, resolves⟩ := exists_left_of_forall₂ pairs stored
      exact resolves.answered n inside
    have listed : r.errors = (r.pages.flatMap Node.preorder).flatMap env.errorsAt := by
      rw [errors, List.flatMap_assoc]
      rfl
    refine ⟨env, indexed, listed, ?_, ?_⟩
    · rw [listed]
      exact forall₂_explains answered
    · rw [listed]
      exact flatMap_errorsAt_eq_nil answered

def heroPage : Node :=
  .page { name := .str "Home", type := .str "page", route := .str "/" } (.proper [
    .sect { name := .str "hero" } (.proper [.ref {
      target := .str "Home#hero", pageName := .str "Home", sectionName := .str "hero" }]),
    .ref { target := .str "Away#hero", pageName := .str "Away", sectionName := .str "hero" },
    .widget { type := .str "badge" }])

theorem errors_of_resolve_heroPage :
    ∃ r env, resolve [heroPage] {} [] = .ok r ∧ Env.of [heroPage] {} [] = .ok env ∧
      r.errors.length = 3 ∧
      List.Forall₂ env.Explains ((r.pages.flatMap Node.preorder).filter env.isUnresolved)
        r.errors := by
  obtain ⟨returns, explained⟩ := errors_of_resolve [heroPage] {} []
  obtain ⟨r, run⟩ := returns (by decide +kernel) (by simp)
  obtain ⟨env, indexed, -, pairs, -⟩ := explained r run
  have count : (resolve [heroPage] {} []).toOption.map (·.errors.length) = some 3 := by
    decide +kernel
  rw [run] at count
  exact ⟨r, env, run, indexed, Option.some.inj count, pairs⟩

end resolution

end Env
end ViewCompiler
