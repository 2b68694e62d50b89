import ViewCompiler.Proofs.Build.Shares
import ViewCompiler.Proofs.Resolve.Errors
import ViewCompiler.Proofs.Validate.Codes

/-! The resolution of a build and its validation agree on what is left. Both come to the unresolved
nodes in document order, ask the registry the same question, and report one diagnostic each, at the
same place. -/
namespace ViewCompiler

def unresolvedCodes : List Code := [.unknownWidgetType, .unresolvedRef, .unresolvedPartial]

def Diagnostic.SamePlace (d e : Diagnostic) : Prop :=
  d.file = e.file ∧ d.line = e.line ∧ d.col = e.col

/-- The error of a resolution and the finding of a validation on one unresolved node. -/
inductive Matches : Node → Diagnostic × Diagnostic → Prop
  | widget {w d} (code : d.code = .str Code.unknownWidgetType.name) : Matches (.widget w) (d, d)
  | ref {r error finding} {cause : Code}
      (known : cause ∈ [.unknownRefTarget, .unknownRefSection, .circularRef])
      (code : error.code = .str cause.name)
      (found : finding.code = .str Code.unresolvedRef.name)
      (place : error.SamePlace finding) : Matches (.ref r) (error, finding)
  | call {c error finding} {cause : Code} (known : cause ∈ [.unknownPartial, .circularRef])
      (code : error.code = .str cause.name)
      (found : finding.code = .str Code.unresolvedPartial.name)
      (place : error.SamePlace finding) : Matches (.call c) (error, finding)

/-- The errors and the findings are those on the nodes, position by position. -/
def Tallies (ns : List Node) (errors findings : List Diagnostic) : Prop :=
  ∃ ps, List.Forall₂ Matches ns ps ∧ errors = ps.map Prod.fst ∧ findings = ps.map Prod.snd

namespace Tallies

variable {n : Node} {ns ms : List Node} {d e : Diagnostic} {errors findings : List Diagnostic}

theorem nil : Tallies [] [] [] := ⟨[], .nil, rfl, rfl⟩

theorem single (pair : Matches n (d, e)) : Tallies [n] [d] [e] :=
  ⟨[(d, e)], .cons pair .nil, rfl, rfl⟩

theorem append {others more : List Diagnostic} (first : Tallies ns errors findings)
    (second : Tallies ms others more) :
    Tallies (ns ++ ms) (errors ++ others) (findings ++ more) := by
  obtain ⟨ps, pairs, rfl, rfl⟩ := first
  obtain ⟨qs, rest, rfl, rfl⟩ := second
  exact ⟨ps ++ qs, List.rel_append pairs rest, List.map_append.symm, List.map_append.symm⟩

theorem length_eq (tallies : Tallies ns errors findings) : errors.length = findings.length := by
  obtain ⟨ps, -, rfl, rfl⟩ := tallies
  rw [List.length_map, List.length_map]

end Tallies

theorem Registry.has_eq_ok {registry : Registry} {v : Value} {known : Bool} :
    registry.has v = .ok known ↔ ∃ s?, registry.get v = .ok s? ∧ s?.isSome = known := by
  rw [has, get]
  cases v.key <;> simp [bind, Except.bind, pure, Except.pure]

/-- A finding with a code that counts is kept. -/
theorem Findings.filter_one {h : Head} {code : Code} {message : String} {ds : List Diagnostic}
    (counts : code ∈ unresolvedCodes) (found : Findings.one .error h code message = .ok ds) :
    ∃ place, h.place = .ok place ∧ ds.filter (·.isAmong unresolvedCodes) =
      [Diagnostic.make .error code message place] := by
  obtain ⟨place, placed, rfl⟩ := one_eq_ok.mp found
  exact ⟨place, placed, List.filter_cons_of_pos ((Diagnostic.isAmong_iff rfl).mpr counts)⟩

namespace Env

variable {env : Env} {hasLoader : Bool} {n m page : Node} {w : Widget} {ds : List Diagnostic}

/-- A widget of unknown type has the same diagnostic from both, and any other widget has none. -/
theorem tallies_widget (answered : env.Answered (.widget w))
    (found : Validate.checkWidget env.registry hasLoader w = .ok ds) :
    Tallies ([.widget w].filter env.isUnresolved) (env.errorsAt (.widget w))
      (ds.filter (·.isAmong unresolvedCodes)) := by
  rw [Validate.checkWidget, Findings.all_cons] at found
  obtain ⟨own, remarks, typed, others, rfl⟩ := Findings.and_eq_ok.mp found
  rw [List.filter_append, Validate.reports_remarks.filter_eq_nil (by decide) others,
    List.append_nil]
  obtain ⟨known, looked, -⟩ := answered
  obtain ⟨s?, got, same⟩ := Registry.has_eq_ok.mp looked
  rw [Validate.checkType, got, Except.ok_bind] at typed
  cases s? with
  | some s =>
    obtain rfl : known = true := same.symm
    rw [(Validate.reports_checkRequired s).filter_eq_nil (by decide) typed]
    simp only [isUnresolved, errorsAt, looked, List.filter_singleton, Bool.not_true]
    exact .nil
  | none =>
    obtain rfl : known = false := same.symm
    obtain ⟨place, placed, kept⟩ := Findings.filter_one (by decide) typed
    rw [kept]
    simp only [isUnresolved, errorsAt, looked, Head.errors, placed, List.filter_singleton,
      Bool.not_false]
    exact .single (.widget rfl)

/-- A reference or a call has one diagnostic from each, at its own place. -/
theorem tallies_pending {h : Head} {code : Code} {message : String} (answered : env.Answered n)
    (unresolved : env.isUnresolved n) (head : n.head? = some h) (counts : code ∈ unresolvedCodes)
    (found : Findings.one .error h code message = .ok ds)
    (pair : ∀ {cause : Code} {error finding : Diagnostic}, env.Blames n cause →
      error.code = .str cause.name → finding.code = .str code.name → error.SamePlace finding →
      Matches n (error, finding)) :
    Tallies ([n].filter env.isUnresolved) (env.errorsAt n)
      (ds.filter (·.isAmong unresolvedCodes)) := by
  obtain ⟨d, single, explained⟩ := explains_of_answered answered unresolved
  obtain ⟨cause, blames⟩ := explained.blamed
  obtain ⟨_, place, known, placed, spot⟩ := explained.placed
  obtain rfl := Option.some.inj (head.symm.trans known)
  obtain ⟨_, again, kept⟩ := Findings.filter_one counts found
  obtain rfl := Except.ok.inj (placed.symm.trans again)
  rw [single, kept, List.filter_cons_of_pos unresolved]
  exact .single (pair blames (explained.forced cause blames) rfl spot)

theorem tallies_own (answered : env.Answered n)
    (found : Validate.checkOwn env.registry hasLoader n = .ok ds) :
    Tallies ([n].filter env.isUnresolved) (env.errorsAt n)
      (ds.filter (·.isAmong unresolvedCodes)) := by
  cases n with
  | widget w => exact tallies_widget answered found
  | ref r =>
    exact tallies_pending answered rfl rfl (by decide) found fun blames =>
      .ref (by cases blames <;> decide)
  | call c =>
    exact tallies_pending answered rfl rfl (by decide) found fun blames =>
      .call (by cases blames <;> decide)
  | page | sect | slot | cond | loop | frag | custom | stray =>
    cases found
    exact .nil

/-- The induction is on the nodes in document order. -/
theorem tallies_nodes {ns : List Node} (answered : ∀ n ∈ ns, env.Answered n)
    (found : Findings.all (ns.map (Validate.checkOwn env.registry hasLoader)) = .ok ds) :
    Tallies (ns.filter env.isUnresolved) (ns.flatMap env.errorsAt)
      (ds.filter (·.isAmong unresolvedCodes)) := by
  induction ns generalizing ds with
  | nil =>
    cases found
    exact .nil
  | cons n ns ih =>
    obtain ⟨own, rest⟩ := List.forall_mem_cons.mp answered
    obtain ⟨_, _, here, later, rfl⟩ := Findings.and_eq_ok.mp found
    have tallies := (tallies_own own here).append (ih rest later)
    rwa [← List.filter_append, ← List.filter_append, List.singleton_append] at tallies

/-- What is found on the page itself has other codes. -/
theorem tallies_page (run : env.ResolvesPage page m) (found : validate env.registry m = .ok ds) :
    Tallies (m.preorder.filter env.isUnresolved) (env.errorsOf m)
      (ds.filter (·.isAmong unresolvedCodes)) := by
  have answered := run.answered
  obtain @⟨p, _, ms, -, -⟩ := run
  obtain ⟨own, below, checked, inside, rfl⟩ := Findings.and_eq_ok.mp found
  rw [List.filter_append, (Validate.reports_checkPage p _).filter_eq_nil (by decide) checked]
  have each : ∀ t ∈ ms.flatMap Node.preorder, env.Answered t := by
    intro t member
    rw [Node.preorder_eq] at answered
    exact answered t (List.mem_cons_of_mem _ member)
  have tallies := tallies_nodes each (Validate.all_of_checkChildren inside)
  rw [errorsOf, Node.preorder_eq]
  exact tallies

theorem tallies_pages {pages ms : List Node} (pairs : List.Forall₂ env.ResolvesPage pages ms)
    (found : validateAll env.registry ms = .ok ds) :
    Tallies ((ms.flatMap Node.preorder).filter env.isUnresolved) (ms.flatMap env.errorsOf)
      (ds.filter (·.isAmong unresolvedCodes)) := by
  induction pairs generalizing ds with
  | nil =>
    cases found
    exact .nil
  | cons run _ ih =>
    obtain ⟨_, _, here, later, rfl⟩ := Findings.and_eq_ok.mp found
    rw [List.flatMap_cons, List.flatMap_cons, List.filter_append, List.filter_append]
    exact (tallies_page run here).append (ih later)

end Env

/-- In every build the errors of the resolution and the findings of the validation that tell of
something unresolved are those on the unresolved nodes, one of each for every node, in document
order. -/
theorem tallies_of_build {documents : Documents} {registry : Registry}
    {partials : List (Value × Partial)} {b : Build}
    (built : build documents registry partials = .ok b) :
    ∃ env failures errors findings,
      Env.of (Build.parsedPages documents) registry partials = .ok env ∧
      (Build.readDocuments documents).Gives failures (Build.parsedPages documents) ∧
      resolve (Build.parsedPages documents) registry partials = .ok ⟨b.pages, errors⟩ ∧
      validateAll registry b.pages = .ok findings ∧
      b.report.diagnostics = failures ++ errors ++ findings ∧
      errors.length = (findings.filter (·.isAmong unresolvedCodes)).length ∧
      Tallies ((b.pages.flatMap Node.preorder).filter env.isUnresolved) errors
        (findings.filter (·.isAmong unresolvedCodes)) := by
  obtain ⟨failures, errors, findings, read, run, checked, reported⟩ :=
    Build.gives_run_iff.mp (build_eq_ok_iff_gives.mp built)
  have resolved := Env.resolve_eq_ok_iff_gives.mpr run
  obtain ⟨env, made, pairs, rfl⟩ := Build.gives_resolveAll.mp run
  have tallies := Env.tallies_pages pairs ((Env.registry_of_env made).symm ▸ checked)
  exact ⟨env, failures, _, findings, made, read, resolved, checked, reported, tallies.length_eq,
    tallies⟩

/-- A page that calls a card which is not there and has a badge of unknown type, and one whose only
section refers to itself. -/
def leftoverDocuments : Documents := [
  (.str "home.yaml", .dict [
    ("name", .str "Home"), ("type", .str "page"), ("route", .str "/"),
    ("sections", .list [
      .dict [("$partial", .str "card")], .dict [("type", .str "badge")]])]),
  (.str "loop.yaml", .dict [
    ("name", .str "Loop"), ("type", .str "page"), ("route", .str "/loop"),
    ("sections", .list [.dict [
      ("name", .str "self"), ("widgets", .list [.dict [("$ref", .str "Loop#self")]])]])])]

theorem tallies_of_build_leftover :
    ∃ b nodes errors findings, build leftoverDocuments {} [] = .ok b ∧
      b.report.diagnostics.map (·.code.text) = ["unknown-partial", "unknown-widget-type",
        "circular-ref", "unresolved-partial", "unknown-widget-type", "unresolved-ref"] ∧
      b.report.diagnostics = errors ++ findings ∧
      Tallies nodes errors (findings.filter (·.isAmong unresolvedCodes)) := by
  have codes : (build leftoverDocuments {} []).toOption.map
      (·.report.diagnostics.map (·.code.text)) = some ["unknown-partial", "unknown-widget-type",
        "circular-ref", "unresolved-partial", "unknown-widget-type", "unresolved-ref"] := by
    decide +kernel
  obtain ⟨b, built, same⟩ := Except.exists_of_toOption_map codes
  obtain ⟨env, failures, errors, findings, -, read, -, -, reported, -, tallies⟩ :=
    tallies_of_build built
  have none : (Build.readDocuments leftoverDocuments).diagnostics.isEmpty := by decide +kernel
  rw [read.2] at none
  obtain rfl := List.isEmpty_iff.mp none
  exact ⟨b, _, errors, findings, built, same, reported, tallies⟩

end ViewCompiler
