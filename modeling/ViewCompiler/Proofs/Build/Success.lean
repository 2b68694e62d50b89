import ViewCompiler.Proofs.Build.Shares
import ViewCompiler.Proofs.Document.Parsed
import ViewCompiler.Proofs.Resolve.Errors
import ViewCompiler.Proofs.Validate.Verdict

/-! What it means that a build is ok: no document is refused, and the resolved pages lack nothing.
That can be told from the pages alone, without the passes that found it out. -/
namespace ViewCompiler

structure Node.IsComplete (registry : Registry) (page : Node) : Prop where
  labelled : ∃ p sections name route, page = .page p sections ∧
    p.name = .str name ∧ name ≠ "" ∧ p.route = .str route ∧ route ≠ ""
  fits : ∀ n ∈ page.preorder, Validate.Fits registry n

/-- Where name and route are texts, it is enough that they count as true. -/
theorem Node.isComplete_iff {registry : Registry} {p : Page} {sections : Children}
    (named : p.name.isStr) (routed : p.route.isStr) :
    IsComplete registry (.page p sections) ↔ p.name.truthy ∧ p.route.truthy ∧
      ∀ n ∈ (Node.page p sections).preorder, Validate.Fits registry n := by
  obtain ⟨name, named⟩ := Value.exists_of_isStr named
  obtain ⟨route, routed⟩ := Value.exists_of_isStr routed
  have filled (v : Value) (s : String) (text : v = .str s) : v.truthy ↔ s ≠ "" := by
    simp [text, Value.truthy]
  rw [filled p.name name named, filled p.route route routed]
  constructor
  · rintro ⟨⟨_, _, _, _, ⟨⟩, one, some_name, other, some_route⟩, fits⟩
    obtain rfl := Value.str.inj (one.symm.trans named)
    obtain rfl := Value.str.inj (other.symm.trans routed)
    exact ⟨some_name, some_route, fits⟩
  · rintro ⟨some_name, some_route, fits⟩
    exact ⟨⟨p, _, name, route, rfl, named, some_name, routed, some_route⟩, fits⟩

namespace Env

variable {env : Env} {n m : Node}

/-- What a resolution reports are errors, so they are harmless only if there are none. -/
theorem harmless_errorsOf (answered : ∀ t ∈ m.preorder, env.Answered t) :
    Harmless (env.errorsOf m) ↔ ∀ t ∈ m.preorder, env.IsSettled t := by
  rw [← flatMap_errorsAt_eq_nil answered]
  constructor
  · intro harmless
    refine List.eq_nil_iff_forall_not_mem.mpr fun d reported => ?_
    obtain ⟨t, -, explained⟩ := exists_left_of_forall₂ (forall₂_explains answered) reported
    have error : d.isOf .error := by
      rw [Diagnostic.isOf, Value.isText, Value.same_str, explained.severity]
    rw [harmless d reported] at error
    cases error
  · intro clean
    rw [errorsOf, clean]
    exact .nil

theorem isSettled_of_fits (fits : Validate.Fits env.registry n) : env.IsSettled n := by
  refine ⟨fits.1, fun w widget => ?_⟩
  obtain ⟨s, found, -⟩ := fits.2 w widget
  obtain ⟨k, named, found⟩ := Except.bind_eq_ok.mp found
  rw [Registry.has, named, Except.ok_bind, Except.pure_eq_ok.mp found]
  rfl

end Env

namespace Build

variable {env : Env} {file raw : Value} {share : Share}

def Share.IsHarmless (share : Share) : Prop :=
  Harmless share.failure?.toList ∧ Harmless share.errors ∧ Harmless share.findings

theorem ok_ofShares {shares : List Share} :
    (ofShares shares).ok = true ↔ ∀ share ∈ shares, share.IsHarmless := by
  have reported : (ofShares shares).ok = true ↔ Harmless (ofShares shares).report.diagnostics := by
    simp [ok, Report.hasErrors, Harmless]
  rw [reported, ofShares, Harmless.append, Harmless.append, List.filterMap_eq_flatMap_toList,
    Harmless.flatMap, Harmless.flatMap, Harmless.flatMap]
  simp only [Share.IsHarmless, forall_and, and_assoc]

theorem not_harmless_parseFailure (error : DocumentError) :
    ¬ Harmless [parseFailure error] := by
  rw [parseFailure, Harmless.singleton]
  simp

/-- A document adds no error exactly if it is not refused and its page, if any, lacks nothing. -/
theorem Adds.isHarmless_iff (adds : Adds env file raw share) :
    share.IsHarmless ↔ (¬ ∃ e, Document.parsePage file raw = .error (.badDocument e)) ∧
      ∀ page, share.page? = some page → page.IsComplete env.registry := by
  obtain ⟨outcome, read, yields⟩ := adds
  cases read with
  | failure refused =>
    cases yields
    constructor
    · rintro ⟨harmless, -⟩
      exact absurd harmless (not_harmless_parseFailure _)
    · rintro ⟨accepted, -⟩
      exact absurd ⟨_, refused⟩ accepted
  | page parsed =>
    obtain ⟨resolved, checked⟩ := yields
    obtain ⟨p, sections, rfl, named, routed⟩ := Document.texts_of_parsePage parsed
    obtain ⟨run, rfl⟩ := Env.gives_resolvePage.mp resolved
    have settled := Env.harmless_errorsOf run.answered
    obtain @⟨_, _, ms, -, -⟩ := run
    have valid := decides_validate p (.proper ms) _ checked
    rw [← Node.isComplete_iff named routed] at valid
    constructor
    · rintro ⟨-, -, clean⟩
      refine ⟨?_, ?_⟩
      · rintro ⟨e, refused⟩
        rw [parsed] at refused
        cases refused
      · rintro _ ⟨⟩
        exact valid.mp clean
    · rintro ⟨-, each⟩
      have whole := each _ rfl
      exact ⟨.nil, settled.mpr fun t member => Env.isSettled_of_fits (whole.fits t member),
        valid.mpr whole⟩

end Build

/-- A build is ok exactly if no document was refused and no page lacks anything. -/
theorem ok_iff_of_build {documents : Documents} {registry : Registry}
    {partials : List (Value × Partial)} {b : Build}
    (built : build documents registry partials = .ok b) :
    b.ok = true ↔
      (∀ d ∈ documents, ¬ ∃ e, Document.parsePage d.1 d.2 = .error (.badDocument e)) ∧
      ∀ page ∈ b.pages, page.IsComplete registry := by
  obtain ⟨env, shares, made, adds, rfl⟩ := build_eq_ok.mp built
  obtain rfl := Env.registry_of_env made
  rw [Build.ok_ofShares]
  constructor
  · intro harmless
    refine ⟨fun d member => ?_, fun page member => ?_⟩
    · obtain ⟨share, inside, added⟩ := exists_right_of_forall₂ adds member
      exact (added.isHarmless_iff.mp (harmless share inside)).1
    · obtain ⟨share, inside, known⟩ := List.mem_filterMap.mp member
      obtain ⟨d, -, added⟩ := exists_left_of_forall₂ adds inside
      exact (added.isHarmless_iff.mp (harmless share inside)).2 page known
  · rintro ⟨accepted, complete⟩ share inside
    obtain ⟨d, member, added⟩ := exists_left_of_forall₂ adds inside
    refine added.isHarmless_iff.mpr ⟨accepted d member, fun page known => ?_⟩
    exact complete page (List.mem_filterMap.mpr ⟨share, inside, known⟩)

/-- Two pages that share a section with a chart. -/
def chartDocuments : Documents := [
  (.str "home.yaml", .dict [
    ("name", .str "Home"), ("type", .str "page"), ("route", .str "/"),
    ("sections", .list [.dict [("$ref", .str "Sales#trend")]])]),
  (.str "sales.yaml", .dict [
    ("name", .str "Sales"), ("type", .str "page"), ("route", .str "/sales"),
    ("sections", .list [.dict [
      ("name", .str "trend"), ("widgets", .list [.dict [("line-chart", .str "db.sales")]])]])])]

def chartRegistry : Registry where
  table := [(.text "chart", .str "chart", {
    name := .str "chart", props := [("source", .needed "binding")] })]

theorem ok_iff_of_build_chart : ∃ b, build chartDocuments chartRegistry [] = .ok b ∧
    b.pages.length = 2 ∧ ∀ page ∈ b.pages, page.IsComplete chartRegistry := by
  have known : (build chartDocuments chartRegistry []).toOption.map
      (fun b => (b.ok, b.pages.length)) = some (true, 2) := by
    decide +kernel
  obtain ⟨b, built, same⟩ := Except.exists_of_toOption_map known
  obtain ⟨ok, count⟩ := Prod.mk.inj same
  exact ⟨b, built, count, ((ok_iff_of_build built).mp ok).2⟩

end ViewCompiler
