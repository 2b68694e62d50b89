import ViewCompiler.Proofs.Build.Reading
import ViewCompiler.Proofs.Resolve.Invariants
import ViewCompiler.Proofs.Validate.Findings

/-! What each document adds to a build. A build is known exactly: it is made up of the shares of its
documents, pass by pass, and a share depends on its own document and on the environment only. -/
namespace ViewCompiler

variable {documents : Documents} {registry : Registry} {partials : List (Value × Partial)}
  {env : Env}

namespace Build

/-- A document's resolved page, with the errors of its resolution and the findings on it, or its
failure. -/
inductive Share where
  | page (n : Node) (errors findings : List Diagnostic)
  | failure (d : Diagnostic)

namespace Share

def page? : Share → Option Node
  | .page n _ _ => some n
  | .failure _ => none

def failure? : Share → Option Diagnostic
  | .page _ _ _ => none
  | .failure d => some d

def errors : Share → List Diagnostic
  | .page _ errors _ => errors
  | .failure _ => []

def findings : Share → List Diagnostic
  | .page _ _ findings => findings
  | .failure _ => []

end Share

/-- The build that the shares make up: all failures, then all errors, then all findings. -/
def ofShares (shares : List Share) : Build where
  pages := shares.filterMap Share.page?
  report := ⟨shares.filterMap Share.failure? ++ shares.flatMap Share.errors
    ++ shares.flatMap Share.findings⟩

/-- What becomes of a document makes up its share in an environment. -/
inductive Outcome.Yields (env : Env) : Outcome → Share → Prop
  | page {n m errors findings} (resolved : (env.resolvePage n).Gives errors m)
      (checked : validate env.registry m = .ok findings) :
      Yields env (.page n) (.page m errors findings)
  | failure {d} : Yields env (.failure d) (.failure d)

def Adds (env : Env) (file raw : Value) (share : Share) : Prop :=
  ∃ outcome, Reads file raw outcome ∧ outcome.Yields env share

def parsedPages (documents : Documents) : List Node :=
  documents.filterMap fun d => (Document.parsePage d.1 d.2).toOption

theorem mem_parsedPages {page : Node} :
    page ∈ parsedPages documents ↔ ∃ d ∈ documents, Document.parsePage d.1 d.2 = .ok page := by
  have parsed (d : Value × Value) : (Document.parsePage d.1 d.2).toOption = some page ↔
      Document.parsePage d.1 d.2 = .ok page := by
    cases Document.parsePage d.1 d.2 <;> simp [Except.toOption]
  simp only [parsedPages, List.mem_filterMap, parsed]

theorem Reads.page?_eq {file raw : Value} {outcome : Outcome} (read : Reads file raw outcome) :
    outcome.page? = (Document.parsePage file raw).toOption := by
  cases read with
  | page parsed => rw [parsed]; rfl
  | failure refused => rw [refused]; rfl

theorem parsedPages_eq {outcomes : List Outcome}
    (read : List.Forall₂ (fun d o => Reads d.1 d.2 o) documents outcomes) :
    outcomes.filterMap Outcome.page? = parsedPages documents := by
  induction read with
  | nil => rfl
  | cons head _ ih =>
    rw [List.filterMap_cons, parsedPages, List.filterMap_cons, head.page?_eq, ih]
    rfl

/-- Pages that are resolved and checked one by one are so with the shares of their documents. -/
theorem forall₂_yields {outcomes : List Outcome} {pages : List Node}
    {failures errors findings : List Diagnostic} :
    (failures = outcomes.filterMap Outcome.failure? ∧
      List.Forall₂ env.ResolvesPage (outcomes.filterMap Outcome.page?) pages ∧
      errors = pages.flatMap env.errorsOf ∧
      ∃ dss, List.Forall₂ (fun page ds => validate env.registry page = .ok ds) pages dss ∧
        findings = dss.flatten) ↔
    ∃ shares, List.Forall₂ (Outcome.Yields env) outcomes shares ∧
      pages = shares.filterMap Share.page? ∧ failures = shares.filterMap Share.failure? ∧
      errors = shares.flatMap Share.errors ∧ findings = shares.flatMap Share.findings := by
  induction outcomes generalizing pages failures errors findings with
  | nil =>
    constructor
    · rintro ⟨rfl, ⟨⟩, rfl, _, ⟨⟩, rfl⟩
      exact ⟨[], .nil, rfl, rfl, rfl, rfl⟩
    · rintro ⟨_, ⟨⟩, rfl, rfl, rfl, rfl⟩
      exact ⟨rfl, .nil, rfl, [], .nil, rfl⟩
  | cons outcome outcomes ih =>
    cases outcome with
    | page n =>
      constructor
      · rintro ⟨rfl, _ | ⟨resolved, rest⟩, rfl, _, _ | ⟨checked, others⟩, rfl⟩
        obtain ⟨shares, yields, rfl, failed, reported, found⟩ :=
          ih.mp ⟨rfl, rest, rfl, _, others, rfl⟩
        have run := Env.gives_resolvePage.mpr ⟨resolved, rfl⟩
        refine ⟨_ :: shares, .cons (.page run checked) yields, rfl, failed, ?_, ?_⟩
        · rw [List.flatMap_cons, reported]
          rfl
        · rw [List.flatten_cons, found]
          rfl
      · rintro ⟨_, _ | ⟨⟨resolved, checked⟩, yields⟩, rfl, rfl, rfl, rfl⟩
        obtain ⟨failed, rest, reported, dss, others, found⟩ :=
          ih.mpr ⟨_, yields, rfl, rfl, rfl, rfl⟩
        obtain ⟨run, rfl⟩ := Env.gives_resolvePage.mp resolved
        refine ⟨failed, .cons run rest, ?_, _, .cons checked others, ?_⟩
        · rw [List.flatMap_cons, reported]
          rfl
        · rw [List.flatMap_cons, found]
          rfl
    | failure d =>
      constructor
      · rintro ⟨rfl, rest, rfl, _, others, rfl⟩
        obtain ⟨shares, yields, rfl, failed, reported, found⟩ :=
          ih.mp ⟨rfl, rest, rfl, _, others, rfl⟩
        refine ⟨_ :: shares, .cons .failure yields, rfl, ?_, reported, found⟩
        rw [List.filterMap_cons]
        exact congrArg (d :: ·) failed
      · rintro ⟨_, _ | ⟨⟨⟩, yields⟩, rfl, rfl, rfl, rfl⟩
        obtain ⟨failed, rest, reported, dss, others, found⟩ :=
          ih.mpr ⟨_, yields, rfl, rfl, rfl, rfl⟩
        exact ⟨congrArg (d :: ·) failed, rest, reported, dss, others, found⟩

/-- A page of a build is the resolved page of one of its documents. -/
theorem Adds.exists_parsed {file raw : Value} {share : Share} {page : Node}
    (adds : Adds env file raw share) (known : share.page? = some page) :
    ∃ n, Document.parsePage file raw = .ok n ∧ env.ResolvesPage n page := by
  obtain ⟨_, read, yields⟩ := adds
  cases yields with
  | failure => cases known
  | page resolved checked =>
    cases known
    obtain ⟨parsed⟩ := read
    exact ⟨_, parsed, (Env.gives_resolvePage.mp resolved).1⟩

theorem validateAll_eq_ok {pages : List Node} {ds : List Diagnostic} :
    validateAll registry pages = .ok ds ↔
      ∃ dss, List.Forall₂ (fun page ds => validate registry page = .ok ds) pages dss ∧
        ds = dss.flatten := by
  simp only [validateAll, Findings.all_eq_ok, List.forall₂_map_left_iff]

theorem gives_resolveAll {pages resolved : List Node} {ds : List Diagnostic} :
    (resolveAll pages registry partials).Gives ds resolved ↔
      ∃ env, Env.of pages registry partials = .ok env ∧
        List.Forall₂ env.ResolvesPage pages resolved ∧ ds = resolved.flatMap env.errorsOf := by
  rw [← Env.resolve_eq_ok_iff_gives, Env.resolve_eq_ok]

/-- The passes of a build, one after the other. -/
theorem gives_run_iff {pages : List Node} {ds : List Diagnostic} :
    (run documents registry partials).Gives ds pages ↔ ∃ failures errors findings,
      (readDocuments documents).Gives failures (parsedPages documents) ∧
        (resolveAll (parsedPages documents) registry partials).Gives errors pages ∧
        validateAll registry pages = .ok findings ∧ ds = failures ++ errors ++ findings := by
  simp only [run, Traced.gives_bind, Traced.gives_ofExcept, bind_pure_comp, Traced.gives_map,
    Traced.gives_diagnose]
  constructor
  · rintro ⟨given, failures, _, read, ⟨_, errors, _, resolved,
      ⟨_, _, _, ⟨checked, rfl⟩, ⟨_, rfl, rfl⟩, rfl⟩, rfl⟩, rfl⟩
    have parsed : given = parsedPages documents := by
      obtain ⟨outcomes, each, rfl, -⟩ := gives_readDocuments.mp read
      exact parsedPages_eq each
    subst parsed
    exact ⟨failures, errors, _, read, resolved, checked, (List.append_assoc _ _ _).symm⟩
  · rintro ⟨failures, errors, findings, read, resolved, checked, rfl⟩
    exact ⟨_, failures, _, read, ⟨_, errors, _, resolved,
      ⟨findings, [], _, ⟨checked, rfl⟩, ⟨(), rfl, rfl⟩, rfl⟩, rfl⟩, List.append_assoc _ _ _⟩

/-- A run is made up of the shares of its documents. -/
theorem gives_run {pages : List Node} {ds : List Diagnostic} :
    (run documents registry partials).Gives ds pages ↔
      ∃ env shares, Env.of (parsedPages documents) registry partials = .ok env ∧
        List.Forall₂ (fun d share => Adds env d.1 d.2 share) documents shares ∧
        ofShares shares = ⟨pages, ⟨ds⟩⟩ := by
  simp only [gives_run_iff, gives_readDocuments, gives_resolveAll, validateAll_eq_ok, Adds,
    forall₂_comp]
  constructor
  · rintro ⟨_, _, _, ⟨outcomes, read, same, rfl⟩, ⟨env, made, resolved, rfl⟩, ⟨dss, checked, rfl⟩,
      rfl⟩
    rw [same] at resolved
    have kept := (Env.registry_of_env made).symm
    subst kept
    obtain ⟨shares, yields, rfl, failed, reported, found⟩ :=
      forall₂_yields.mp ⟨rfl, resolved, rfl, dss, checked, rfl⟩
    refine ⟨env, shares, made, ⟨outcomes, read, yields⟩, ?_⟩
    rw [ofShares, ← failed, ← reported, ← found]
  · rintro ⟨env, shares, made, ⟨outcomes, read, yields⟩, made_up⟩
    have kept := (Env.registry_of_env made).symm
    subst kept
    obtain ⟨failed, resolved, reported, dss, checked, found⟩ :=
      forall₂_yields.mpr ⟨shares, yields, rfl, rfl, rfl, rfl⟩
    have same := parsedPages_eq read
    rw [same] at resolved
    cases made_up
    refine ⟨_, _, _, ⟨outcomes, read, same.symm, rfl⟩, ⟨env, made, resolved, rfl⟩,
      ⟨dss, checked, rfl⟩, ?_⟩
    rw [← failed, ← reported, ← found]

end Build

/-- A build is a run with its diagnostics. -/
theorem build_eq_ok_iff_gives {b : Build} :
    build documents registry partials = .ok b ↔
      (Build.run documents registry partials).Gives b.report.diagnostics b.pages := by
  constructor
  · intro built
    have given := Traced.gives_of_result built
    simp only [buildTraced, Traced.gives_bind, Traced.gives_log, Traced.gives_pure] at given
    obtain ⟨pages, _, _, run, ⟨_, _, _, _, ⟨rfl, _⟩, _⟩, _⟩ := given
    exact ⟨run.1, rfl⟩
  · rintro ⟨result, found⟩
    simp only [build, buildTraced, bind, result, found, pure]
    rfl

/-- A build is made up of the shares of its documents. -/
theorem build_eq_ok {b : Build} :
    build documents registry partials = .ok b ↔
      ∃ env shares, Env.of (Build.parsedPages documents) registry partials = .ok env ∧
        List.Forall₂ (fun d share => Build.Adds env d.1 d.2 share) documents shares ∧
        b = Build.ofShares shares := by
  rw [build_eq_ok_iff_gives, Build.gives_run]
  refine exists_congr fun env => exists_congr fun shares => ?_
  rw [@eq_comm _ _ b]

/-- Every page of a build was parsed from one of its documents and resolved. -/
theorem exists_parsed_of_build {b : Build} {page : Node}
    (run : build documents registry partials = .ok b) (member : page ∈ b.pages) :
    ∃ env original, Env.of (Build.parsedPages documents) registry partials = .ok env ∧
      original ∈ Build.parsedPages documents ∧ env.ResolvesPage original page := by
  obtain ⟨env, shares, made, adds, rfl⟩ := build_eq_ok.mp run
  obtain ⟨share, inside, known⟩ := List.mem_filterMap.mp member
  obtain ⟨d, given, added⟩ := exists_left_of_forall₂ adds inside
  obtain ⟨original, parsed, resolved⟩ := added.exists_parsed known
  exact ⟨env, original, made, Build.mem_parsedPages.mpr ⟨d, given, parsed⟩, resolved⟩

/-- What lasts and holds of every node that is parsed holds of every node of a build. -/
theorem all_of_build {P : Node → Prop} {b : Build} (lasts : Node.Lasts P)
    (parsed : ∀ {file raw page}, Document.parsePage file raw = .ok page → page.All P)
    (run : build documents registry partials = .ok b)
    (templates : ∀ e ∈ partials, e.2.template.All P) : ∀ page ∈ b.pages, page.All P := by
  have given : ∀ page ∈ Build.parsedPages documents, page.All P := by
    intro page member
    obtain ⟨_, -, done⟩ := Build.mem_parsedPages.mp member
    exact parsed done
  intro page member
  obtain ⟨env, original, made, inside, resolved⟩ := exists_parsed_of_build run member
  exact lasts.resolvesPage (Env.all_of_env made given templates) resolved (given original inside)

end ViewCompiler
