import ViewCompiler.Build
import ViewCompiler.Proofs.Document.Outcome

/-! The documents of a build. Each adds a page or a failure that names its file, in the order of the
documents, and none of them keeps the others from being read. -/
namespace ViewCompiler

namespace Document

variable {file raw : Value} {page : Node} {ds : List Diagnostic}

/-- Reading a page is parsing it. -/
theorem result_readPage (file raw : Value) : (readPage file raw).result = parsePage file raw := by
  rcases pageFields_cases file raw with ⟨-, flaw, fails⟩ | ⟨-, fs, -, read⟩
  · rw [readPage, fails, parsePage, fails]
    rfl
  · rw [readPage, read, Traced.ofExcept_ok_bind]
    cases parsePage file raw <;> rfl

theorem gives_logMisfits {misfits : List Value} {u : Unit} :
    (logMisfits file misfits).Gives ds u ↔ ds = [] := by
  simp [logMisfits, Traced.Gives, Traced.emit, Traced.diagnostics, List.filterMap_map, eq_comm]

/-- A page that is read leaves no diagnostics. -/
theorem gives_readPage :
    (readPage file raw).Gives ds page ↔ parsePage file raw = .ok page ∧ ds = [] := by
  rcases pageFields_cases file raw with ⟨-, flaw, fails⟩ | ⟨-, fs, -, read⟩
  · have refused : parsePage file raw = .error (.badDocument ⟨file, flaw⟩) := by
      rw [parsePage, fails]
      rfl
    simp [readPage, Traced.gives_ofExcept_bind, fails, refused]
  · simp [readPage, Traced.gives_bind, read, gives_logMisfits, Traced.gives_map, and_comm]

end Document

namespace Build

inductive Outcome where
  | page (n : Node)
  | failure (d : Diagnostic)

namespace Outcome

def page? : Outcome → Option Node
  | .page n => some n
  | .failure _ => none

def failure? : Outcome → Option Diagnostic
  | .page _ => none
  | .failure d => some d

end Outcome

def parseFailure (error : DocumentError) : Diagnostic :=
  Diagnostic.make .error .parseError error.message { file := error.file }

/-- A document becomes the page that is parsed, or fails for the flaw for which it is refused. -/
inductive Reads (file raw : Value) : Outcome → Prop
  | page {n} (parsed : Document.parsePage file raw = .ok n) : Reads file raw (.page n)
  | failure {flaw} (refused : Document.parsePage file raw = .error (.badDocument ⟨file, flaw⟩)) :
      Reads file raw (.failure (parseFailure ⟨file, flaw⟩))

variable {file raw : Value} {documents : Documents} {ds : List Diagnostic}

theorem gives_readDocument {page? : Option Node} :
    (readDocument file raw).Gives ds page? ↔
      ∃ o, Reads file raw o ∧ page? = o.page? ∧ ds = o.failure?.toList := by
  simp only [readDocument, Document.result_readPage]
  rcases Document.parsePage_cases file raw with
    ⟨-, -, flaw, refused⟩ | ⟨-, -, stops⟩ | ⟨-, -, n, parsed⟩
  · simp only [refused, Traced.gives_bind, Traced.gives_log, Traced.gives_pure]
    constructor
    · rintro ⟨_, _, _, rfl, ⟨_, _, _, noted, ⟨rfl, rfl⟩, rfl⟩, rfl⟩
      exact ⟨_, .failure refused, rfl, by rw [← noted.2]; rfl⟩
    · rintro ⟨_, ⟨parsed⟩ | ⟨again⟩, rfl, rfl⟩
      · rw [refused] at parsed
        cases parsed
      · rw [refused] at again
        cases again
        exact ⟨(), _, _, rfl, ⟨(), _, _, ⟨rfl, rfl⟩, ⟨rfl, rfl⟩, rfl⟩, rfl⟩
  · simp only [stops, Traced.gives_map, Document.gives_readPage]
    constructor
    · rintro ⟨_, ⟨parsed, -⟩, -⟩
      cases parsed
    · rintro ⟨_, ⟨parsed⟩ | ⟨refused⟩, -, -⟩
      · rw [stops] at parsed
        cases parsed
      · rw [stops] at refused
        cases refused
  · simp only [parsed, Traced.gives_map, Document.gives_readPage]
    constructor
    · rintro ⟨_, ⟨same, rfl⟩, rfl⟩
      cases same
      exact ⟨_, .page parsed, rfl, rfl⟩
    · rintro ⟨_, ⟨again⟩ | ⟨refused⟩, rfl, rfl⟩
      · rw [parsed] at again
        exact ⟨_, ⟨again, rfl⟩, rfl⟩
      · rw [parsed] at refused
        cases refused

/-- Reading the documents gives the pages of all outcomes, and leaves their failures. -/
theorem gives_readDocuments {pages : List Node} :
    (readDocuments documents).Gives ds pages ↔ ∃ outcomes,
      List.Forall₂ (fun d o => Reads d.1 d.2 o) documents outcomes ∧
        pages = outcomes.filterMap Outcome.page? ∧ ds = outcomes.filterMap Outcome.failure? := by
  have known (outcomes : List Outcome) :
      ((outcomes.map fun o => (o.page?, o.failure?.toList)).map Prod.fst).filterMap id =
        outcomes.filterMap Outcome.page? ∧
      (outcomes.map fun o => (o.page?, o.failure?.toList)).flatMap Prod.snd =
        outcomes.filterMap Outcome.failure? := by
    simp [List.flatMap_map, List.filterMap_eq_flatMap_toList]
  simp only [readDocuments, bind_pure_comp, Traced.gives_map, Traced.gives_mapM_iff,
    gives_readDocument, ← Prod.ext_iff (y := (_, _)), forall₂_exists_map]
  constructor
  · rintro ⟨_, ⟨_, ⟨outcomes, read, rfl⟩, rfl, rfl⟩, rfl⟩
    exact ⟨outcomes, read, known outcomes⟩
  · rintro ⟨outcomes, read, rfl, rfl⟩
    exact ⟨_, ⟨_, ⟨outcomes, read, rfl⟩, rfl, (known outcomes).2.symm⟩, (known outcomes).1⟩

end Build
end ViewCompiler
