import ViewCompiler.Proofs.Build.Shares
import ViewCompiler.Proofs.Validate.Totality

/-! Builds come to an end unless a document is stuck. What is refused is reported and left out, and
whatever is parsed is resolved and validated; a stuck document takes all others with it. -/
namespace ViewCompiler

namespace Traced

variable {α β : Type}

theorem result_bind (x : Traced α) (f : α → Traced β) :
    (x >>= f).result = x.result >>= fun a => (f a).result := by
  obtain ⟨events, result⟩ := x
  cases result <;> rfl

theorem result_mapM (f : α → Traced β) (as : List α) :
    (as.mapM f).result = as.mapM fun a => (f a).result := by
  induction as with
  | nil => rfl
  | cons a as ih => simp only [List.mapM_cons, result_bind, result_pure, ih]; rfl

end Traced

namespace Build

variable {documents : Documents} {registry : Registry} {partials : List (Value × Partial)}
  {env : Env} {file raw : Value}

/-- A document that is not stuck becomes a page or fails. -/
theorem exists_reads (file : Value) (free : Document.isStuck raw = false) :
    ∃ o, Reads file raw o := by
  rcases Document.parsePage_cases file raw with
    ⟨-, -, flaw, refused⟩ | ⟨-, stuck, -⟩ | ⟨-, -, n, parsed⟩
  · exact ⟨_, .failure refused⟩
  · rw [free] at stuck
    cases stuck
  · exact ⟨_, .page parsed⟩

theorem result_readDocument_of_stuck (stuck : Document.isStuck raw) :
    (readDocument file raw).result = .error .notSequence := by
  rcases Document.parsePage_cases file raw with ⟨-, free, -⟩ | ⟨-, -, stops⟩ | ⟨-, free, -⟩
  · rw [stuck] at free
    cases free
  · simp only [readDocument, Document.result_readPage, stops]
    rw [← bind_pure_comp, Traced.result_bind, Document.result_readPage, stops]
    rfl
  · rw [stuck] at free
    cases free

/-- A stuck document stops the reading of all. -/
theorem result_readDocuments_of_stuck (stuck : ∃ d ∈ documents, Document.isStuck d.2) :
    (readDocuments documents).result = .error .notSequence := by
  have stops : documents.mapM (fun d => (readDocument d.1 d.2).result) = .error .notSequence := by
    induction documents with
    | nil => simp at stuck
    | cons d documents ih =>
      rw [List.mapM_cons]
      cases here : Document.isStuck d.2 with
      | true =>
        rw [result_readDocument_of_stuck here]
        rfl
      | false =>
        -- What was read before the stuck document is lost with the fault.
        obtain ⟨o, reads⟩ := exists_reads d.1 here
        have read : (readDocument d.1 d.2).result = .ok o.page? :=
          (gives_readDocument.mpr ⟨o, reads, rfl, rfl⟩).1
        have later : ∃ d ∈ documents, Document.isStuck d.2 := by simpa [here] using stuck
        rw [read, Except.ok_bind, ih later]
        rfl
  rw [readDocuments, Traced.result_bind, Traced.result_mapM, stops]
  rfl

/-- A document that is not stuck has a share in every well-formed environment. -/
theorem exists_adds (file : Value) (formed : env.WellFormed) (free : Document.isStuck raw = false) :
    ∃ share, Adds env file raw share := by
  obtain ⟨outcome, reads⟩ := exists_reads file free
  cases reads with
  | failure refused => exact ⟨_, _, .failure refused, .failure⟩
  | page parsed =>
    obtain ⟨m, run, sound⟩ :=
      Env.exists_resolvesPage formed (Document.isSoundPage_of_parsePage parsed)
    obtain ⟨_, p, ns, rfl, located, -⟩ := Document.exists_of_parsePage parsed
    have resolved := Env.gives_resolvePage.mpr ⟨run, rfl⟩
    obtain @⟨_, _, ms, -, -⟩ := run
    obtain ⟨_, _, same, -, each⟩ := Node.exists_of_isSoundPage sound
    cases same
    have placed : p.toHead.Placed := by
      rw [located]
      exact ⟨_, rfl⟩
    obtain ⟨findings, checked⟩ := validate_total env.registry placed each
    exact ⟨_, _, .page parsed, .page resolved checked⟩

end Build

/-- Documents that are not stuck are built with all parsed partials. -/
theorem build_total {documents : Documents} {partials : List (Value × Partial)}
    (registry : Registry) (free : ∀ d ∈ documents, Document.isStuck d.2 = false)
    (parsed : ∀ e ∈ partials, e.1.isStr ∧ ∃ file raw, Document.parsePartial file raw = .ok e.2) :
    ∃ b, build documents registry partials = .ok b := by
  have pagesSound : ∀ page ∈ Build.parsedPages documents, page.isSoundPage := by
    intro page member
    obtain ⟨d, -, done⟩ := Build.mem_parsedPages.mp member
    exact Document.isSoundPage_of_parsePage done
  have partialsSound : ∀ e ∈ partials, Partial.isSoundEntry e :=
    fun e member => Document.isSoundEntry_of_parsePartial (parsed e member)
  obtain ⟨env, made, formed⟩ := Env.of_total registry pagesSound partialsSound
  obtain ⟨shares, adds⟩ := exists_forall₂ fun d member =>
    Build.exists_adds d.1 formed (free d member)
  exact ⟨_, build_eq_ok.mpr ⟨env, shares, made, adds, rfl⟩⟩

theorem build_of_stuck {documents : Documents} (registry : Registry)
    (partials : List (Value × Partial)) (stuck : ∃ d ∈ documents, Document.isStuck d.2) :
    build documents registry partials = .error .notSequence := by
  rw [build, buildTraced, Traced.result_bind, Build.run, Traced.result_bind,
    Build.result_readDocuments_of_stuck stuck]
  rfl

/-- Where no document is stuck, each becomes its page or a failure that names its file, in the order
of the documents, and the build returns. A stuck document stops the reading of all documents, and
the build. -/
theorem outcomes_of_documents (documents : Documents) (registry : Registry)
    (partials : List (Value × Partial))
    (parsed : ∀ e ∈ partials, e.1.isStr ∧ ∃ file raw, Document.parsePartial file raw = .ok e.2) :
    ((∀ d ∈ documents, Document.isStuck d.2 = false) →
      (∃ outcomes, List.Forall₂ (fun d o => Build.Reads d.1 d.2 o) documents outcomes ∧
        (Build.readDocuments documents).Gives (outcomes.filterMap Build.Outcome.failure?)
          (outcomes.filterMap Build.Outcome.page?)) ∧
      ∃ b, build documents registry partials = .ok b) ∧
    ((∃ d ∈ documents, Document.isStuck d.2) →
      (Build.readDocuments documents).result = .error .notSequence ∧
        build documents registry partials = .error .notSequence) := by
  constructor
  · intro free
    obtain ⟨outcomes, reads⟩ := exists_forall₂ fun d member => Build.exists_reads d.1 (free d member)
    exact ⟨⟨outcomes, reads, Build.gives_readDocuments.mpr ⟨outcomes, reads, rfl, rfl⟩⟩,
      build_total registry free parsed⟩
  · intro stuck
    exact ⟨Build.result_readDocuments_of_stuck stuck, build_of_stuck registry partials stuck⟩

def loaderDocument (params : Value) : Value := .dict [
  ("name", .str "Items"), ("type", .str "page"), ("route", .str "/items"),
  ("loader", .dict [("source", .str "items"), ("params", params)])]

theorem outcomes_of_documents_loader :
    (∃ b, build [(.str "broken.yaml", .list []), (.str "items.yaml", loaderDocument .null)] {} [] =
      .ok b) ∧
    build [(.str "bad.yaml", loaderDocument (.int 5)), (.str "items.yaml", loaderDocument .null)]
      {} [] = .error .notSequence := by
  have returns := outcomes_of_documents
    [(.str "broken.yaml", .list []), (.str "items.yaml", loaderDocument .null)] {} []
    (fun _ absurd => by cases absurd)
  have stops := outcomes_of_documents
    [(.str "bad.yaml", loaderDocument (.int 5)), (.str "items.yaml", loaderDocument .null)] {} []
    (fun _ absurd => by cases absurd)
  exact ⟨(returns.1 (by decide)).2, (stops.2 (by decide)).2⟩

end ViewCompiler
