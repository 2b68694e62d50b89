import ViewCompiler.Build.Envelope
import ViewCompiler.Proofs.Build.Shares
import ViewCompiler.Proofs.Export.Origin
import ViewCompiler.Proofs.Export.RoundTrip

/-! Written nodes and builds are read back as they were, and each as what it is. -/
namespace ViewCompiler

variable {kinds : Kinds}

section runs

variable {registry : Registry} {partials : List (Value × Partial)} {pages : List Node}

theorem Env.ResolvesPage.isPage {env : Env} {n m : Node} (resolved : env.ResolvesPage n m) :
    m.IsPage := by
  obtain ⟨_, _⟩ := resolved
  exact ⟨_, _, rfl⟩

theorem storable_of_resolve {r : Resolution}
    (run : resolve pages registry partials = .ok r) (stored : ∀ page ∈ pages, page.Storable kinds)
    (templates : ∀ e ∈ partials, e.2.template.Storable kinds) :
    ∀ page ∈ r.pages, page.Storable kinds ∧ page.IsPage := by
  intro page member
  refine ⟨Env.all_of_resolve Node.lasts_isStorable run stored templates page member, ?_⟩
  obtain ⟨_, -, pairs, -⟩ := Env.resolve_eq_ok.mp run
  obtain ⟨_, -, resolved⟩ := exists_left_of_forall₂ pairs member
  exact resolved.isPage

/-- Every page of a build was parsed and resolved. -/
theorem storable_of_build {documents : Documents} {b : Build}
    (run : build documents registry partials = .ok b)
    (templates : ∀ e ∈ partials, e.2.template.Storable kinds) :
    ∀ page ∈ b.pages, page.Storable kinds ∧ page.IsPage := by
  intro page member
  obtain ⟨_, _, -, -, resolved⟩ := exists_parsed_of_build run member
  exact ⟨all_of_build Node.lasts_isStorable (fun parsed => (Document.storable_parsePage parsed).1) run
    templates page member, resolved.isPage⟩

end runs

namespace Build

theorem readPage_toValue {page : Node} {index : Nat} (known : kinds.Known)
    (storable : page.Storable kinds) (isPage : page.IsPage) :
    readPage kinds index page.toValue = .ok page := by
  obtain ⟨p, sections, rfl⟩ := isPage
  rw [readPage, Node.ofValue_toValue known storable rfl]
  rfl

theorem isPage_of_readPage {page : Node} {index : Nat} {v : Value}
    (read : readPage kinds index v = .ok page) : page.Storable kinds ∧ page.IsPage := by
  obtain ⟨n, made, rest⟩ := Except.bind_eq_ok.mp read
  cases n with
  | page p sections =>
    obtain rfl := Except.pure_eq_ok.mp rest
    exact ⟨(Node.storable_of_ofValue made).1, p, sections, rfl⟩
  | sect | widget | ref | call | slot | cond | loop | frag | custom | stray => cases rest

theorem read_diagnostics (ds : List Diagnostic) :
    (ds.map Diagnostic.toValue).mapM Diagnostic.read = .ok ds := by
  rw [List.mapM_map]
  exact Except.mapM_eq_ok.mpr (List.forall₂_same.mpr fun d _ => rfl)

theorem read_pages {pages : List Node} (known : kinds.Known)
    (each : ∀ page ∈ pages, page.Storable kinds ∧ page.IsPage) :
    (pages.map Node.toValue).zipIdx.mapM (fun page => readPage kinds page.2 page.1)
      = .ok pages := by
  generalize 0 = index
  induction pages generalizing index with
  | nil => rfl
  | cons page pages ih =>
    obtain ⟨storable, isPage⟩ := each page (by simp)
    rw [List.map_cons, List.zipIdx_cons, List.mapM_cons,
      readPage_toValue known storable isPage,
      ih (fun other member => each other (by simp [member]))]
    rfl

/-- A build is read from an envelope with the right format and version, in it from the pages and the
diagnostics alone. -/
theorem ofValue_eq_ok {v : Value} {b : Build} :
    ofValue kinds v = .ok b ↔ ∃ fs : Fields, v = .dict fs ∧ (fs.getD "format").isText envelopeFormat ∧
      (fs.getD "version").same (.int envelopeVersion) ∧
      ∃ items, listed fs "pages" = .ok items ∧
      ∃ pages, items.zipIdx.mapM (fun page => readPage kinds page.2 page.1) = .ok pages ∧
      ∃ reports, listed fs "diagnostics" = .ok reports ∧
      ∃ diagnostics, reports.mapM Diagnostic.read = .ok diagnostics ∧
      b = ⟨pages, ⟨diagnostics⟩⟩ := by
  unfold ofValue
  cases v with
  | dict fs =>
    simp only [Value.lookup, Value.fields, Except.ok_bind, Value.dict.injEq, exists_eq_left']
    by_cases format : (Fields.getD fs "format").isText envelopeFormat
    · by_cases version : (Fields.getD fs "version").same (.int envelopeVersion)
      · simp only [format, version, Bool.not_true, Bool.false_eq_true, if_false, true_and,
          Except.bind_eq_ok, Except.pure_eq_ok, @eq_comm Build]
      · simp [format, version, throw, throwThe, MonadExceptOf.throw, bind, Except.bind]
    · simp [format, throw, throwThe, MonadExceptOf.throw, bind, Except.bind]
  | null | bool | int | float | str | list => simp [Value.lookup, bind, Except.bind]

/-- A build of storable pages is imported as it was exported. -/
theorem ofValue_toValue {b : Build} (known : kinds.Known)
    (each : ∀ page ∈ b.pages, page.Storable kinds ∧ page.IsPage) :
    ofValue kinds b.toValue = .ok b := by
  have format : Value.isText (.str envelopeFormat) envelopeFormat := Value.same_str.mpr rfl
  have version : Value.same (.int envelopeVersion) (.int envelopeVersion) := by
    simp [Value.same, Value.key?]
  exact ofValue_eq_ok.mpr ⟨_, rfl, format, version, _, rfl, b.pages, read_pages known each,
    _, rfl, b.report.diagnostics, read_diagnostics b.report.diagnostics, rfl⟩

theorem storable_of_ofValue {v : Value} {b : Build} (done : ofValue kinds v = .ok b) :
    ∀ page ∈ b.pages, page.Storable kinds ∧ page.IsPage := by
  obtain ⟨_, -, -, -, _, -, pages, read, _, -, _, -, rfl⟩ := ofValue_eq_ok.mp done
  intro page member
  obtain ⟨_, -, one⟩ := exists_left_of_forall₂ (Except.mapM_eq_ok.mp read) member
  exact isPage_of_readPage one

end Build

section origins

/-- The nodes that a program can hold: parsed from a document, imported, resolved, or parts of these. -/
inductive Node.Arises (kinds : Kinds) : Node → Prop
  | child {file raw} : Arises kinds (Document.parseChild file raw)
  | page {file raw n} (parsed : Document.parsePage file raw = .ok n) : Arises kinds n
  | imported {v n} (read : Node.ofValue kinds v = .ok n) : Arises kinds n
  | resolved {pages registry partials r page} (run : resolve pages registry partials = .ok r)
      (given : ∀ page ∈ pages, Arises kinds page)
      (templates : ∀ e ∈ partials, Arises kinds e.2.template) (member : page ∈ r.pages) :
      Arises kinds page
  | part {n m} (whole : Arises kinds n) (inside : m ∈ n.preorder) (node : m.kind?.isSome) :
      Arises kinds m

/-- The builds that a program can hold: made from documents, or imported. -/
inductive Build.Arises (kinds : Kinds) : Build → Prop
  | built {documents registry partials b} (run : build documents registry partials = .ok b)
      (templates : ∀ e ∈ partials, e.2.template.Arises kinds) : Arises kinds b
  | imported {v b} (read : Build.ofValue kinds v = .ok b) : Arises kinds b

theorem Node.IsPage.isSome_kind? {n : Node} (isPage : n.IsPage) : n.kind?.isSome := by
  obtain ⟨p, sections, rfl⟩ := isPage
  rfl

theorem Node.Arises.storable {n : Node} (arises : n.Arises kinds) :
    n.Storable kinds ∧ n.kind?.isSome := by
  induction arises with
  | @child file raw =>
    have parsed := Document.parsed_parseChild file raw
    exact ⟨parsed.storable, parsed.isSome_kind?⟩
  | page parsed =>
    obtain ⟨storable, isPage⟩ := Document.storable_parsePage parsed
    exact ⟨storable, isPage.isSome_kind?⟩
  | imported read => exact storable_of_ofValue read
  | resolved run _ _ member given templates =>
    obtain ⟨storable, isPage⟩ := storable_of_resolve run (fun page member => (given page member).1)
      (fun e member => (templates e member).1) _ member
    exact ⟨storable, isPage.isSome_kind?⟩
  | part _ inside node ih => exact ⟨All.of_mem_preorder ih.1 inside, node⟩

theorem Build.Arises.storable {b : Build} (arises : b.Arises kinds) :
    ∀ page ∈ b.pages, page.Storable kinds ∧ page.IsPage := by
  cases arises with
  | built run templates =>
    exact storable_of_build run fun e member => (templates e member).storable.1
  | imported read => exact storable_of_ofValue read

end origins

section dispatch

/-- What a node is exported as is read as a node. -/
theorem Written.ofValue_exported {n : Node} {v : Value} (done : n.exported = .ok v) :
    Written.ofValue kinds v = Written.node <$> Node.ofValue kinds v := by
  have node : n.kind?.isSome := by
    cases n with
    | stray v => cases done
    | page | sect | widget | ref | call | slot | cond | loop | frag | custom => rfl
  obtain ⟨kind, named⟩ := Option.isSome_iff_exists.mp node
  obtain ⟨fs, written, -, bare⟩ := Node.exists_fields_of_kind? named
  obtain rfl := Except.ok.inj ((Node.exported_eq_ok node).symm.trans done)
  rw [written]
  simp only [ofValue, bare]
  rfl

/-- What a build is written as is read as a build. -/
theorem Written.ofValue_build (b : Build) :
    Written.ofValue kinds b.toValue = Written.build <$> Build.ofValue kinds b.toValue := rfl

end dispatch

/-- Export and import are inverse on whatever a program can hold. What is exported as a node is never read
as a build, nor a build as a node. -/
theorem export_import (known : kinds.Known) :
    (∀ n : Node, n.Arises kinds → n.exported = .ok n.toValue ∧
      Node.ofValue kinds n.toValue = .ok n ∧
      Written.ofValue kinds n.toValue = .ok (.node n)) ∧
    (∀ b : Build, b.Arises kinds → Build.ofValue kinds b.toValue = .ok b ∧
      Written.ofValue kinds b.toValue = .ok (.build b)) ∧
    (∀ (n : Node) (v : Value) (b : Build), n.exported = .ok v →
      Written.ofValue kinds v ≠ .ok (.build b)) ∧
    (∀ (b : Build) (n : Node), Written.ofValue kinds b.toValue ≠ .ok (.node n)) ∧
    ∀ (w : Written) (indent : Option Nat), Json.read (w.toJson indent) = .ok w.toValue →
      Written.ofJson kinds (w.toJson indent) = Written.ofValue kinds w.toValue := by
  refine ⟨fun n arises => ?_, fun b arises => ?_, fun n v b done absurd => ?_,
    fun b n absurd => ?_, fun w indent same => ?_⟩
  · obtain ⟨storable, node⟩ := arises.storable
    have exported := Node.exported_eq_ok node
    have back := Node.ofValue_toValue known storable node
    refine ⟨exported, back, ?_⟩
    rw [Written.ofValue_exported exported, back]
    rfl
  · have back := Build.ofValue_toValue known arises.storable
    refine ⟨back, ?_⟩
    rw [Written.ofValue_build, back]
    rfl
  · rw [Written.ofValue_exported done] at absurd
    obtain ⟨_, -, same⟩ := Except.map_eq_ok.mp absurd
    cases same
  · rw [Written.ofValue_build] at absurd
    obtain ⟨_, -, same⟩ := Except.map_eq_ok.mp absurd
    cases same
  · rw [Written.ofJson, same]
    rfl

def listDocument : Value := .dict [
  ("name", .str "List"), ("type", .str "page"), ("route", .str "/list"),
  ("loader", .dict [("source", .str "items"), ("params", .list [.str "id"])]),
  ("sections", .list [.dict [
    ("each", .str "items"), ("as", .str "row"), ("template", .dict [("h1", .str "Row")])]])]

theorem export_import_listDocument :
    ∃ page, Document.parsePage (.str "list.yaml") listDocument = .ok page ∧
      Node.ofValue Kinds.builtin page.toValue = .ok page ∧
      ∃ b, build [(.str "list.yaml", listDocument)] {} [] = .ok b ∧
        Build.ofValue Kinds.builtin b.toValue = .ok b := by
  obtain ⟨nodes, builds, -⟩ := export_import .builtin
  obtain ⟨page, parsed⟩ : ∃ page, Document.parsePage (.str "list.yaml") listDocument = .ok page :=
    ⟨_, rfl⟩
  have returns : (build [(.str "list.yaml", listDocument)] {} []).toOption.isSome := by
    decide +kernel
  refine ⟨page, parsed, (nodes page (.page parsed)).2.1, ?_⟩
  cases built : build [(.str "list.yaml", listDocument)] {} [] with
  | error fault =>
    rw [built] at returns
    cases returns
  | ok b => exact ⟨b, rfl, (builds b (.built built fun _ absurd => by cases absurd)).1⟩

end ViewCompiler
