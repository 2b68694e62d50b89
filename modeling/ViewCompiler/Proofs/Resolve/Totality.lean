import ViewCompiler.Proofs.Document.Parsed
import ViewCompiler.Proofs.Resolve.Index
import ViewCompiler.Proofs.Resolve.Run
import ViewCompiler.Proofs.Template.Placeholders

/-! Resolution never fails on well-formed pages, partials and trees: every look-up has an answer, every
filling a result, and what comes out is well-formed again. -/
namespace ViewCompiler

theorem Head.placed_of_isPlaced {h : Head} (placed : h.isPlaced) : h.Placed := by
  obtain ⟨loc, metadata⟩ := h
  cases loc with
  | proper place => exact ⟨place, rfl⟩
  | stray v => cases placed

namespace Partial

/-- A partial with a text as its name, a well-formed template, and texts as names of parameters. -/
def isSound (p : Partial) : Bool :=
  p.name.isStr && p.template.wellFormed && p.params.all (·.name.isStr)

theorem isSound_iff {p : Partial} :
    p.isSound ↔ p.name.isStr ∧ p.template.wellFormed ∧ ∀ param ∈ p.params, param.name.isStr := by
  simp [isSound, and_assoc]

def isSoundEntry (e : Value × Partial) : Bool := e.1.isStr && e.2.isSound

theorem defaults_total {p : Partial} (named : ∀ param ∈ p.params, param.name.isStr) :
    ∃ fs, p.defaults = .ok fs := by
  have each : ∀ param ∈ p.params.filter (·.hasDefault), param.name.isStr :=
    fun param member => named param (List.mem_of_mem_filter member)
  unfold defaults
  generalize p.params.filter (·.hasDefault) = params at each ⊢
  generalize ([] : Fields) = fs
  induction params generalizing fs with
  | nil => exact ⟨fs, rfl⟩
  | cons param params ih =>
    obtain ⟨name, text⟩ := Value.exists_of_isStr (each param (by simp))
    have known : param.name.key = .ok (.text name) := Value.key_eq_text.mpr text
    simp only [List.foldlM_cons, known, Except.ok_bind]
    exact ih (fun other member => each other (by simp [member])) _

theorem bindings_total {p : Partial} {args : Value} (sound : p.isSound) (mapping : args.isDict) :
    ∃ fs, p.bindings args = .ok fs := by
  obtain ⟨-, -, named⟩ := isSound_iff.mp sound
  obtain ⟨fs, declared⟩ := defaults_total named
  cases args with
  | dict given => exact ⟨_, by rw [bindings, declared]; rfl⟩
  | null | bool | int | float | str | list => cases mapping

end Partial

namespace Env

/-- All indexed pages and partials have the forms that they should have. -/
structure WellFormed (env : Env) : Prop where
  pages : ∀ page ∈ Entries.values env.pages, page.isSoundPage
  partials : ∀ p ∈ Entries.values env.partials, p.isSound

variable {env : Env} {busy : List String} {n m t : Node}

section lookups

variable {r : Ref} {c : Call} {p : Partial} {key : String}

theorem refTarget_total (formed : env.WellFormed) (sound : (Node.ref r).isSound) :
    ∃ answer, env.refTarget r = .ok answer := by
  obtain ⟨-, text, -⟩ := Node.isSound_ref.mp sound
  obtain ⟨name, named⟩ := Value.exists_of_isStr text
  cases indexed : Entries.get? env.pages (slug name) with
  | none => exact ⟨_, refTarget_eq_ok.mpr ⟨name, named, .inl ⟨indexed, rfl⟩⟩⟩
  | some page =>
    have sound := formed.pages page (Entries.mem_values_of_get? indexed)
    obtain ⟨_, ns, rfl, -, each⟩ := Node.exists_of_isSoundPage sound
    obtain ⟨found, search⟩ : ∃ found, Node.findInChildren r.sectionName (.proper ns) = .ok found :=
      Node.findSection_total fun m member =>
        Node.find_total (Node.isTree_of_wellFormed (each m member))
    exact ⟨_, refTarget_eq_ok.mpr ⟨name, named, .inr ⟨_, _, found, indexed, rfl, search, rfl⟩⟩⟩

theorem callTarget_total (sound : (Node.call c).isSound) :
    ∃ answer, env.callTarget c = .ok answer := by
  obtain ⟨-, text, -⟩ := Node.isSound_call.mp sound
  obtain ⟨name, named⟩ := Value.exists_of_isStr text
  have known : c.name.key = .ok (.text name) := Value.key_eq_text.mpr named
  cases indexed : env.partialAt (.text name) with
  | none => exact ⟨_, callTarget_eq_ok.mpr ⟨_, known, .inl ⟨indexed, rfl⟩⟩⟩
  | some p => exact ⟨_, callTarget_eq_ok.mpr ⟨_, known, .inr ⟨p, indexed, rfl⟩⟩⟩

theorem has_total {w : Widget} (sound : (Node.widget w).isSound) :
    ∃ known, env.registry.has w.type = .ok known := by
  obtain ⟨-, text, -, -⟩ := Node.isSound_widget.mp sound
  obtain ⟨name, named⟩ := Value.exists_of_isStr text
  have known : w.type.key = .ok (.text name) := Value.key_eq_text.mpr named
  exact ⟨_, by rw [Registry.has, known]; rfl⟩

theorem wellFormed_of_refTarget (formed : env.WellFormed)
    (found : env.refTarget r = .ok (.found key t)) : t.wellFormed := by
  obtain ⟨_, page, indexed, inside, named, -⟩ := mem_preorder_of_refTarget found
  have sound := formed.pages page (Entries.mem_values_of_get? indexed)
  obtain ⟨_, ns, rfl, -, each⟩ := Node.exists_of_isSoundPage sound
  rcases Node.mem_preorder.mp inside with rfl | ⟨m, member, below⟩
  · cases named
  · exact Node.wellFormed_of_mem_preorder (each m member) below

theorem filled_total (formed : env.WellFormed) (sound : (Node.call c).isSound)
    (found : env.callTarget c = .ok (.found key p)) : ∃ t, filled p c = .ok t ∧ t.wellFormed := by
  obtain ⟨name, -, indexed, -⟩ := callTarget_eq_found.mp found
  have known := formed.partials p (Entries.mem_values_of_get? indexed)
  obtain ⟨-, -, mapping⟩ := Node.isSound_call.mp sound
  obtain ⟨args, bound⟩ := Partial.bindings_total known mapping
  obtain ⟨t, walked, result⟩ := Node.substitute_total args (Partial.isSound_iff.mp known).2.1
  exact ⟨t, Except.bind_eq_ok.mpr ⟨args, bound, walked⟩, result⟩

end lookups

/-- The induction is on the length of the paths from the tree, and inside it on the tree. -/
theorem exists_resolves_within {k : Nat} (formed : env.WellFormed) (sound : n.wellFormed)
    (short : ∀ keys, env.Nests busy n keys → keys.length < k) :
    ∃ m, env.Resolves busy n m ∧ m.wellFormed := by
  induction k generalizing busy n with
  | zero => exact absurd (short [] .done) (Nat.not_lt_zero _)
  | succ k deeper =>
    have enter : ∀ {n key t}, env.Enters busy n key t → t.wellFormed →
        (∀ keys, env.Nests busy n keys → keys.length < k + 1) →
        ∃ m, env.Resolves (key :: busy) t m ∧ m.wellFormed := by
      intro n key t enters sound short
      apply deeper sound
      intro keys nests
      exact Nat.lt_of_succ_lt_succ (short _ (.enter enters nests))
    induction n using Node.induction with
    | _ n ih =>
    obtain ⟨here, parts⟩ := Node.wellFormed_iff.mp sound
    by_cases container : n.isContainer
    · obtain ⟨ms, pairs⟩ := exists_forall₂ fun m member =>
        ih m member (parts m member) fun keys nests => short keys (nests.of_mem_subtrees member)
      obtain ⟨length, related⟩ := List.forall₂_iff_zip.mp pairs
      refine ⟨n.withSubtrees ms, .container container (Node.passable_of_isSound here) length
        fun member => (related member).1, ?_⟩
      refine Node.wellFormed_withSubtrees container here length.symm fun m member => ?_
      obtain ⟨_, -, both⟩ := exists_left_of_forall₂ pairs member
      exact both.2
    · cases n with
      | ref r =>
        have placed : r.toHead.Placed := Head.placed_of_isPlaced (Node.isSound_ref.mp here).1
        obtain ⟨answer, found⟩ := refTarget_total formed here
        cases answer with
        | missing code message => exact ⟨_, .missingRef found placed, sound⟩
        | found key target =>
          by_cases entered : key ∈ busy
          · exact ⟨_, .circularRef found entered placed, sound⟩
          · obtain ⟨m, expanded, result⟩ := enter (.ref (by simp) found entered)
              (wellFormed_of_refTarget formed found) short
            exact ⟨m, .ref found entered placed expanded, result⟩
      | call c =>
        have placed : c.toHead.Placed := Head.placed_of_isPlaced (Node.isSound_call.mp here).1
        obtain ⟨answer, found⟩ := callTarget_total here
        cases answer with
        | missing code message => exact ⟨_, .missingCall found placed, sound⟩
        | found key p =>
          by_cases entered : key ∈ busy
          · exact ⟨_, .circularCall found entered placed, sound⟩
          · obtain ⟨t, template, filledSound⟩ := filled_total formed here found
            obtain ⟨m, expanded, result⟩ := enter (.call (by simp) found entered template)
              filledSound short
            exact ⟨m, .call found entered template placed expanded, result⟩
      | widget w =>
        obtain ⟨known, looked⟩ := has_total here
        have placed : w.toHead.Placed := Head.placed_of_isPlaced (Node.isSound_widget.mp here).1
        exact ⟨_, .widget looked fun _ => placed, sound⟩
      | slot s => exact ⟨_, .slot, sound⟩
      | page | custom | stray => cases here
      | sect | frag | cond | loop => exact absurd rfl container

/-- With well-formed pages and partials every well-formed tree is resolved, and stays well-formed. -/
theorem exists_resolves (formed : env.WellFormed) (sound : n.wellFormed) :
    ∃ m, env.Resolves busy n m ∧ m.wellFormed := by
  apply exists_resolves_within formed sound
  intro keys nests
  exact Nat.lt_succ_of_le nests.length_le_budget

theorem exists_resolvesPage (formed : env.WellFormed) (sound : n.isSoundPage) :
    ∃ m, env.ResolvesPage n m ∧ m.isSoundPage := by
  obtain ⟨p, ns, rfl, named, each⟩ := Node.exists_of_isSoundPage sound
  have inside : ∀ n ∈ ns, ∃ m, env.Resolves [] n m ∧ m.wellFormed :=
    fun n member => exists_resolves formed (each n member)
  obtain ⟨ms, pairs⟩ := exists_forall₂ inside
  refine ⟨.page p (.proper ms), .intro trivial (pairs.imp fun _ _ both => both.1), ?_⟩
  simp only [Node.isSoundPage, named, Bool.true_and, List.all_eq_true]
  intro m member
  obtain ⟨_, -, both⟩ := exists_left_of_forall₂ pairs member
  exact both.2

section index

variable {pages : List Node} {registry : Registry} {partials : List (Value × Partial)}

theorem indexPages_total (sound : ∀ page ∈ pages, page.isSoundPage) :
    ∃ index, indexPages pages = .ok index := by
  have each : ∀ page ∈ pages, ∃ e : String × Node, (·, page) <$> page.nameSlug = .ok e := by
    intro page member
    obtain ⟨p, ns, rfl, named, -⟩ := Node.exists_of_isSoundPage (sound page member)
    obtain ⟨name, text⟩ := Value.exists_of_isStr named
    exact ⟨(slug name, _), by rw [Node.nameSlug, text]; rfl⟩
  obtain ⟨es, pairs⟩ := exists_forall₂ each
  have slugs := Except.mapM_eq_ok.mpr pairs
  exact ⟨Entries.ofPairs es, by rw [indexPages, slugs]; rfl⟩

theorem foldlM_add_total (named : ∀ e ∈ partials, e.1.isStr) (start : PartialIndex) :
    ∃ index, partials.foldlM (fun index e => PartialIndex.add index e.1 e.2) start = .ok index := by
  induction partials generalizing start with
  | nil => exact ⟨start, rfl⟩
  | cons e partials ih =>
    obtain ⟨first, later⟩ := List.forall_mem_cons.mp named
    obtain ⟨name, text⟩ := Value.exists_of_isStr first
    rw [List.foldlM_cons, text]
    exact ih later _

theorem ofEntries_total (sound : ∀ e ∈ partials, Partial.isSoundEntry e) :
    ∃ index, PartialIndex.ofEntries partials = .ok index :=
  foldlM_add_total (fun e member => (Bool.and_eq_true_iff.mp (sound e member)).1) []

theorem of_total (registry : Registry) (pagesSound : ∀ page ∈ pages, page.isSoundPage)
    (partialsSound : ∀ e ∈ partials, Partial.isSoundEntry e) :
    ∃ env, Env.of pages registry partials = .ok env ∧ env.WellFormed := by
  obtain ⟨index, indexed⟩ := indexPages_total pagesSound
  obtain ⟨others, listed⟩ := ofEntries_total partialsSound
  have made : Env.of pages registry partials = .ok ⟨index, others, registry⟩ := by
    rw [Env.of, indexed, listed]
    rfl
  refine ⟨_, made, fun page member => pagesSound page (mem_pages_of_env made member), ?_⟩
  intro p member
  obtain ⟨e, given, rfl⟩ := mem_partials_of_env made member
  have known := partialsSound e given
  simp only [Partial.isSoundEntry, Bool.and_eq_true] at known
  exact known.2

/-- Well-formed pages and partials are resolved. -/
theorem resolve_total (pagesSound : ∀ page ∈ pages, page.isSoundPage)
    (partialsSound : ∀ e ∈ partials, Partial.isSoundEntry e) :
    ∃ r, resolve pages registry partials = .ok r ∧ ∀ page ∈ r.pages, page.isSoundPage := by
  obtain ⟨env, indexed, formed⟩ := of_total registry pagesSound partialsSound
  obtain ⟨resolved, pairs⟩ := exists_forall₂ fun page member =>
    exists_resolvesPage formed (pagesSound page member)
  refine ⟨⟨resolved, resolved.flatMap env.errorsOf⟩, resolve_eq_ok.mpr
    ⟨env, indexed, pairs.imp fun _ _ both => both.1, rfl⟩, fun page member => ?_⟩
  obtain ⟨_, -, both⟩ := exists_left_of_forall₂ pairs member
  exact both.2

end index

end Env

namespace Document

/-- A partial that is parsed has texts as the names of its parameters, and a well-formed template. -/
theorem isSound_of_parsePartial {file raw : Value} {p : Partial}
    (done : parsePartial file raw = .ok p) : p.isSound := by
  obtain ⟨name, template, params, rfl⟩ := exists_of_parsePartial done
  refine Partial.isSound_iff.mpr ⟨rfl, (parsed_parseChild file template).wellFormed, ?_⟩
  intro param member
  obtain ⟨v, -, declared⟩ := List.mem_filterMap.mp member
  unfold param? at declared
  split at declared
  · split at declared
    · cases declared
      rfl
    · cases declared
  · cases declared

theorem isSoundEntry_of_parsePartial {e : Value × Partial}
    (parsed : e.1.isStr ∧ ∃ file raw, parsePartial file raw = .ok e.2) : Partial.isSoundEntry e := by
  obtain ⟨named, _, _, done⟩ := parsed
  simp only [Partial.isSoundEntry, named, isSound_of_parsePartial done, Bool.and_self]

/-- Pages that are parsed are resolved, with partials that are parsed and go by texts. -/
theorem resolve_total_of_parsed {pages : List Node} (registry : Registry)
    {partials : List (Value × Partial)}
    (pagesParsed : ∀ page ∈ pages, ∃ file raw, parsePage file raw = .ok page)
    (partialsParsed : ∀ e ∈ partials, e.1.isStr ∧ ∃ file raw, parsePartial file raw = .ok e.2) :
    ∃ r, resolve pages registry partials = .ok r := by
  have pagesSound : ∀ page ∈ pages, page.isSoundPage := by
    intro page member
    obtain ⟨_, _, parsed⟩ := pagesParsed page member
    exact isSoundPage_of_parsePage parsed
  have partialsSound : ∀ e ∈ partials, Partial.isSoundEntry e :=
    fun e member => isSoundEntry_of_parsePartial (partialsParsed e member)
  obtain ⟨r, run, -⟩ := Env.resolve_total pagesSound partialsSound
  exact ⟨r, run⟩

end Document
end ViewCompiler
