import ViewCompiler.Proofs.Document.Parsed
import ViewCompiler.Proofs.Resolve.Order
import ViewCompiler.Proofs.Slug.NormalForm

/-! Addresses of sections. The first section of a name in a page is reached by the page's name and
by its slug: a target is split where it was put together, slugs are their own slugs, and the search
meets the section first. -/
namespace ViewCompiler

namespace Document

variable {name title : String}

def addressRef (file : Value) (name title : String) : Ref where
  toHead := locate file
  target := .str s!"{name}#{title}"
  pageName := .str name
  sectionName := .str title

theorem toList_address : s!"{name}#{title}".toList = name.toList ++ '#' :: title.toList := by
  simp only [String.toList_append, List.append_assoc]
  rfl

/-- An address is split at the number sign that it was put together with. -/
theorem splitTarget_address (plain : '#' ∉ name.toList) :
    splitTarget s!"{name}#{title}" = (name, title) := by
  have before : ∀ c ∈ name.toList, (c != '#') = true := by
    intro c member
    exact bne_iff_ne.mpr fun same => plain (same ▸ member)
  rw [splitTarget, toList_address, List.takeWhile_append_of_pos before,
    List.dropWhile_append_of_pos before]
  simp

theorem parseChild_address (plain : '#' ∉ name.toList) (file : Value) :
    parseChild file (.dict [("$ref", .str s!"{name}#{title}")]) =
      .ref (addressRef file name title) := by
  have some : s!"{name}#{title}" ≠ "" := by
    intro empty
    have chars : s!"{name}#{title}".toList = [] := by rw [empty]; rfl
    rw [toList_address] at chars
    exact List.append_ne_nil_of_right_ne_nil _ (List.cons_ne_nil _ _) chars
  have shape : Shape.of (expand [("$ref", .str s!"{name}#{title}")]) =
      .ref s!"{name}#{title}" := by
    rw [Shape.of, nonEmpty?, get?_expand (by decide)]
    simp [Entries.get?, some]
  rw [parseChild_dict, shape, Shape.node, refNode, splitTarget_address plain]
  rfl

/-- The two addresses of a section: by the name of its page, and by the slug. -/
def addresses (name title : String) : List String :=
  [s!"{name}#{title}", s!"{slug name}#{title}"]

def addressChild (file : Value) (address : String) : Node :=
  parseChild file (.dict [("$ref", .str address)])

/-- Both addresses are read as references to the page, under spellings of one slug. -/
theorem addressChild_of_mem_addresses {address : String} (plain : '#' ∉ name.toList) (file : Value)
    (listed : address ∈ addresses name title) : ∃ spelling, slug spelling = slug name ∧
      addressChild file address = .ref (addressRef file spelling title) := by
  rcases List.mem_cons.mp listed with rfl | other
  · exact ⟨name, rfl, parseChild_address plain file⟩
  · obtain rfl := List.mem_singleton.mp other
    exact ⟨slug name, slug_slug name, parseChild_address (hash_not_mem_slug plain) file⟩

/-- Children with any number of references by the addresses put between them. -/
inductive AddsRefs (name title : String) : List Node → List Node → Prop
  | nil : AddsRefs name title [] []
  | keep {n ns ms} (rest : AddsRefs name title ns ms) : AddsRefs name title (n :: ns) (n :: ms)
  | add {file address ns ms} (listed : address ∈ addresses name title)
      (rest : AddsRefs name title ns ms) :
      AddsRefs name title ns (addressChild file address :: ms)

/-- The page with such references among its top-level children, or left as it is. -/
inductive AddsRefsTo (name title : String) : Node → Node → Prop
  | page {p ns ms} (added : AddsRefs name title ns ms) :
      AddsRefsTo name title (.page p (.proper ns)) (.page p (.proper ms))
  | same {n} : AddsRefsTo name title n n

section added

variable {ns ms : List Node} {page placed : Node}

/-- A search for a section passes references by. -/
theorem AddsRefs.find?_eq (plain : '#' ∉ name.toList) (added : AddsRefs name title ns ms)
    (v : Value) : (ms.flatMap Node.preorder).find? (Node.isNamed v) =
      (ns.flatMap Node.preorder).find? (Node.isNamed v) := by
  induction added with
  | nil => rfl
  | keep _ ih => rw [List.flatMap_cons, List.flatMap_cons, List.find?_append, List.find?_append, ih]
  | add listed _ ih =>
    obtain ⟨_, -, same⟩ := addressChild_of_mem_addresses plain _ listed
    rw [List.flatMap_cons, same, ← ih]
    rfl

theorem AddsRefs.wellFormed (added : AddsRefs name title ns ms) (sound : ∀ n ∈ ns, n.wellFormed) :
    ∀ m ∈ ms, m.wellFormed := by
  induction added with
  | nil => exact sound
  | keep _ ih =>
    obtain ⟨first, rest⟩ := List.forall_mem_cons.mp sound
    exact List.forall_mem_cons.mpr ⟨first, ih rest⟩
  | add _ _ ih => exact List.forall_mem_cons.mpr ⟨(parsed_parseChild _ _).wellFormed, ih sound⟩

theorem AddsRefsTo.nameSlug_eq (added : AddsRefsTo name title page placed) :
    page.nameSlug = placed.nameSlug := by
  cases added <;> rfl

theorem AddsRefsTo.isSoundPage (added : AddsRefsTo name title page placed)
    (sound : page.isSoundPage) : placed.isSoundPage := by
  cases added with
  | same => exact sound
  | page added =>
    obtain ⟨_, _, ⟨⟩, named, each⟩ := Node.exists_of_isSoundPage sound
    simp only [Node.isSoundPage, named, Bool.true_and, List.all_eq_true]
    exact added.wellFormed each

/-- The page still has its own name, and the same section is the first of its name. -/
theorem AddsRefsTo.exists_page {p : Page} {sections : Children} {s : Node}
    (plain : '#' ∉ name.toList) (added : AddsRefsTo name title (.page p sections) placed)
    (first : (Node.childrenPreorder sections).find? (Node.isNamed (.str title)) = some s) :
    ∃ others, placed = .page p others ∧
      (Node.childrenPreorder others).find? (Node.isNamed (.str title)) = some s := by
  cases added with
  | same => exact ⟨sections, rfl, first⟩
  | page added =>
    refine ⟨_, rfl, ?_⟩
    rw [Node.childrenPreorder_eq, Loose.nodes_proper] at first ⊢
    rw [added.find?_eq plain, first]

end added

end Document

namespace Env

open Document

variable {env : Env} {p : Page} {sections : Children} {name title spelling : String} {s m : Node}
  {file : Value}

/-- The look-up finds the section under the slug of the page, whatever the spelling. -/
theorem refTarget_address {answer : Target Node}
    (indexed : Entries.get? env.pages (slug name) = some (.page p sections))
    (first : (Node.childrenPreorder sections).find? (Node.isNamed (.str title)) = some s)
    (spelled : slug spelling = slug name)
    (answered : env.refTarget (addressRef file spelling title) = .ok answer) :
    answer = .found s!"{slug name}#{title}" s := by
  obtain ⟨_, ⟨⟩, lookup⟩ := refTarget_eq_ok.mp answered
  rw [spelled, indexed] at lookup
  obtain ⟨absent, -⟩ | ⟨_, _, result, ⟨⟩, ⟨⟩, search, rfl⟩ := lookup
  · cases absent
  · obtain rfl := (Node.findInChildren_eq_find? search).trans first
    rfl

/-- Outside of all expansions a reference becomes what its target becomes. -/
theorem Resolves.of_ref {r : Ref} (resolved : env.Resolves [] (.ref r) m) :
    ∃ answer, env.refTarget r = .ok answer ∧
      ∀ key t, answer = .found key t → env.Resolves [key] t m := by
  cases resolved with
  | ref found _ _ expanded =>
    refine ⟨_, found, ?_⟩
    rintro _ _ ⟨⟩
    exact expanded
  | circularRef _ entered _ => cases entered
  | missingRef missing _ => exact ⟨_, missing, fun _ _ absurd => by cases absurd⟩
  | container container => cases container

/-- The child leads to the section, and its result and its errors are those of the section while the
section is being expanded. -/
structure StandsFor (env : Env) (key : String) (s child m : Node) : Prop where
  found : ∃ r, child = .ref r ∧ env.refTarget r = .ok (.found key s)
  resolved : (env.resolveChild [key] s).Gives (env.errorsOf m) m

/-- All that stands for a section under one key becomes the same. -/
theorem StandsFor.unique {key : String} {child other m' : Node}
    (first : env.StandsFor key s child m) (second : env.StandsFor key s other m') : m = m' :=
  Except.ok.inj (first.resolved.1.symm.trans second.resolved.1)

theorem ResolvesPage.standsFor {q : Page} {ms : List Node} {resolved : Node}
    (plain : '#' ∉ name.toList)
    (indexed : Entries.get? env.pages (slug name) = some (.page p sections))
    (first : (Node.childrenPreorder sections).find? (Node.isNamed (.str title)) = some s)
    (run : env.ResolvesPage (.page q (.proper ms)) resolved) :
    ∃ results, resolved = .page q (.proper results) ∧
      List.Forall₂ (fun child m => ∀ file, ∀ address ∈ addresses name title,
        child = addressChild file address →
          env.StandsFor s!"{slug name}#{title}" s child m) ms results := by
  obtain ⟨_, each⟩ := run
  refine ⟨_, rfl, each.imp fun child m resolved file address listed same => ?_⟩
  obtain ⟨spelling, spelled, read⟩ := addressChild_of_mem_addresses plain file listed
  rw [same, read] at resolved ⊢
  obtain ⟨answer, found, expands⟩ := Resolves.of_ref resolved
  obtain rfl := refTarget_address indexed first spelled found
  exact ⟨⟨_, rfl, found⟩, gives_of_resolves (expands _ _ rfl)⟩

/-- Every named section is addressable. Among pages of different slugs, references by either address
of a section lead to it from wherever they are put among the top-level children of the pages, and
become what it becomes. -/
theorem resolve_of_addresses {pages placed : List Node} {registry : Registry}
    {partials : List (Value × Partial)} (apart : (pages.map Node.nameSlug).Nodup)
    (listed : .page p sections ∈ pages) (named : p.name = .str name) (plain : '#' ∉ name.toList)
    (first : (Node.childrenPreorder sections).find? (Node.isNamed (.str title)) = some s)
    (added : List.Forall₂ (AddsRefsTo name title) pages placed) :
    ((∀ page ∈ pages, page.isSoundPage) → (∀ e ∈ partials, Partial.isSoundEntry e) →
      ∃ r, resolve placed registry partials = .ok r) ∧
    ∀ r, resolve placed registry partials = .ok r →
      ∃ env, Env.of placed registry partials = .ok env ∧
        r.errors = r.pages.flatMap env.errorsOf ∧
        List.Forall₂ (fun page resolved => ∀ q ms, page = .page q (.proper ms) →
          ∃ results, resolved = .page q (.proper results) ∧
            List.Forall₂ (fun child m => ∀ file, ∀ address ∈ addresses name title,
              child = addressChild file address →
                env.StandsFor s!"{slug name}#{title}" s child m) ms results) placed r.pages := by
  constructor
  · intro pagesSound partialsSound
    obtain ⟨r, run, -⟩ := @resolve_total placed registry partials
      (fun page member => by
        obtain ⟨original, given, adds⟩ := exists_left_of_forall₂ added member
        exact adds.isSoundPage (pagesSound original given)) partialsSound
    exact ⟨r, run⟩
  · intro r run
    obtain ⟨env, made, pairs, errors⟩ := resolve_eq_ok.mp run
    have slugs : pages.map Node.nameSlug = placed.map Node.nameSlug :=
      map_eq_of_forall₂ (added.imp fun _ _ adds => adds.nameSlug_eq)
    obtain ⟨page, member, adds⟩ := exists_right_of_forall₂ added listed
    obtain ⟨others, rfl, again⟩ := adds.exists_page plain first
    have slugged : (Node.page p others).nameSlug = .ok (slug name) := by
      rw [Node.nameSlug, named]
      rfl
    have indexed := get?_of_indexPages (slugs ▸ apart) (of_eq_ok.mp made).1 member slugged
    refine ⟨env, made, errors, pairs.imp fun page resolved run q ms same => ?_⟩
    rw [same] at run
    exact run.standsFor plain indexed again

/-- The section of a board that is shown elsewhere, with a widget of unknown type. -/
def topSection : Node :=
  .sect { name := .str "top 3 #new" } (.proper [.widget { type := .str "badge" }])

def boardPage : Page := { name := .str "AdminDashboard", type := .str "page", route := .str "/" }

def boardWithRefs : Node :=
  .page boardPage (.proper [
    addressChild .null "AdminDashboard#top 3 #new", .frag {} (.proper [topSection]),
    addressChild .null "admin-dashboard#top 3 #new"])

theorem resolve_of_addresses_board :
    ∃ r m fragment, resolve [boardWithRefs] {} [] = .ok r ∧
      r.pages = [.page boardPage (.proper [m, fragment, m])] ∧
      ∃ env : Env, env.StandsFor "admin-dashboard#top 3 #new" topSection
        (addressChild .null "AdminDashboard#top 3 #new") m := by
  have one : "AdminDashboard#top 3 #new" ∈ addresses "AdminDashboard" "top 3 #new" := by
    decide +kernel
  have other : "admin-dashboard#top 3 #new" ∈ addresses "AdminDashboard" "top 3 #new" := by
    decide +kernel
  have added : List.Forall₂ (AddsRefsTo "AdminDashboard" "top 3 #new")
      [.page boardPage (.proper [.frag {} (.proper [topSection])])] [boardWithRefs] :=
    .cons (.page (.add one (.keep (.add other .nil)))) .nil
  have apart : ([Node.page boardPage (.proper [.frag {} (.proper [topSection])])].map
      Node.nameSlug).Nodup := List.nodup_singleton _
  obtain ⟨returns, each⟩ := @resolve_of_addresses boardPage _ "AdminDashboard" "top 3 #new"
    topSection _ _ {} [] apart List.mem_cons_self rfl (by decide) rfl added
  obtain ⟨r, run⟩ := returns (by decide +kernel) nofun
  obtain ⟨env, -, -, pairs⟩ := each r run
  obtain ⟨resolved, _, page, ⟨⟩, known⟩ := List.forall₂_cons_left_iff.mp pairs
  obtain ⟨results, rfl, children⟩ := page boardPage _ rfl
  obtain ⟨m, _, first, rest, rfl⟩ := List.forall₂_cons_left_iff.mp children
  obtain ⟨fragment, _, -, last, rfl⟩ := List.forall₂_cons_left_iff.mp rest
  obtain ⟨m', _, second, ⟨⟩, rfl⟩ := List.forall₂_cons_left_iff.mp last
  have left := first .null _ one rfl
  obtain rfl := left.unique (second .null _ other rfl)
  exact ⟨r, m, fragment, run, known, env, left⟩

end Env

end ViewCompiler
