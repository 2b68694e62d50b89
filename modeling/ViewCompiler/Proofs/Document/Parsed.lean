import ViewCompiler.Document.Page
import ViewCompiler.Document.Partial
import ViewCompiler.Proofs.Document.Parts
import ViewCompiler.Proofs.Node.WellFormed

/-! What parsing makes of a document. Whatever the data are, a child is made in one of a few ways from
texts and from children that were made before, so what these ways keep holds of everything parsed. -/
namespace ViewCompiler.Document

/-- The child nodes that are made of data from the file. -/
inductive Parsed (file : Value) : Node → Prop
  | ref {target} : Parsed file (refNode (locate file) target)
  | call {name args} :
      Parsed file (.call { toHead := locate file, name := .str name, args := .dict args })
  | slot {name description optional} : Parsed file (.slot
      { toHead := locate file, name := .str name, description, optional := .bool optional })
  | loop {source item template} (inside : Parsed file template) :
      Parsed file (.loop { toHead := locate file, source := .str source, item } template)
  | frag {ns} (inside : ∀ n ∈ ns, Parsed file n) :
      Parsed file (.frag { toHead := locate file } (.proper ns))
  | sect {fs ns} (inside : ∀ n ∈ ns, Parsed file n) :
      Parsed file (sectionNode (locate file) fs ns)
  | widget {fs} : Parsed file (widgetNode (locate file) fs)
  | shown {condition n} (inside : Parsed file n) : Parsed file
      (.cond { toHead := locate file, condition := .str condition } (.proper [n]) .null)
  | unknown : Parsed file (.widget { toHead := locate file, type := .str unknownType })

variable {file raw : Value} {fs : Fields} {n : Node}

theorem Parsed.wrap (inside : Parsed file n) : Parsed file (wrap (locate file) fs n) := by
  unfold Document.wrap
  split
  · exact .shown inside
  · exact inside

/-- The induction is over the parts of a mapping. -/
theorem parsed_parseChild (file raw : Value) : Parsed file (parseChild file raw) := by
  induction raw using parts_induction with
  | bare raw bare =>
    rw [parseChild_of_ne_dict bare]
    exact .unknown
  | mapping fs ih =>
    rw [parseChild_dict]
    cases shape : Shape.of (expand fs) <;> rw [shape] at ih
    case ref => exact .ref
    case call => exact .call
    case slot => exact .slot
    case loop => exact .loop (ih _ (List.mem_singleton.mpr rfl))
    case frag => exact .frag (List.forall_mem_map.mpr ih)
    case sect => exact .wrap (.sect (List.forall_mem_map.mpr ih))
    case widget => exact .wrap .widget

theorem parsed_of_mem_parseChildren (member : n ∈ parseChildren file raw) : Parsed file n := by
  unfold parseChildren at member
  split at member
  · rw [parseItems_eq_map] at member
    obtain ⟨v, -, rfl⟩ := List.mem_map.mp member
    exact parsed_parseChild file v
  · cases member

/-- A page that is parsed has a text as its name, and parsed children. -/
theorem exists_of_parsePage (done : parsePage file raw = .ok n) :
    ∃ (fs : Fields) (p : Page) (ns : List Node), n = .page p (.proper ns) ∧ p.toHead = locate file ∧
      p.name.isStr ∧ loaderOf (fs.getD "loader") = .ok p.loader ∧
      p.accessibility = accessibilityOf (fs.getD "accessibility") ∧
      p.responsive = responsiveOf (fs.getD "responsive") ∧ ∀ m ∈ ns, Parsed file m := by
  obtain ⟨fs, -, rest⟩ := Except.bind_eq_ok.mp done
  obtain ⟨loader, loaded, made⟩ := Except.bind_eq_ok.mp rest
  obtain rfl := Except.pure_eq_ok.mp made
  exact ⟨fs, _, _, rfl, rfl, rfl, loaded, rfl, rfl, fun _ => parsed_of_mem_parseChildren⟩

/-- A page has texts as its name and its route. -/
theorem texts_of_parsePage (done : parsePage file raw = .ok n) :
    ∃ p sections, n = .page p sections ∧ p.name.isStr ∧ p.route.isStr := by
  obtain ⟨fs, -, rest⟩ := Except.bind_eq_ok.mp done
  obtain ⟨loader, -, made⟩ := Except.bind_eq_ok.mp rest
  obtain rfl := Except.pure_eq_ok.mp made
  exact ⟨_, _, rfl, rfl, rfl⟩

/-- What is parsed is a node. -/
theorem Parsed.isSome_kind? (parsed : Parsed file n) : n.kind?.isSome := by
  cases parsed <;> rfl

theorem Parsed.of_mem_subtrees (parsed : Parsed file n) : ∀ m ∈ n.subtrees, Parsed file m := by
  intro m member
  cases parsed with
  | ref | call | slot | widget | unknown => cases member
  | loop inside | shown inside =>
    obtain rfl := List.mem_singleton.mp member
    exact inside
  | frag inside | sect inside => exact inside m member

/-- What every parsed node has by itself it has throughout. -/
theorem Parsed.all {P : Node → Prop} (own : ∀ {m}, Parsed file m → P m) (parsed : Parsed file n) :
    n.All P := by
  induction n using Node.induction with
  | _ n ih =>
  exact Node.all_iff.mpr
    ⟨own parsed, fun m member => ih m member (parsed.of_mem_subtrees m member)⟩

theorem Parsed.isSound (parsed : Parsed file n) : n.isSound := by
  cases parsed with
  | ref | call | slot | unknown | loop | frag | sect | shown => rfl
  | widget =>
    refine Node.isSound_widget.mpr ⟨rfl, rfl, rfl, ?_⟩
    simp only [bindingOf]
    split
    · exact .inr rfl
    · exact .inl rfl

/-- What is parsed is well-formed. -/
theorem Parsed.wellFormed (parsed : Parsed file n) : n.wellFormed :=
  List.all_eq_true.mpr (parsed.all Parsed.isSound)

/-- A page that is parsed is sound. -/
theorem isSoundPage_of_parsePage (done : parsePage file raw = .ok n) : n.isSoundPage := by
  obtain ⟨_, p, ns, rfl, -, named, -, -, -, parsed⟩ := exists_of_parsePage done
  simp only [Node.isSoundPage, named, Bool.true_and, List.all_eq_true]
  exact fun m member => (parsed m member).wellFormed

/-- A partial that is parsed has a text as its name, a parsed template, and the parameters that can be
read. -/
theorem exists_of_parsePartial {p : Partial} (done : parsePartial file raw = .ok p) :
    ∃ (name : String) (template : Value) (params : List Value),
      p = ⟨.str name, parseChild file template, params.filterMap param?⟩ := by
  cases raw with
  | dict fs =>
    simp only [parsePartial] at done
    split at done
    · cases done
    · split at done
      · cases done
      · obtain ⟨params, -, made⟩ := Except.bind_eq_ok.mp done
        obtain rfl := Except.pure_eq_ok.mp made
        exact ⟨_, _, params, rfl⟩
  | null | bool | int | float | str | list => cases done

end ViewCompiler.Document
