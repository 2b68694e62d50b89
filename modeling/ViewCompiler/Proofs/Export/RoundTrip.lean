import ViewCompiler.Node.Export
import ViewCompiler.Proofs.Export.Reading

/-! Writing and reading back. What is storable is read back as it was, field by field at every depth. -/
namespace ViewCompiler

section records

theorem Location.read_toValue (l : Location) : Location.read l.toValue = .ok l := rfl

theorem Binding.read_toValue (b : Binding) : Binding.read b.toValue = .ok b := rfl

theorem Layout.read_toValue (l : Layout) : Layout.read l.toValue = .ok l := rfl

theorem Accessibility.read_toValue (a : Accessibility) : Accessibility.read a.toValue = .ok a := rfl

theorem Responsive.read_toValue (r : Responsive) : Responsive.read r.toValue = .ok r := rfl

/-- Parameters of a loader come back as they were, unless they are a plain list. -/
theorem Loader.read_toValue {l : Loader} (place : l.params.IsPlace) :
    Loader.read l.toValue = .ok l := by
  obtain ⟨source, params⟩ := l
  cases params with
  | proper params => rfl
  | stray v =>
    cases v with
    | list items => exact absurd rfl (place items)
    | null | bool | int | float | str | dict => rfl

namespace Loose

variable {α : Type} {read : Value → Except Fault α} {write : α → Value} {l : Loose α}

/-- A record or nothing is read back, where records are and no record is written as nothing. -/
theorem read_toValue (record : l.IsRecord)
    (inverse : ∀ a, l = .proper a → read (write a) = .ok a ∧ write a ≠ .null) :
    Loose.read read (l.toValue write) = .ok l := by
  cases l with
  | stray v =>
    obtain rfl : v = .null := record
    rfl
  | proper a =>
    obtain ⟨back, something⟩ := inverse a rfl
    have record : Loose.read read (write a) = .proper <$> read (write a) := by
      cases written : write a with
      | null => exact absurd written something
      | bool | int | float | str | list | dict => rfl
    rw [toValue, record, back]
    rfl

end Loose

theorem Head.read_headFields {h : Head} {own rest : Fields} (record : h.loc.IsRecord) :
    Head.read (Node.headFields h ++ own ++ rest) = .ok h := by
  have loc : Loose.read Location.read (h.loc.toValue Location.toValue) = .ok h.loc :=
    Loose.read_toValue record fun l _ => ⟨l.read_toValue, by simp [Location.toValue]⟩
  simp only [read, Node.headFields, List.cons_append, Entries.get?, if_true, loc]
  rfl

end records

namespace Node

variable {kinds : Kinds} {fs : Fields} {key : String}

theorem nodesToValues_eq_map (ns : List Node) : nodesToValues ns = ns.map toValue := by
  induction ns with
  | nil => rfl
  | cons n ns ih => rw [nodesToValues, ih, List.map_cons]

theorem readChildren_toValue {children default : Children} (place : children.IsPlace)
    (each : ∀ n ∈ children.nodes, readChild kinds n.toValue = .ok n)
    (found : Entries.get? fs key = some (childrenToValue children)) :
    readChildren kinds fs key default = .ok children := by
  cases children with
  | stray v => exact readChildren_stray found place
  | proper ns =>
    rw [childrenToValue, nodesToValues_eq_map] at found
    rw [readChildren_list found, List.mapM_map]
    have back : ns.mapM (readChild kinds ∘ toValue) = .ok ns := by
      refine Except.mapM_eq_ok.mpr (List.forall₂_same.mpr each)
    rw [back]
    rfl

/-- What is storable is read back as it was. The induction is on the tree; every class reads the fields
that it writes. -/
theorem readChild_toValue {n : Node} (known : kinds.Known) (storable : n.Storable kinds) :
    readChild kinds n.toValue = .ok n := by
  induction n using induction with
  | _ n ih =>
  obtain ⟨own, parts⟩ := storable_iff.mp storable
  have each : ∀ m ∈ n.subtrees, readChild kinds m.toValue = .ok m :=
    fun m member => ih m member (parts m member)
  have builtin (k : Kind) : kinds.find? (.str k.name) = .ok (some (.builtin k)) :=
    Kinds.find?_eq_some.mpr ⟨_, rfl, known.get?_name k⟩
  cases n with
  | page p sections =>
    obtain ⟨loc, loader, params, accessibility, responsive, place⟩ := own
    have loaded : Loose.read Loader.read (p.loader.toValue Loader.toValue) = .ok p.loader := by
      apply Loose.read_toValue loader
      intro l isProper
      exact ⟨Loader.read_toValue (params l isProper), by simp [Loader.toValue]⟩
    have accessible : Loose.read Accessibility.read
        (p.accessibility.toValue Accessibility.toValue) = .ok p.accessibility := by
      apply Loose.read_toValue accessibility
      intro a _
      exact ⟨a.read_toValue, by simp [Accessibility.toValue]⟩
    have responds : Loose.read Responsive.read
        (p.responsive.toValue Responsive.toValue) = .ok p.responsive := by
      apply Loose.read_toValue responsive
      intro r _
      exact ⟨r.read_toValue, by simp [Responsive.toValue]⟩
    rw [toValue, record, readChild_dict rfl]
    exact (readNode_page (builtin .page)).mpr ⟨_, Head.read_headFields loc, p.loader, loaded,
      p.accessibility, accessible, p.responsive, responds, sections,
      readChildren_toValue place each rfl, p.name, rfl, p.type, rfl, p.route, rfl, rfl⟩
  | sect s children =>
    obtain ⟨loc, layout, place⟩ := own
    have laidOut : Loose.read Layout.read (s.layout.toValue Layout.toValue) = .ok s.layout := by
      apply Loose.read_toValue layout
      intro l _
      exact ⟨l.read_toValue, by simp [Layout.toValue]⟩
    rw [toValue, record, readChild_dict rfl]
    exact (readNode_sect (builtin .sect)).mpr ⟨_, Head.read_headFields loc, s.layout, laidOut,
      children, readChildren_toValue place each rfl, rfl⟩
  | widget w =>
    obtain ⟨loc, source⟩ := own
    have bound : Loose.read Binding.read (w.source.toValue Binding.toValue) = .ok w.source := by
      apply Loose.read_toValue source
      intro b _
      exact ⟨b.read_toValue, by simp [Binding.toValue]⟩
    rw [toValue, record, readChild_dict rfl]
    exact (readNode_widget (builtin .widget)).mpr ⟨_, Head.read_headFields loc, w.source, bound,
      w.type, rfl, rfl⟩
  | ref r =>
    rw [toValue, record, readChild_dict rfl]
    exact (readNode_ref (builtin .ref)).mpr ⟨_, Head.read_headFields own, r.target, rfl,
      r.pageName, rfl, r.sectionName, rfl, rfl⟩
  | call c =>
    rw [toValue, record, readChild_dict rfl]
    exact (readNode_call (builtin .call)).mpr ⟨_, Head.read_headFields own, c.name, rfl, rfl⟩
  | slot s =>
    rw [toValue, record, readChild_dict rfl]
    exact (readNode_slot (builtin .slot)).mpr ⟨_, Head.read_headFields own, s.name, rfl, rfl⟩
  | cond c body otherwise =>
    obtain ⟨loc, place, free⟩ := own
    have first : ∀ m ∈ body.nodes, readChild kinds m.toValue = .ok m :=
      fun m member => each m (List.mem_append_left _ member)
    have second : ∀ m ∈ otherwise.nodes, readChild kinds m.toValue = .ok m :=
      fun m member => each m (List.mem_append_right _ member)
    rw [toValue, record, readChild_dict rfl]
    exact (readNode_cond (builtin .cond)).mpr ⟨_, Head.read_headFields loc,
      body, readChildren_toValue place first rfl,
      otherwise, readChildren_toValue free second rfl, c.condition, rfl, rfl⟩
  | loop l template =>
    have back := each template (List.mem_singleton.mpr rfl)
    rw [toValue, record, readChild_dict rfl]
    exact (readNode_loop (builtin .loop)).mpr ⟨_, Head.read_headFields own,
      _, readTemplate_eq_ok.mpr ⟨_, rfl, back⟩, l.source, rfl, template, rfl, rfl⟩
  | frag f children =>
    obtain ⟨loc, place⟩ := own
    rw [toValue, record, readChild_dict rfl]
    exact (readNode_frag (builtin .frag)).mpr ⟨_, Head.read_headFields loc,
      children, readChildren_toValue place each rfl, rfl⟩
  | custom c =>
    obtain ⟨loc, name, defined⟩ := own
    rw [toValue, record, readChild_dict rfl]
    exact (readNode_custom (Kinds.find?_eq_some.mpr ⟨_, rfl, defined⟩)).mpr
      ⟨_, Head.read_headFields loc, rfl⟩
  | stray v => exact readChild_plain own

section nodes

variable {n : Node}

/-- A node is written as a dictionary with its kind, and without the key of a build. -/
theorem exists_fields_of_kind? {kind : String} (node : n.kind? = some kind) :
    ∃ fs, n.toValue = .dict fs ∧ Entries.get? fs "kind" = some (.str kind) ∧
      Entries.has fs "format" = false := by
  cases n with
  | stray v => cases node
  | page | sect | widget | ref | call | slot | cond | loop | frag | custom =>
    cases node
    exact ⟨_, rfl, rfl, rfl⟩

theorem exported_eq_ok (node : n.kind?.isSome) : n.exported = .ok n.toValue := by
  cases n with
  | stray v => cases node
  | page | sect | widget | ref | call | slot | cond | loop | frag | custom => rfl

theorem exists_class_of_storable {kind : String} (known : kinds.Known)
    (storable : n.Storable kinds) (node : n.kind? = some kind) :
    ∃ nodeClass, Entries.get? kinds kind = some nodeClass := by
  have own := (storable_iff.mp storable).1
  cases n with
  | stray v => cases node
  | custom c =>
    cases node
    obtain ⟨-, name, defined⟩ := own
    exact ⟨_, defined⟩
  | page | sect | widget | ref | call | slot | cond | loop | frag =>
    cases node
    exact ⟨_, known.get?_name _⟩

/-- A storable node is exported, and imported as it was. -/
theorem ofValue_toValue (known : kinds.Known) (storable : n.Storable kinds)
    (node : n.kind?.isSome) : ofValue kinds n.toValue = .ok n := by
  obtain ⟨kind, named⟩ := Option.isSome_iff_exists.mp node
  obtain ⟨fs, written, tagged, -⟩ := exists_fields_of_kind? named
  obtain ⟨nodeClass, found⟩ := exists_class_of_storable known storable named
  have looked : kinds.find? (.str kind) = .ok (some nodeClass) :=
    Kinds.find?_eq_some.mpr ⟨kind, rfl, found⟩
  have back := readChild_toValue known storable
  rw [written, readChild_dict (by rw [Entries.has, tagged]; rfl)] at back
  rw [written]
  simp only [ofValue, Value.field?, tagged]
  show (do
    if (← kinds.find? (.str kind)).isSome then readNode kinds (← (Value.dict fs).fields)
    else throw (.notKind (.str kind) kinds.names) : Except Fault Node) = _
  rw [looked]
  exact back

end nodes

end Node
end ViewCompiler
