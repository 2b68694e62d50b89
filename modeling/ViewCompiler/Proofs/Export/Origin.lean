import ViewCompiler.Proofs.Document.Parsed
import ViewCompiler.Proofs.Export.Reading
import ViewCompiler.Proofs.Export.Storable
import ViewCompiler.Proofs.Resolve.Invariants

/-! Where storable nodes come from: reading plain data, parsing documents, filling templates and resolving
all make storable nodes of storable ones. -/
namespace ViewCompiler

variable {kinds : Kinds}

section reading

variable {fs : Fields} {key : String}

theorem Loose.isRecord_of_read {α : Type} {read : Value → Except Fault α} {v : Value} {l : Loose α}
    (done : Loose.read read v = .ok l) : l.IsRecord := by
  unfold Loose.read at done
  split at done
  · cases done
    rfl
  · obtain ⟨a, -, rfl⟩ := Except.map_eq_ok.mp done
    trivial

theorem Head.isRecord_of_read {h : Head} (done : Head.read fs = .ok h) : h.loc.IsRecord := by
  unfold Head.read at done
  split at done
  · obtain ⟨loc, located, made⟩ := Except.bind_eq_ok.mp done
    obtain rfl := Except.pure_eq_ok.mp made
    exact Loose.isRecord_of_read located
  · obtain rfl := Except.pure_eq_ok.mp done
    trivial

theorem Loader.isPlace_readParams (params : Option Value) : (Loader.readParams params).IsPlace := by
  cases params with
  | none => trivial
  | some v =>
    cases v with
    | list items => trivial
    | null | bool | int | float | str | dict =>
      intro items same
      cases same

theorem Loader.isPlace_of_read {v : Value} {l : Loader} (done : Loader.read v = .ok l) :
    l.params.IsPlace := by
  obtain ⟨source, -, rest⟩ := Except.bind_eq_ok.mp done
  obtain ⟨params, -, made⟩ := Except.bind_eq_ok.mp rest
  cases source with
  | none => cases made
  | some source =>
    obtain rfl := Except.pure_eq_ok.mp made
    exact isPlace_readParams params

theorem Loader.isPlace_of_readRecord {l : Loader}
    (done : fs.readRecord key Loader.read = .ok (.proper l)) : l.params.IsPlace := by
  unfold Fields.readRecord Loose.read at done
  split at done
  · cases done
  · obtain ⟨_, read, same⟩ := Except.map_eq_ok.mp done
    cases same
    exact isPlace_of_read read

namespace Node

variable {n : Node}

/-- What is read from a place for children is one again, with nodes that are read from smaller values. -/
theorem isPlace_of_readChildren {default place : Children}
    (done : readChildren kinds fs key default = .ok place) (empty : default.IsPlace)
    (leaf : default.nodes = []) :
    place.IsPlace ∧ ∀ m ∈ place.nodes, ∃ v, sizeOf v < sizeOf fs ∧ readChild kinds v = .ok m := by
  cases found : Entries.get? fs key with
  | none =>
    rw [readChildren_none found] at done
    cases done
    exact ⟨empty, fun m member => by rw [leaf] at member; cases member⟩
  | some v =>
    have smaller := Fields.sizeOf_lt_of_get? found
    by_cases listed : ∃ items, v = .list items
    · obtain ⟨items, rfl⟩ := listed
      rw [readChildren_list found] at done
      obtain ⟨ns, read, rfl⟩ := Except.map_eq_ok.mp done
      refine ⟨trivial, fun m member => ?_⟩
      obtain ⟨w, inside, made⟩ := exists_left_of_forall₂ (Except.mapM_eq_ok.mp read) member
      have part := List.sizeOf_lt_of_mem inside
      simp only [Value.list.sizeOf_spec] at smaller
      exact ⟨w, by omega, made⟩
    · have other : ∀ items, v ≠ .list items := fun items same => listed ⟨items, same⟩
      rw [readChildren_stray found other] at done
      cases done
      exact ⟨other, fun m member => by cases member⟩

theorem exists_class_of_readNode (done : readNode kinds fs = .ok n) :
    ∃ nodeClass, kinds.find? (fs.getD "kind") = .ok (some nodeClass) := by
  rw [readNode] at done
  obtain ⟨found, known, rest⟩ := Except.bind_eq_ok.mp done
  cases found with
  | none => cases rest
  | some nodeClass => exact ⟨nodeClass, known⟩

/-- A node that is read is storable if what is read from smaller values is. -/
theorem storable_of_readNode
    (below : ∀ v m, sizeOf v < sizeOf fs → readChild kinds v = .ok m → m.Storable kinds)
    (done : readNode kinds fs = .ok n) : n.Storable kinds ∧ n.kind?.isSome := by
  have inside : ∀ {place : Children},
      (∀ m ∈ place.nodes, ∃ v, sizeOf v < sizeOf fs ∧ readChild kinds v = .ok m) →
      ∀ m ∈ place.nodes, m.Storable kinds := by
    intro place smaller m member
    obtain ⟨v, less, read⟩ := smaller m member
    exact below v m less read
  obtain ⟨nodeClass, found⟩ := exists_class_of_readNode done
  cases nodeClass with
  | custom name =>
    obtain ⟨head, headed, rfl⟩ := (readNode_custom found).mp done
    have loc := Head.isRecord_of_read headed
    obtain ⟨kind, named, defined⟩ := Kinds.find?_eq_some.mp found
    refine ⟨storable_leaf rfl ⟨loc, name, ?_⟩, rfl⟩
    simp only [named, Value.text]
    exact defined
  | builtin kind =>
    cases kind with
    | page =>
      obtain ⟨head, headed, loader, loaded, accessibility, accessible, responsive, responds,
        sections, placed, _, -, _, -, _, -, rfl⟩ := (readNode_page found).mp done
      have loc := Head.isRecord_of_read headed
      have params : ∀ l, loader = .proper l → l.params.IsPlace := by
        rintro l rfl
        exact Loader.isPlace_of_readRecord loaded
      obtain ⟨place, smaller⟩ := isPlace_of_readChildren placed trivial rfl
      refine ⟨storable_iff.mpr ⟨?_, inside smaller⟩, rfl⟩
      exact ⟨loc, Loose.isRecord_of_read loaded, params, Loose.isRecord_of_read accessible,
        Loose.isRecord_of_read responds, place⟩
    | sect =>
      obtain ⟨head, headed, layout, laidOut, children, placed, rfl⟩ := (readNode_sect found).mp done
      have loc := Head.isRecord_of_read headed
      obtain ⟨place, smaller⟩ := isPlace_of_readChildren placed trivial rfl
      refine ⟨storable_iff.mpr ⟨?_, inside smaller⟩, rfl⟩
      exact ⟨loc, Loose.isRecord_of_read laidOut, place⟩
    | widget =>
      obtain ⟨head, headed, source, bound, _, -, rfl⟩ := (readNode_widget found).mp done
      have loc := Head.isRecord_of_read headed
      exact ⟨storable_leaf rfl ⟨loc, Loose.isRecord_of_read bound⟩, rfl⟩
    | ref =>
      obtain ⟨head, headed, _, -, _, -, _, -, rfl⟩ := (readNode_ref found).mp done
      exact ⟨storable_leaf rfl (Head.isRecord_of_read headed), rfl⟩
    | call =>
      obtain ⟨head, headed, _, -, rfl⟩ := (readNode_call found).mp done
      exact ⟨storable_leaf rfl (Head.isRecord_of_read headed), rfl⟩
    | slot =>
      obtain ⟨head, headed, _, -, rfl⟩ := (readNode_slot found).mp done
      exact ⟨storable_leaf rfl (Head.isRecord_of_read headed), rfl⟩
    | cond =>
      obtain ⟨head, headed, body, first, otherwise, second, _, -, rfl⟩ :=
        (readNode_cond found).mp done
      have loc := Head.isRecord_of_read headed
      obtain ⟨place, smaller⟩ := isPlace_of_readChildren first trivial rfl
      obtain ⟨free, less⟩ := isPlace_of_readChildren second Loose.isPlace_null rfl
      refine ⟨storable_iff.mpr ⟨⟨loc, place, free⟩, ?_⟩, rfl⟩
      intro m member
      rcases List.mem_append.mp member with early | late
      · exact inside smaller m early
      · exact inside less m late
    | loop =>
      obtain ⟨head, headed, _, read, _, -, template, rfl, rfl⟩ := (readNode_loop found).mp done
      have loc := Head.isRecord_of_read headed
      obtain ⟨v, stored, made⟩ := readTemplate_eq_ok.mp read
      refine ⟨storable_iff.mpr ⟨loc, ?_⟩, rfl⟩
      intro m member
      obtain rfl := List.mem_singleton.mp member
      exact below v _ (Fields.sizeOf_lt_of_get? stored) made
    | frag =>
      obtain ⟨head, headed, children, placed, rfl⟩ := (readNode_frag found).mp done
      have loc := Head.isRecord_of_read headed
      obtain ⟨place, smaller⟩ := isPlace_of_readChildren placed trivial rfl
      exact ⟨storable_iff.mpr ⟨⟨loc, place⟩, inside smaller⟩, rfl⟩

/-- Whatever is read is storable. The induction is on the size of the value. -/
theorem storable_of_readChild {v : Value} (done : readChild kinds v = .ok n) :
    n.Storable kinds := by
  induction size : sizeOf v using Nat.strongRecOn generalizing v n with
  | ind k ih =>
    by_cases plain : v.IsPlain
    · rw [readChild_plain plain] at done
      cases done
      exact storable_leaf rfl plain
    · simp only [Value.IsPlain, not_forall] at plain
      obtain ⟨fs, rfl, kind⟩ := plain
      rw [readChild_dict (Bool.not_eq_false _ ▸ kind)] at done
      refine (storable_of_readNode (fun w m less read => ?_) done).1
      have smaller : sizeOf w < k := by
        simp only [Value.dict.sizeOf_spec] at size
        omega
      exact ih _ smaller read rfl

/-- Only a dictionary with a kind is read as a node, and what is read is storable. -/
theorem storable_of_ofValue {v : Value} (done : ofValue kinds v = .ok n) :
    n.Storable kinds ∧ n.kind?.isSome := by
  obtain ⟨kind, -, rest⟩ := Except.bind_eq_ok.mp done
  cases kind with
  | none => cases rest
  | some kind =>
    obtain ⟨found, -, rest⟩ := Except.bind_eq_ok.mp rest
    split at rest
    · obtain ⟨fs, -, read⟩ := Except.bind_eq_ok.mp rest
      exact storable_of_readNode (fun _ _ _ read => storable_of_readChild read) read
    · cases rest

end Node

end reading

namespace Document

variable {file raw : Value} {fs : Fields} {n : Node}

theorem isRecord_layoutOf (v : Value) : (layoutOf v).IsRecord := by
  cases v with
  | dict => trivial
  | null | bool | int | float | str | list => rfl

theorem isRecord_bindingOf (v : Value) : (bindingOf v).IsRecord := by
  cases v with
  | str => trivial
  | null | bool | int | float | list | dict => rfl

theorem isRecord_accessibilityOf (v : Value) : (accessibilityOf v).IsRecord := by
  cases v with
  | dict => trivial
  | null | bool | int | float | str | list => rfl

theorem isRecord_responsiveOf (v : Value) : (responsiveOf v).IsRecord := by
  cases v with
  | dict => trivial
  | null | bool | int | float | str | list => rfl

theorem isRecord_loaderOf {v : Value} {loader : Loose Loader} (done : loaderOf v = .ok loader) :
    loader.IsRecord ∧ ∀ l, loader = .proper l → l.params.IsPlace := by
  cases v with
  | dict fs =>
    obtain ⟨params, -, made⟩ := Except.bind_eq_ok.mp done
    obtain rfl := Except.pure_eq_ok.mp made
    refine ⟨trivial, fun l same => ?_⟩
    cases same
    trivial
  | null | bool | int | float | str | list =>
    obtain rfl := Except.pure_eq_ok.mp done
    exact ⟨rfl, fun l absurd => by cases absurd⟩

theorem Parsed.isStorable (parsed : Parsed file n) : n.IsStorable kinds := by
  cases parsed with
  | ref | call | slot | loop => exact trivial
  | frag => exact ⟨trivial, trivial⟩
  | sect => exact ⟨trivial, isRecord_layoutOf _, trivial⟩
  | shown => exact ⟨trivial, trivial, Loose.isPlace_null⟩
  | widget => exact ⟨trivial, isRecord_bindingOf _⟩
  | unknown => exact ⟨trivial, Loose.isRecord_null⟩

/-- Whatever is parsed is storable. -/
theorem Parsed.storable (parsed : Parsed file n) : n.Storable kinds := parsed.all Parsed.isStorable

theorem storable_parsePage (done : parsePage file raw = .ok n) :
    n.Storable kinds ∧ n.IsPage := by
  obtain ⟨fs, p, ns, rfl, placed, -, loaded, accessible, responds, parsed⟩ :=
    exists_of_parsePage done
  obtain ⟨record, params⟩ := isRecord_loaderOf loaded
  have loc : p.loc.IsRecord := by
    rw [placed]
    trivial
  have own : (Node.page p (.proper ns)).IsStorable kinds := by
    refine ⟨loc, record, params, ?_, ?_, trivial⟩
    · rw [accessible]
      exact isRecord_accessibilityOf _
    · rw [responds]
      exact isRecord_responsiveOf _
  exact ⟨Node.storable_iff.mpr ⟨own, fun m member => (parsed m member).storable⟩, p, _, rfl⟩

end Document

section filling

variable {args : Fields}

theorem Widget.isStorable_fill {w v : Widget} (filled : w.fill args = .ok v)
    (own : (Node.widget w).IsStorable kinds) : (Node.widget v).IsStorable kinds := by
  obtain ⟨fs, -, rest⟩ := Except.bind_eq_ok.mp filled
  split at rest
  · obtain rfl := Except.pure_eq_ok.mp rest
    exact own
  · cases rest
  · split at rest
    · obtain rfl := Except.pure_eq_ok.mp rest
      exact ⟨own.1, trivial⟩
    · obtain rfl := Except.pure_eq_ok.mp rest
      exact ⟨own.1, Loose.isRecord_null⟩

/-- What is storable stays so, whatever a template is filled with and whatever is inlined. -/
theorem Node.lasts_isStorable : Lasts (IsStorable kinds) where
  container container own := isStorable_withSubtrees container own
  widget filled own := Widget.isStorable_fill filled own
  page own := by
    obtain ⟨loc, loader, params, accessibility, responsive, -⟩ := own
    exact ⟨loc, loader, params, accessibility, responsive, trivial⟩

end filling

end ViewCompiler
