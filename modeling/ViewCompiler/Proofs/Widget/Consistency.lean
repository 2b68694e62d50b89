import ViewCompiler.Proofs.Value.Equality
import ViewCompiler.Proofs.Widget.Runs

/-! Consistency of registries. Every entry stands under the key of its name and of the name that its
schema says, and no key occurs twice; a registration keeps this, so every run does, whatever fails in
it. -/
namespace ViewCompiler

namespace Table

variable {α : Type} {t : Table α} {k : Key} {name : Value} {a : α}

/-- A name that is known stays as it was first written; a new one comes last. -/
theorem names_put (t : Table α) (k : Key) (name : Value) (a : α) :
    (t.put k name a).names = if k ∈ Entries.keys t then t.names else t.names ++ [name] := by
  split
  · next known =>
    obtain ⟨e, found⟩ := Option.isSome_iff_exists.mp (Entries.mem_keys.mp known)
    let shown : Key → Value × α → Value := fun _ e => e.1
    have listed (t : Table α) : t.names = Entries.values (Entries.mapValues shown t) := by
      simp [names, Entries.values, Entries.mapValues, shown]
    have unchanged : Entries.get? (Entries.mapValues shown t) k = some e.1 := by
      rw [Entries.get?_mapValues, found, Option.map_some]
    rw [listed, listed, put, found, Option.map_some, Option.getD_some]
    rw [← Entries.put_mapValues shown t k (e.1, a)]
    exact congrArg _ (Entries.put_of_get? unchanged)
  · next fresh =>
    rw [put, Entries.put_of_not_mem fresh, Entries.get?_eq_none fresh]
    simp [names]

/-- Where every entry stands under the key of its name, to look for a key is to look for an equal
name. -/
theorem get?_eq_find? {v : Value} (keyed : ∀ e ∈ t, e.2.1.key? = some e.1) (asked : v.key? = some k) :
    t.get? k = (t.toPairs.find? fun e => v.same e.1).map (·.2) := by
  induction t with
  | nil => rfl
  | cons e t ih =>
    obtain ⟨first, rest⟩ := List.forall_mem_cons.mp keyed
    rw [get?, Entries.get?, toPairs, List.map_cons, List.find?_cons, Value.same_of_key? asked first]
    split
    · next same => simp [same]
    · next other =>
      rw [beq_eq_false_iff_ne.mpr (Ne.symm other)]
      exact ih rest

end Table

namespace Registry

variable {r r' : Registry} {s stored : Schema} {v : Value} {fault : Fault}

structure Consistent (r : Registry) : Prop where
  distinct : (Entries.keys r.table).Nodup
  keyed : ∀ e ∈ r.table, e.2.1.key? = some e.1
  named : ∀ e ∈ r.table, e.2.2.name.key? = some e.1

theorem consistent_empty : Consistent {} := ⟨.nil, nofun, nofun⟩

theorem Consistent.put (h : r.Consistent) {k : Key} {name : Value} (keyed : name.key? = some k)
    (named : s.name.key? = some k) : Consistent ⟨r.table.put k name s⟩ where
  distinct := Entries.nodup_keys_put h.distinct _ _
  keyed e member := by
    rcases Entries.mem_put member with old | rfl
    · exact h.keyed e old
    · cases found : Entries.get? r.table k with
      | none => exact keyed
      | some e => exact h.keyed (k, e) (Entries.mem_of_get? found)
  named e member := by
    rcases Entries.mem_put member with old | rfl
    · exact h.named e old
    · exact named

theorem Consistent.adopt (h : r.Consistent) (ss : List Schema) : (r.adopt ss).Consistent := by
  induction ss generalizing r with
  | nil => exact h
  | cons s ss ih =>
    rw [adopt_cons]
    refine ih ?_
    obtain unchanged | ⟨k, name, written⟩ := adopt_cases r s
    · rwa [unchanged]
    · rw [written]
      exact h.put name (by rwa [completed_name])

theorem consistent_run (builtins : Bool) (calls : List Registration) :
    ((start builtins).run calls).Consistent := by
  rw [start_run]
  exact consistent_empty.adopt _

/-- What a registry answers fits together: names are told apart, go along with the schemas, and are
what is found. -/
structure Coherent (r : Registry) : Prop where
  distinct : r.names.Pairwise fun v w => v.same w = false
  named : List.Forall₂ (fun name s => s.name.same name) r.names r.schemas
  size : r.size = r.names.length
  has : ∀ v, r.has v = (fun _ => r.names.any v.same) <$> v.key
  get : ∀ v, r.get v =
    (fun _ => ((r.names.zip r.schemas).find? fun e => v.same e.1).map (·.2)) <$> v.key

theorem toPairs_eq_zip (r : Registry) : r.table.toPairs = r.names.zip r.schemas := by
  simp [names, schemas, Table.toPairs, Table.names, Table.contents, List.zip_map']

theorem Consistent.get_eq (h : r.Consistent) (v : Value) : r.get v =
    (fun _ => ((r.names.zip r.schemas).find? fun e => v.same e.1).map (·.2)) <$> v.key := by
  cases asked : v.key? with
  | none =>
    rw [get_of_not_key asked, Value.key, asked]
    rfl
  | some k =>
    rw [Registry.get_eq asked, Table.get?_eq_find? h.keyed asked, toPairs_eq_zip, Value.key, asked]
    rfl

/-- To be there is to have a name that is equal. -/
theorem Consistent.any_names (h : r.Consistent) {k : Key} (asked : v.key? = some k) :
    r.names.any v.same = (Entries.get? r.table k).isSome := by
  rw [Bool.eq_iff_iff, ← Entries.mem_keys, List.any_eq_true, Entries.keys, List.mem_map]
  simp only [names, Table.names, List.mem_map, exists_exists_and_eq_and]
  refine exists_congr fun e => and_congr_right fun member => ?_
  rw [Value.same_of_key? asked (h.keyed e member), beq_iff_eq, eq_comm]

theorem Consistent.has_eq (h : r.Consistent) (v : Value) :
    r.has v = (fun _ => r.names.any v.same) <$> v.key := by
  cases asked : v.key? with
  | none => simp [has, Value.key, asked, bind, Except.bind]
  | some k =>
    rw [h.any_names asked]
    simp [has, Value.key, asked, Table.get?, Except.ok_bind, pure, Except.pure]

theorem Consistent.coherent (h : r.Consistent) : r.Coherent where
  distinct := by
    refine List.pairwise_map.mpr (List.Pairwise.imp_of_mem ?_ (List.pairwise_map.mp h.distinct))
    intro e f first second other
    rw [Value.same_of_key? (h.keyed e first) (h.keyed f second)]
    exact beq_eq_false_iff_ne.mpr other
  named := by
    refine List.forall₂_map_left_iff.mpr (List.forall₂_map_right_iff.mpr ?_)
    refine List.forall₂_same.mpr fun e member => ?_
    rw [Value.same_of_key? (h.named e member) (h.keyed e member)]
    exact beq_self_eq_true e.1
  size := (List.length_map _).symm
  has := h.has_eq
  get := h.get_eq

/-- A registration adds its name at the end, if it is new, and changes what is found under it only. -/
theorem Consistent.register (h : r.Consistent) (done : r.register s = .ok (stored, r')) :
    r'.names = (if r.names.any s.name.same then r.names else r.names ++ [s.name]) ∧
      r'.get s.name = .ok (some stored) ∧ ∀ v, v.same s.name = false → r'.get v = r.get v := by
  obtain ⟨-, fault, outcome⟩ | ⟨-, k, name, outcome⟩ := register_cases r s
  · cases outcome.symm.trans done
  obtain ⟨rfl, rfl⟩ := Prod.mk.inj (Except.ok.inj (outcome.symm.trans done))
  refine ⟨?_, ?_, fun v other => ?_⟩
  · rw [h.any_names name, names, Table.names_put]
    simp only [Entries.mem_keys]
    rfl
  · rw [Registry.get_eq name, Table.get?_put_self]
  · have apart : s.name.key? ≠ v.key? := by
      intro one
      rw [Value.same_of_key? (one.symm.trans name) name, beq_self_eq_true] at other
      cases other
    rw [← adopt_of_register done, get_adopt_of_ne r apart]

/-- No name moves, and none changes its form. -/
theorem names_prefix_adopt (r : Registry) (ss : List Schema) : r.names <+: (r.adopt ss).names := by
  induction ss generalizing r with
  | nil => exact List.prefix_rfl
  | cons s ss ih =>
    rw [adopt_cons]
    refine List.IsPrefix.trans ?_ (ih _)
    obtain unchanged | ⟨k, -, written⟩ := adopt_cases r s
    · exact unchanged.symm ▸ List.prefix_rfl
    · rw [written, names, names, Table.names_put]
      split
      · exact List.prefix_rfl
      · exact List.prefix_append _ _

theorem loadEach_cons_of_ok {document : Value} {rest : List Value}
    (done : Schema.read document >>= r.register = .ok (stored, r')) :
    r.loadEach (document :: rest) = r'.loadEach rest := by
  rw [loadEach, done]

theorem loadEach_cons_of_error {document : Value} {rest : List Value}
    (refused : Schema.read document >>= r.register = .error fault) :
    r.loadEach (document :: rest) = (r, .error fault) := by
  rw [loadEach, refused]

/-- What is loaded in one piece can be loaded in two. -/
theorem loadEach_append {front back : List Value} (loaded : r.loadEach front = (r', .ok ())) :
    r.loadEach (front ++ back) = r'.loadEach back := by
  induction front generalizing r with
  | nil =>
    obtain rfl : r = r' := congrArg Prod.fst loaded
    rfl
  | cons document front ih =>
    cases outcome : Schema.read document >>= r.register with
    | error found =>
      rw [loadEach_cons_of_error outcome] at loaded
      cases loaded
    | ok out =>
      rw [loadEach_cons_of_ok outcome] at loaded
      exact (loadEach_cons_of_ok outcome).trans (ih loaded)

/-- Documents fail at one of them, and those before it are loaded. -/
theorem loadEach_eq_error {documents : List Value} :
    r.loadEach documents = (r', .error fault) ↔
      ∃ front v back, documents = front ++ v :: back ∧ r.loadEach front = (r', .ok ()) ∧
        Schema.read v >>= r'.register = .error fault := by
  constructor
  · intro failed
    induction documents generalizing r with
    | nil => cases failed
    | cons document rest ih =>
      cases outcome : Schema.read document >>= r.register with
      | error found =>
        rw [loadEach_cons_of_error outcome] at failed
        cases failed
        exact ⟨[], document, rest, rfl, rfl, outcome⟩
      | ok out =>
        rw [loadEach_cons_of_ok outcome] at failed
        obtain ⟨front, v, back, rfl, loaded, refused⟩ := ih failed
        exact ⟨document :: front, v, back, rfl, (loadEach_cons_of_ok outcome).trans loaded, refused⟩
  · rintro ⟨front, v, back, rfl, loaded, refused⟩
    rw [loadEach_append loaded, loadEach_cons_of_error refused]

theorem load_eq_error {documents : Value} :
    r.load documents = (r', .error fault) ↔ (documents.members = .error fault ∧ r' = r) ∨
      ∃ front v back, documents.members = .ok (front ++ v :: back) ∧
        r.load (.list front) = (r', .ok ()) ∧ Schema.read v >>= r'.register = .error fault := by
  rw [load]
  cases documents.members with
  | error found => simp [Prod.ext_iff, and_comm, eq_comm]
  | ok documents =>
    refine loadEach_eq_error.trans ?_
    simp [load, Value.members]

/-- Whatever was called and however it ended, what the registry answers fits together. The next
registration keeps the names or adds one at the end, later calls move none, and a call that fails
leaves the registry as it was; of documents, those before the one that is refused are loaded. -/
theorem run_coherent (builtins : Bool) (calls : List Registration) :
    let r := (start builtins).run calls
    r.Coherent ∧
      (∀ s stored r', r.register s = .ok (stored, r') →
        r'.names = (if r.names.any s.name.same then r.names else r.names ++ [s.name]) ∧
          r'.get s.name = .ok (some stored) ∧ ∀ v, v.same s.name = false → r'.get v = r.get v) ∧
      (∀ more, r.names <+: (r.run more).names) ∧
      (∀ s fault, r.register s = .error fault → r.step (.register s) = (r, .error fault)) ∧
      ∀ documents r' fault, r.step (.load documents) = (r', .error fault) ↔
        (documents.members = .error fault ∧ r' = r) ∨
          ∃ front v back, documents.members = .ok (front ++ v :: back) ∧
            r.step (.load (.list front)) = (r', .ok ()) ∧
            Schema.read v >>= r'.register = .error fault := by
  intro r
  have consistent : r.Consistent := consistent_run builtins calls
  refine ⟨consistent.coherent, fun s stored r' => consistent.register, fun more => ?_,
    fun s fault refused => ?_, fun documents r' fault => load_eq_error⟩
  · rw [run_eq_adopt r more]
    exact names_prefix_adopt r _
  · rw [step, refused]

def twoNames : Value := .list [.dict [("name", .str "a")], .dict [("name", .int 1)]]

/-- True is one, so it adds no name; a name that is a list is refused, and what comes after it is not
loaded. -/
theorem run_coherent_twoNames :
    let r := (start false).run [.load twoNames]
    let more :=
      [.dict [("name", .str "b")], .dict [("name", .list [.null])], .dict [("name", .str "c")]]
    r.names = [.str "a", .int 1] ∧
      (∃ stored r', r.register { name := .bool true } = .ok (stored, r') ∧ r'.names = r.names) ∧
      (∃ fault, r.register { name := .list [.null] } = .error fault ∧
        r.step (.register { name := .list [.null] }) = (r, .error fault)) ∧
      ∃ r' fault, r.step (.load (.list more)) = (r', .error fault) ∧
        r'.names = [.str "a", .int 1, .str "b"] := by
  intro r more
  obtain ⟨-, registered, -, refused, loaded⟩ := run_coherent false [.load twoNames]
  refine ⟨rfl, ⟨_, _, rfl, (registered { name := .bool true } _ _ rfl).1⟩,
    ⟨_, rfl, refused { name := .list [.null] } _ rfl⟩, ?_⟩
  have stopped := (loaded (.list more) _ .notKey).mpr (.inr ⟨more.take 1, _, _, rfl, rfl, rfl⟩)
  exact ⟨_, _, stopped, rfl⟩

end Registry
end ViewCompiler
