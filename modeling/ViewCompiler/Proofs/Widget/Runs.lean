import ViewCompiler.Proofs.Entries
import ViewCompiler.Proofs.Trace.Success
import ViewCompiler.Widget.Registry

/-! Runs of calls that change a registry. Whether a schema is taken depends on the schema alone, so a
run leaves the registry that registering the schemas it takes, one after the other, leaves. -/
namespace ViewCompiler

inductive Registration where
  | register (s : Schema)
  | load (documents : Value)

namespace Schema

/-- The schema can stand under its name, and its base can be looked up. -/
def isRegistrable (s : Schema) : Bool :=
  s.name.key?.isSome && (! s.base.truthy || s.base.key?.isSome)

/-- The schemas of the documents up to the first that is refused. -/
def readTaken : List Value → List Schema
  | [] => []
  | document :: rest =>
    match Schema.read document with
    | .ok s => if s.isRegistrable then s :: readTaken rest else []
    | .error _ => []

end Schema

def Registration.schemas : Registration → List Schema
  | .register s => if s.isRegistrable then [s] else []
  | .load documents =>
    match documents.members with
    | .ok documents => Schema.readTaken documents
    | .error _ => []

namespace Registry

/-- A registry to which nothing was added, with the known widget types or without. -/
def start (builtins : Bool) : Registry := if builtins then catalog else {}

def step (r : Registry) : Registration → Registry × Except Fault Unit
  | .register s =>
    match r.register s with
    | .ok (_, r) => (r, .ok ())
    | .error fault => (r, .error fault)
  | .load documents => r.load documents

/-- The registry after the calls; the next call is made whether or not one fails. -/
def run (r : Registry) (calls : List Registration) : Registry :=
  calls.foldl (fun r call => (r.step call).1) r

def adopt (r : Registry) (ss : List Schema) : Registry := r.run (ss.map .register)

def parent? (r : Registry) (s : Schema) : Option Schema :=
  if s.base.truthy then s.base.key?.bind r.table.get? else none

def completed (r : Registry) (s : Schema) : Schema := (r.parent? s).elim s s.inherit

variable {r r' : Registry} {s stored : Schema} {k : Key} {v : Value} {fault : Fault}

theorem get_eq (name : v.key? = some k) : r.get v = .ok (r.table.get? k) := by
  simp [get, Value.key, name, Except.ok_bind, pure, Except.pure]

theorem get_of_not_key (name : v.key? = none) : r.get v = .error .notKey := by
  simp [get, Value.key, name, bind, Except.bind]

theorem complete_eq (base : s.base.truthy → s.base.key?.isSome) :
    r.complete s = .ok (r.completed s) := by
  rw [complete, completed, parent?]
  split
  · next extends_ =>
    obtain ⟨k, found⟩ := Option.isSome_iff_exists.mp (base extends_)
    rw [get_eq found, Except.ok_bind, found, Option.bind_some]
    cases r.table.get? k <;> rfl
  · rfl

@[simp] theorem completed_name (r : Registry) (s : Schema) : (r.completed s).name = s.name := by
  rw [completed]
  cases r.parent? s <;> rfl

theorem register_eq (taken : s.isRegistrable) (name : s.name.key? = some k) :
    r.register s = .ok (r.completed s, ⟨r.table.put k s.name (r.completed s)⟩) := by
  have base : s.base.truthy → s.base.key?.isSome := by
    intro extends_
    simpa [Schema.isRegistrable, name, extends_] using taken
  rw [register, complete_eq base, Except.ok_bind]
  simp [Value.key, name, Except.ok_bind, pure, Except.pure]

theorem exists_key (taken : s.isRegistrable) : ∃ k, s.name.key? = some k :=
  Option.isSome_iff_exists.mp (Bool.and_eq_true_iff.mp taken).1

theorem base_of_complete (done : r.complete s = .ok stored) (extends_ : s.base.truthy) :
    s.base.key?.isSome := by
  cases found : s.base.key? with
  | some k => rfl
  | none =>
    rw [complete, if_pos extends_, get, Value.key, found] at done
    cases done

theorem isRegistrable_of_register {out : Schema × Registry} (done : r.register s = .ok out) :
    s.isRegistrable := by
  obtain ⟨stored, complete_, rest⟩ := Except.bind_eq_ok.mp done
  obtain ⟨k, name, -⟩ := Except.bind_eq_ok.mp rest
  have base := base_of_complete complete_
  obtain rfl : r.completed s = stored := Except.ok.inj ((complete_eq base).symm.trans complete_)
  rw [completed_name, Value.key] at name
  rw [Schema.isRegistrable]
  cases found : s.name.key? with
  | none =>
    rw [found] at name
    cases name
  | some j => cases extends_ : s.base.truthy <;> simp_all

/-- What a registration does: nothing, or one write under the name of the schema. A schema that one
registry refuses is refused by all. -/
theorem register_cases (r : Registry) (s : Schema) :
    (s.isRegistrable = false ∧ ∃ fault, r.register s = .error fault) ∨
    (s.isRegistrable ∧ ∃ k, s.name.key? = some k ∧
      r.register s = .ok (r.completed s, ⟨r.table.put k s.name (r.completed s)⟩)) := by
  cases taken : s.isRegistrable with
  | true =>
    obtain ⟨k, name⟩ := exists_key taken
    exact .inr ⟨rfl, k, name, register_eq taken name⟩
  | false =>
    refine .inl ⟨rfl, ?_⟩
    cases outcome : r.register s with
    | error fault => exact ⟨fault, rfl⟩
    | ok out => exact absurd (isRegistrable_of_register outcome) (by simp [taken])

theorem adopt_append (r : Registry) (ss ts : List Schema) :
    r.adopt (ss ++ ts) = (r.adopt ss).adopt ts := by
  rw [adopt, List.map_append]
  exact List.foldl_append

theorem adopt_cons (r : Registry) (s : Schema) (ss : List Schema) :
    r.adopt (s :: ss) = (r.adopt [s]).adopt ss := rfl

theorem adopt_of_register (done : r.register s = .ok (stored, r')) : r.adopt [s] = r' := by
  simp [adopt, run, step, done]

theorem adopt_of_refused (refused : s.isRegistrable = false) : r.adopt [s] = r := by
  obtain ⟨-, fault, outcome⟩ | ⟨taken, -⟩ := register_cases r s
  · simp [adopt, run, step, outcome]
  · rw [refused] at taken
    cases taken

/-- One schema more changes nothing, or is one write. -/
theorem adopt_cases (r : Registry) (s : Schema) :
    r.adopt [s] = r ∨ ∃ k, s.name.key? = some k ∧
      r.adopt [s] = ⟨r.table.put k s.name (r.completed s)⟩ := by
  obtain ⟨refused, -⟩ | ⟨-, k, name, outcome⟩ := register_cases r s
  · exact .inl (adopt_of_refused refused)
  · exact .inr ⟨k, name, adopt_of_register outcome⟩

theorem get_adopt_self (r : Registry) (taken : s.isRegistrable) :
    (r.adopt [s]).get s.name = .ok (some (r.completed s)) := by
  obtain ⟨k, name⟩ := exists_key taken
  rw [adopt_of_register (register_eq taken name), get_eq name, Table.get?_put_self]

theorem get_adopt_of_ne (r : Registry) (other : s.name.key? ≠ v.key?) :
    (r.adopt [s]).get v = r.get v := by
  obtain unchanged | ⟨k, name, written⟩ := adopt_cases r s
  · rw [unchanged]
  · rw [written]
    cases asked : v.key? with
    | none => rw [get_of_not_key asked, get_of_not_key asked]
    | some j =>
      have apart : k ≠ j := by
        rintro rfl
        exact other (name.trans asked.symm)
      rw [get_eq asked, get_eq asked, Table.get?_put_of_ne _ _ _ apart]

theorem loadEach_fst (r : Registry) (documents : List Value) :
    (r.loadEach documents).1 = r.adopt (Schema.readTaken documents) := by
  induction documents generalizing r with
  | nil => rfl
  | cons document rest ih =>
    rw [loadEach, Schema.readTaken]
    cases Schema.read document with
    | error fault => rfl
    | ok s =>
      obtain ⟨refused, fault, outcome⟩ | ⟨taken, k, name, outcome⟩ := register_cases r s
      · simp [Except.ok_bind, outcome, refused, adopt, run]
      · rw [Except.ok_bind, outcome]
        dsimp only
        rw [if_pos taken, adopt_cons, adopt_of_register outcome]
        exact ih _

theorem step_fst (r : Registry) (call : Registration) :
    (r.step call).1 = r.adopt call.schemas := by
  cases call with
  | register s =>
    rw [Registration.schemas]
    split
    · rfl
    · next refused => exact adopt_of_refused (Bool.eq_false_iff.mpr refused)
  | load documents =>
    rw [step, load, Registration.schemas]
    cases documents.members with
    | error fault => rfl
    | ok documents => exact loadEach_fst r documents

/-- Calls leave what registering their schemas one by one leaves, whatever fails between. -/
theorem run_eq_adopt (r : Registry) (calls : List Registration) :
    r.run calls = r.adopt (calls.flatMap Registration.schemas) := by
  induction calls generalizing r with
  | nil => rfl
  | cons call calls ih =>
    rw [List.flatMap_cons, adopt_append, ← step_fst]
    exact ih _

theorem isRegistrable_of_mem_readTaken {documents : List Value}
    (member : s ∈ Schema.readTaken documents) : s.isRegistrable := by
  induction documents with
  | nil => cases member
  | cons document rest ih =>
    rw [Schema.readTaken] at member
    cases read : Schema.read document with
    | error fault => simp [read] at member
    | ok t => grind

theorem isRegistrable_of_mem {call : Registration} (member : s ∈ call.schemas) :
    s.isRegistrable := by
  cases call with
  | register t => grind [Registration.schemas]
  | load documents =>
    rw [Registration.schemas] at member
    cases listed : documents.members with
    | error fault => simp [listed] at member
    | ok documents =>
      rw [listed] at member
      exact isRegistrable_of_mem_readTaken member

def known (builtins : Bool) : List Schema := if builtins then Catalog.all else []

theorem catalog_eq_adopt : catalog = ({} : Registry).adopt Catalog.all := by
  rfl

/-- A run is told by its history: what is known, followed by what the calls register. -/
theorem start_run (builtins : Bool) (calls : List Registration) :
    (start builtins).run calls =
      ({} : Registry).adopt (known builtins ++ calls.flatMap Registration.schemas) := by
  rw [run_eq_adopt, adopt_append]
  cases builtins with
  | false => rfl
  | true => exact congrArg (adopt · _) catalog_eq_adopt

theorem isRegistrable_of_history {builtins : Bool} {calls : List Registration}
    (member : s ∈ known builtins ++ calls.flatMap Registration.schemas) : s.isRegistrable := by
  have known_ : ∀ s ∈ known builtins, s.isRegistrable := by
    cases builtins <;> decide
  rcases List.mem_append.mp member with old | new
  · exact known_ s old
  · obtain ⟨call, -, member⟩ := List.mem_flatMap.mp new
    exact isRegistrable_of_mem member

end Registry
end ViewCompiler
