import ViewCompiler.Proofs.Entries
import ViewCompiler.Proofs.Resolve.Totality

/-! What the placeholders of a template are bound to in a call. The caller's arguments come first, and
then the defaults that the parameters declare, the last one first. -/
namespace ViewCompiler

def Param.declares (name : String) (param : Param) : Bool :=
  param.hasDefault && param.name.isText name

namespace Partial

variable {p : Partial} {params : List Param} {start defaults args bindings : Fields} {name : String}

/-- The default that is declared for the name; of several the last counts. -/
def default? (params : List Param) (name : String) : Option Value :=
  (params.reverse.find? (·.declares name)).map (·.default)

/-- What stands for the name in a call: the argument, whatever it is, or else the default. -/
def bound (p : Partial) (args : Fields) (name : String) : Option Value :=
  (args.get? name).or (default? p.params name)

theorem default?_cons (param : Param) (params : List Param) :
    default? (param :: params) name =
      (default? params name).or (if param.declares name then some param.default else none) := by
  rw [default?, List.reverse_cons, List.find?_append, Option.map_or, List.find?_singleton]
  congr 1
  split <;> rfl

/-- The induction is on the parameters, whatever defaults were declared in front of them. -/
theorem get?_of_foldlM
    (done : (params.filter (·.hasDefault)).foldlM (fun (fs : Fields) param => do
      match ← param.name.key with
      | .text name => return fs.put name param.default
      | _ => return fs) start = .ok defaults) :
    defaults.get? name = (default? params name).or (start.get? name) := by
  induction params generalizing start with
  | nil => cases done; rfl
  | cons param params ih =>
    rw [default?_cons, Option.or_assoc]
    cases has : param.hasDefault with
    | false =>
      rw [List.filter_cons_of_neg (by simp [has])] at done
      rw [ih done, Param.declares, has]
      rfl
    | true =>
      rw [List.filter_cons_of_pos has, List.foldlM_cons] at done
      obtain ⟨next, step, rest⟩ := Except.bind_eq_ok.mp done
      obtain ⟨key, known, write⟩ := Except.bind_eq_ok.mp step
      rw [ih rest, Param.declares, has, Bool.true_and]
      congr 1
      by_cases own : param.name = .str name
      · have text : param.name.key = .ok (.text name) := Value.key_eq_text.mpr own
        obtain rfl := Except.ok.inj (text.symm.trans known)
        obtain rfl := Except.pure_eq_ok.mp write
        rw [Value.isText, if_pos (Value.same_str.mpr own), Entries.get?_put_self]
        rfl
      · rw [Value.isText, if_neg (mt Value.same_str.mp own), Option.none_or]
        split at write
        · next other =>
          obtain rfl := Except.pure_eq_ok.mp write
          have named := Value.key_eq_text.mp known
          exact Entries.get?_put_of_ne _ _ fun same => own (same ▸ named)
        · obtain rfl := Except.pure_eq_ok.mp write
          rfl

theorem get?_defaults (done : p.defaults = .ok defaults) :
    defaults.get? name = default? p.params name := by
  rw [get?_of_foldlM done, Entries.get?_nil, Option.or_none]

/-- A call has bindings if every parameter has a text as its name, and they are what stands for each
name. -/
theorem exists_bindings (named : ∀ param ∈ p.params, param.name.isStr)
    (distinct : (Entries.keys args).Nodup) :
    ∃ bindings, p.bindings (.dict args) = .ok bindings ∧ bindings.get? = p.bound args := by
  obtain ⟨defaults, declared⟩ := defaults_total named
  refine ⟨defaults.merge args, by rw [Partial.bindings, declared]; rfl, funext fun name => ?_⟩
  rw [Entries.get?_merge distinct, get?_defaults declared]
  rfl

end Partial
end ViewCompiler
