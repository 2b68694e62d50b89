import ViewCompiler.Proofs.Pairs
import ViewCompiler.Trace

/-! Runs that succeed, with the diagnostics that they leave. Log records are passed over, and a run
in several parts leaves the diagnostics of its parts one after the other. -/
namespace ViewCompiler

section Except

variable {ε α β : Type}

theorem Except.bind_eq_ok {x : Except ε α} {f : α → Except ε β} {b : β} :
    (x >>= f) = .ok b ↔ ∃ a, x = .ok a ∧ f a = .ok b := by
  cases x <;> simp [bind, Except.bind]

theorem Except.map_eq_ok {x : Except ε α} {f : α → β} {b : β} :
    (f <$> x) = .ok b ↔ ∃ a, x = .ok a ∧ f a = b := by
  cases x <;> simp [Functor.map, Except.map]

theorem Except.pure_eq_ok {a b : α} : (pure a : Except ε α) = .ok b ↔ a = b := by
  simp [pure, Except.pure]

theorem Except.ok_bind (a : α) (f : α → Except ε β) : (Except.ok a >>= f) = f a := rfl

theorem Except.mapM_eq_ok {f : α → Except ε β} {as : List α} {bs : List β} :
    as.mapM f = .ok bs ↔ List.Forall₂ (fun a b => f a = .ok b) as bs := by
  induction as generalizing bs with
  | nil => rw [List.mapM_nil, Except.pure_eq_ok, List.forall₂_nil_left_iff, eq_comm]
  | cons a as ih =>
    simp only [List.mapM_cons, Except.bind_eq_ok, Except.pure_eq_ok, ih]
    constructor
    · rintro ⟨b, head, bs, tail, rfl⟩
      exact .cons head tail
    · rintro (_ | ⟨head, tail⟩)
      exact ⟨_, head, _, tail, rfl⟩

/-- A value that can be read off the result shows that there is one. -/
theorem Except.exists_of_toOption_map {x : Except ε α} {f : α → β} {b : β}
    (known : x.toOption.map f = some b) : ∃ a, x = .ok a ∧ f a = b := by
  cases x with
  | error fault => cases known
  | ok a => exact ⟨a, rfl, Option.some.inj known⟩

theorem Except.length_of_mapM {f : α → Except ε β} {as : List α} {bs : List β}
    (h : as.mapM f = .ok bs) : bs.length = as.length :=
  (Except.mapM_eq_ok.mp h).length_eq.symm

end Except

namespace Traced

variable {α β : Type}

/-- The run succeeds with this result and leaves these diagnostics. -/
def Gives (x : Traced α) (ds : List Diagnostic) (a : α) : Prop :=
  x.result = .ok a ∧ x.diagnostics = ds

theorem gives_of_result {x : Traced α} {a : α} (h : x.result = .ok a) : x.Gives x.diagnostics a :=
  ⟨h, rfl⟩

@[simp] theorem gives_pure {a b : α} {ds : List Diagnostic} :
    (pure a : Traced α).Gives ds b ↔ a = b ∧ ds = [] := by
  simp [Gives, diagnostics, eq_comm]

@[simp] theorem gives_ofExcept {x : Except Fault α} {a : α} {ds : List Diagnostic} :
    (ofExcept x).Gives ds a ↔ x = .ok a ∧ ds = [] := by
  simp [Gives, ofExcept, diagnostics, eq_comm]

theorem ofExcept_ok_bind (a : α) (f : α → Traced β) : ofExcept (.ok a) >>= f = f a := rfl

@[simp] theorem not_gives_fail {fault : Fault} {a : α} {ds : List Diagnostic} :
    ¬ (fail fault : Traced α).Gives ds a := by
  simp [Gives, fail]

@[simp] theorem gives_log {level : Level} {speaker : Speaker} {message : String} {u : Unit}
    {ds : List Diagnostic} : (log level speaker message).Gives ds u ↔ ds = [] := by
  simp [Gives, log, emit, diagnostics, eq_comm]

@[simp] theorem gives_diagnose {found ds : List Diagnostic} {u : Unit} :
    (diagnose found).Gives ds u ↔ ds = found := by
  simp [Gives, diagnose, emit, diagnostics, eq_comm]

theorem gives_bind {x : Traced α} {f : α → Traced β} {b : β} {ds : List Diagnostic} :
    (x >>= f).Gives ds b ↔
      ∃ a ds₁ ds₂, x.Gives ds₁ a ∧ (f a).Gives ds₂ b ∧ ds = ds₁ ++ ds₂ := by
  obtain ⟨events, result⟩ := x
  cases result with
  | error fault => simp [Gives, bind]
  | ok a => simp [Gives, bind, diagnostics, eq_comm, and_assoc]

theorem gives_map {x : Traced α} {f : α → β} {b : β} {ds : List Diagnostic} :
    (f <$> x).Gives ds b ↔ ∃ a, x.Gives ds a ∧ f a = b := by
  rw [← bind_pure_comp, gives_bind]
  simp

/-- Nothing is reported before the first part is done. -/
theorem gives_ofExcept_bind {x : Except Fault α} {f : α → Traced β} {b : β}
    {ds : List Diagnostic} :
    (ofExcept x >>= f).Gives ds b ↔ ∃ a, x = .ok a ∧ (f a).Gives ds b := by
  simp [gives_bind]

theorem gives_report {h : Head} {code : Code} {message : String} {u : Unit}
    {ds : List Diagnostic} :
    (report h code message).Gives ds u ↔
      ∃ place, h.place = .ok place ∧ ds = [Diagnostic.make .error code message place] := by
  rw [report, gives_ofExcept_bind]
  simp only [gives_diagnose]

section mapM

variable {f : α → Traced β} {R : α → β → Prop} {note : β → List Diagnostic}

/-- A run over a list is a run over each of its items, and leaves what those leave. -/
theorem gives_mapM_iff {as : List α} {bs : List β} {ds : List Diagnostic} :
    (as.mapM f).Gives ds bs ↔ ∃ rs : List (β × List Diagnostic),
      List.Forall₂ (fun a r => (f a).Gives r.2 r.1) as rs ∧
        bs = rs.map Prod.fst ∧ ds = rs.flatMap Prod.snd := by
  induction as generalizing bs ds with
  | nil =>
    rw [List.mapM_nil, gives_pure]
    constructor
    · rintro ⟨rfl, rfl⟩
      exact ⟨[], .nil, rfl, rfl⟩
    · rintro ⟨_, ⟨⟩, rfl, rfl⟩
      exact ⟨rfl, rfl⟩
  | cons a as ih =>
    simp only [List.mapM_cons, gives_bind, gives_pure, ih]
    constructor
    · rintro ⟨b, ds₁, _, first, ⟨_, _, _, ⟨rs, rest, rfl, rfl⟩, ⟨rfl, rfl⟩, rfl⟩, rfl⟩
      exact ⟨(b, ds₁) :: rs, .cons first rest, rfl, by simp⟩
    · rintro ⟨_, _ | ⟨first, rest⟩, rfl, rfl⟩
      exact ⟨_, _, _, first, ⟨_, _, _, ⟨_, rest, rfl, rfl⟩, ⟨rfl, rfl⟩, rfl⟩, by simp⟩

theorem length_of_gives_mapM {as : List α} {bs : List β} {ds : List Diagnostic}
    (run : (as.mapM f).Gives ds bs) : bs.length = as.length := by
  obtain ⟨rs, pairs, rfl, -⟩ := gives_mapM_iff.mp run
  rw [List.length_map, pairs.length_eq]

/-- What every run over an item says of its result and diagnostics, the run over a list says of
all. -/
theorem forall₂_of_gives_mapM {as : List α} {bs : List β} {ds : List Diagnostic}
    (each : ∀ a ∈ as, ∀ ds b, (f a).Gives ds b → R a b ∧ ds = note b)
    (run : (as.mapM f).Gives ds bs) : List.Forall₂ R as bs ∧ ds = bs.flatMap note := by
  obtain ⟨rs, pairs, rfl, rfl⟩ := gives_mapM_iff.mp run
  have known : List.Forall₂ (fun a r => R a r.1 ∧ r.2 = note r.1) as rs :=
    forall₂_imp_of_mem pairs fun a member r => each a member r.2 r.1
  refine ⟨List.forall₂_map_right_iff.mpr (known.imp fun _ _ => And.left), ?_⟩
  rw [List.flatMap_map]
  refine flatMap_eq_of_forall₂ (List.forall₂_same.mpr fun r member => ?_)
  obtain ⟨_, -, _, noted⟩ := exists_left_of_forall₂ known member
  exact noted

theorem gives_mapM_of_forall₂ {as : List α} {bs : List β}
    (each : List.Forall₂ (fun a b => (f a).Gives (note b) b) as bs) :
    (as.mapM f).Gives (bs.flatMap note) bs := by
  refine gives_mapM_iff.mpr
    ⟨bs.map fun b => (b, note b), List.forall₂_map_right_iff.mpr each, ?_, ?_⟩
  · rw [List.map_map]
    exact (List.map_id bs).symm
  · rw [List.flatMap_map]

/-- If runs over items are known exactly, then so is the run over a list. -/
theorem gives_mapM {as : List α} {bs : List β} {ds : List Diagnostic}
    (each : ∀ a ds b, (f a).Gives ds b ↔ R a b ∧ ds = note b) :
    (as.mapM f).Gives ds bs ↔ List.Forall₂ R as bs ∧ ds = bs.flatMap note := by
  constructor
  · exact forall₂_of_gives_mapM fun a _ ds b => (each a ds b).mp
  · rintro ⟨pairs, rfl⟩
    exact gives_mapM_of_forall₂ (pairs.imp fun a b related => (each a _ b).mpr ⟨related, rfl⟩)

end mapM

end Traced
end ViewCompiler
