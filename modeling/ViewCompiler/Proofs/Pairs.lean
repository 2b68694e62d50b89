import Mathlib.Data.List.Forall2

/-! Lists whose items are related one to one, in their order. -/
namespace ViewCompiler

variable {α β γ : Type} {R S : α → β → Prop} {as : List α} {bs : List β}

theorem forall₂_imp_of_mem (pairs : List.Forall₂ R as bs)
    (each : ∀ a ∈ as, ∀ b, R a b → S a b) : List.Forall₂ S as bs := by
  obtain ⟨length, related⟩ := List.forall₂_iff_zip.mp pairs
  exact List.forall₂_iff_zip.mpr
    ⟨length, fun member => each _ (List.of_mem_zip member).1 _ (related member)⟩

theorem forall₂_imp_of_mem_right (pairs : List.Forall₂ R as bs)
    (each : ∀ b ∈ bs, ∀ a, R a b → S a b) : List.Forall₂ S as bs :=
  (forall₂_imp_of_mem pairs.flip each).flip

theorem exists_left_of_forall₂ (pairs : List.Forall₂ R as bs) {b : β} (member : b ∈ bs) :
    ∃ a ∈ as, R a b := by
  induction pairs with
  | nil => cases member
  | cons head tail ih =>
    rcases List.mem_cons.mp member with rfl | later
    · exact ⟨_, by simp, head⟩
    · obtain ⟨a, inside, related⟩ := ih later
      exact ⟨a, by simp [inside], related⟩

theorem exists_right_of_forall₂ (pairs : List.Forall₂ R as bs) {a : α} (member : a ∈ as) :
    ∃ b ∈ bs, R a b :=
  exists_left_of_forall₂ pairs.flip member

theorem exists_left_of_zip (length : as.length = bs.length)
    (each : ∀ {a b}, (a, b) ∈ as.zip bs → R a b) {b : β} (member : b ∈ bs) : ∃ a ∈ as, R a b :=
  exists_left_of_forall₂ (List.forall₂_iff_zip.mpr ⟨length, each⟩) member

theorem exists_right_of_zip (length : as.length = bs.length)
    (each : ∀ {a b}, (a, b) ∈ as.zip bs → R a b) {a : α} (member : a ∈ as) : ∃ b ∈ bs, R a b :=
  exists_right_of_forall₂ (List.forall₂_iff_zip.mpr ⟨length, each⟩) member

theorem map_eq_of_forall₂ {f : α → γ} {g : β → γ}
    (pairs : List.Forall₂ (fun a b => f a = g b) as bs) : as.map f = bs.map g := by
  induction pairs with
  | nil => rfl
  | cons head _ ih => rw [List.map_cons, List.map_cons, head, ih]

theorem flatMap_eq_of_forall₂ {f : α → List γ} {g : β → List γ}
    (pairs : List.Forall₂ (fun a b => f a = g b) as bs) : as.flatMap f = bs.flatMap g := by
  induction pairs with
  | nil => rfl
  | cons head tail ih => rw [List.flatMap_cons, List.flatMap_cons, head, ih]

/-- Two lists of partners are equal where partners are. -/
theorem eq_of_forall₂ {T : α → γ → Prop} {U : α → γ → Prop} {cs ds : List γ}
    (first : List.Forall₂ T as cs) (second : List.Forall₂ U as ds)
    (each : ∀ a ∈ as, ∀ c d, T a c → U a d → c = d) : cs = ds := by
  induction first generalizing ds with
  | nil => exact (List.forall₂_nil_left_iff.mp second).symm
  | cons head tail ih =>
    obtain ⟨d, ds, related, rest, rfl⟩ := List.forall₂_cons_left_iff.mp second
    rw [each _ (by simp) _ _ head related, ih rest fun a member => each a (by simp [member])]

theorem exists_forall₂ (each : ∀ a ∈ as, ∃ b, R a b) : ∃ bs, List.Forall₂ R as bs := by
  induction as with
  | nil => exact ⟨[], .nil⟩
  | cons a as ih =>
    obtain ⟨b, head⟩ := each a (by simp)
    obtain ⟨bs, tail⟩ := ih fun a member => each a (by simp [member])
    exact ⟨b :: bs, .cons head tail⟩

/-- Two lists in a row have partners in a row. -/
theorem forall₂_append_left {as' : List α} : List.Forall₂ R (as ++ as') bs ↔
    ∃ cs cs', List.Forall₂ R as cs ∧ List.Forall₂ R as' cs' ∧ bs = cs ++ cs' := by
  constructor
  · induction as generalizing bs with
    | nil => exact fun pairs => ⟨[], bs, .nil, pairs, rfl⟩
    | cons a as ih =>
      intro pairs
      obtain _ | ⟨head, rest⟩ := pairs
      obtain ⟨cs, cs', front, back, rfl⟩ := ih rest
      exact ⟨_ :: cs, cs', .cons head front, back, rfl⟩
  · rintro ⟨cs, cs', front, back, rfl⟩
    exact List.rel_append front back

/-- Items that are moved take their partners along. -/
theorem exists_forall₂_of_perm {as' : List α} (perm : as.Perm as') (pairs : List.Forall₂ R as bs) :
    ∃ bs', List.Forall₂ R as' bs' ∧ (as.zip bs).Perm (as'.zip bs') := by
  induction perm generalizing bs with
  | nil => exact ⟨bs, pairs, .refl _⟩
  | cons a _ ih =>
    obtain _ | ⟨head, rest⟩ := pairs
    obtain ⟨bs', related, moved⟩ := ih rest
    exact ⟨_, .cons head related, moved.cons _⟩
  | swap a b as =>
    obtain _ | ⟨first, _ | ⟨second, rest⟩⟩ := pairs
    exact ⟨_, .cons second (.cons first rest), .swap _ _ _⟩
  | trans _ _ ih₁ ih₂ =>
    obtain ⟨bs', related, moved⟩ := ih₁ pairs
    obtain ⟨bs'', again, further⟩ := ih₂ related
    exact ⟨bs'', again, moved.trans further⟩

section between

variable {cs : List γ} {T : α → γ → Prop} {U : γ → β → Prop}

/-- Items that are related by way of something in between are so by way of a list. -/
theorem forall₂_comp : List.Forall₂ (fun a b => ∃ c, T a c ∧ U c b) as bs ↔
    ∃ cs, List.Forall₂ T as cs ∧ List.Forall₂ U cs bs := by
  constructor
  · intro pairs
    induction pairs with
    | nil => exact ⟨[], .nil, .nil⟩
    | cons head _ ih =>
      obtain ⟨c, first, second⟩ := head
      obtain ⟨cs, left, right⟩ := ih
      exact ⟨c :: cs, .cons first left, .cons second right⟩
  · rintro ⟨cs, left, right⟩
    induction left generalizing bs with
    | nil =>
      cases right
      exact .nil
    | cons first _ ih =>
      obtain _ | ⟨second, right⟩ := right
      exact .cons ⟨_, first, second⟩ (ih right)

theorem forall₂_map_eq {g : γ → β} : List.Forall₂ (fun c b => b = g c) cs bs ↔ bs = cs.map g := by
  induction cs generalizing bs with
  | nil => rw [List.forall₂_nil_left_iff, List.map_nil]
  | cons c cs ih =>
    rw [List.forall₂_cons_left_iff, List.map_cons]
    constructor
    · rintro ⟨_, _, rfl, rest, rfl⟩
      rw [ih.mp rest]
    · rintro rfl
      exact ⟨_, _, rfl, ih.mpr rfl, rfl⟩

/-- Partners that are made of related items are a list that is made of them. -/
theorem forall₂_exists_map {g : γ → β} : List.Forall₂ (fun a b => ∃ c, T a c ∧ b = g c) as bs ↔
    ∃ cs, List.Forall₂ T as cs ∧ bs = cs.map g := by
  simp only [forall₂_comp, forall₂_map_eq]

end between

end ViewCompiler
