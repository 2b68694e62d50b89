import Mathlib.Data.Option.Basic
import ViewCompiler.Proofs.Entries
import ViewCompiler.Proofs.Value.Equality

/-! Values up to the order of keys. Values that are alike are equal as values are compared, and the
same value where there is no dictionary in them; fields that are alike stay so when they are written,
taken away or picked by their keys. -/
namespace ViewCompiler

namespace Value

def isScalar : Value → Bool
  | .null | .bool _ | .int _ | .float _ | .str _ => true
  | .list _ | .dict _ => false

inductive Flat : Value → Prop
  | scalar {v} (bare : v.isScalar) : Flat v
  | list {xs} (each : ∀ x ∈ xs, Flat x) : Flat (.list xs)

/-- The values differ in nothing but the order of keys, at any depth. -/
inductive Alike : Value → Value → Prop
  | scalar {v} (bare : v.isScalar) : Alike v v
  | list {xs ys} (length : xs.length = ys.length)
      (each : ∀ {x y}, (x, y) ∈ xs.zip ys → Alike x y) : Alike (.list xs) (.list ys)
  | dict {fs gs} (distinct : (Entries.keys fs).Nodup)
      (keys : (Entries.keys fs).Perm (Entries.keys gs))
      (each : ∀ {key v w}, Entries.get? fs key = some v → Entries.get? gs key = some w →
        Alike v w) : Alike (.dict fs) (.dict gs)

end Value

structure Fields.Alike (fs gs : Fields) : Prop where
  distinct : (Entries.keys fs).Nodup
  distinct_right : (Entries.keys gs).Nodup
  get? : ∀ key, Option.Rel Value.Alike (Entries.get? fs key) (Entries.get? gs key)

variable {v w v' w' : Value} {xs ys : List Value} {fs gs fs' gs' : Fields} {key : String}

section options

variable {α β : Type} {r : α → β → Prop} {a c : Option α} {b d : Option β} {x : α} {y : β}

theorem cases_of_rel (related : Option.Rel r a b) :
    a = none ∧ b = none ∨ ∃ x y, a = some x ∧ b = some y ∧ r x y := by
  cases related with
  | none => exact .inl ⟨rfl, rfl⟩
  | some related => exact .inr ⟨_, _, rfl, rfl, related⟩

theorem isSome_of_rel (related : Option.Rel r a b) : b.isSome = a.isSome := by
  cases related <;> rfl

theorem getD_of_rel (related : Option.Rel r a b) (default : r x y) : r (a.getD x) (b.getD y) := by
  cases related with
  | some related => exact related
  | none => exact default

theorem or_of_rel (first : Option.Rel r a b) (second : Option.Rel r c d) :
    Option.Rel r (a.or c) (b.or d) := by
  cases first with
  | some related => exact .some related
  | none => exact second

end options

section values

namespace Value

theorem alike_dict : (Value.dict fs).Alike (.dict gs) ↔ Fields.Alike fs gs := by
  constructor
  · rintro (bare | _ | ⟨distinct, keys, each⟩)
    · cases bare
    · refine ⟨distinct, keys.nodup distinct, fun key => ?_⟩
      have both := keys.mem_iff (a := key)
      rw [Entries.mem_keys, Entries.mem_keys] at both
      cases left : Entries.get? fs key with
      | none =>
        cases right : Entries.get? gs key with
        | none => exact .none
        | some w => simp [left, right] at both
      | some v =>
        cases right : Entries.get? gs key with
        | none => simp [left, right] at both
        | some w => exact .some (each left right)
  · rintro ⟨distinct, distinct_right, related⟩
    refine .dict distinct ((List.perm_ext_iff_of_nodup distinct distinct_right).mpr fun key => ?_) ?_
    · rw [Entries.mem_keys, Entries.mem_keys, isSome_of_rel (related key)]
    · intro key v w left right
      have alike := related key
      rw [left, right] at alike
      exact Option.rel_some_some.mp alike

namespace Alike

theorem truthy_eq (alike : v.Alike w) : w.truthy = v.truthy := by
  have empty {α β : Type} {as : List α} {bs : List β} (length : as.length = bs.length) :
      bs.isEmpty = as.isEmpty := by
    cases as <;> cases bs <;> simp at length ⊢
  cases alike with
  | scalar => rfl
  | list length => rw [truthy, truthy, empty length]
  | dict _ keys => rw [truthy, truthy, empty (by simpa [Entries.keys] using keys.length_eq)]

theorem orElse (alike : v.Alike w) (alike' : v'.Alike w') : (v.orElse v').Alike (w.orElse w') := by
  rw [Value.orElse, Value.orElse, alike.truthy_eq]
  split
  · exact alike
  · exact alike'

/-- Where there is no dictionary, nothing can be in another order. -/
theorem eq_of_flat (alike : v.Alike w) (flat : v.Flat) : w = v := by
  induction alike with
  | scalar => rfl
  | @list xs ys length each ih =>
    obtain bare | inside := flat
    · cases bare
    · have pairs : List.Forall₂ (fun x y => x = y) xs ys := List.forall₂_iff_zip.mpr
        ⟨length, fun member => (ih member (inside _ (List.of_mem_zip member).1)).symm⟩
      rw [List.forall₂_eq_eq_eq] at pairs
      rw [pairs]
  | dict =>
    obtain bare | _ := flat
    cases bare

end Alike

/-- Values that differ in the order of keys only are equal. -/
theorem Alike.same (alike : v.Alike w) : v.same w := by
  induction alike with
  | @scalar v bare =>
    cases v with
    | list | dict => cases bare
    | null | bool | int | float | str => simp [Value.same, key?]
  | list length each ih =>
    rw [Value.same, sameItems_iff, List.forall₂_iff_zip]
    exact ⟨length, ih⟩
  | @dict fs gs distinct keys each ih =>
    have length : fs.length = gs.length := by simpa [Entries.keys] using keys.length_eq
    rw [Value.same, Bool.and_eq_true, beq_iff_eq, sameFields_iff]
    refine ⟨length, fun f member => ?_⟩
    have left := (Entries.get?_eq_some_iff distinct).mpr member
    obtain ⟨w, right⟩ := Option.isSome_iff_exists.mp
      (Entries.mem_keys.mp (keys.mem_iff.mp (List.mem_map_of_mem member)))
    exact ⟨w, right, ih left right⟩

end Value

end values

section fields

namespace Fields.Alike

theorem nil : Fields.Alike [] [] := ⟨.nil, .nil, fun _ => .none⟩

theorem cons (first : v.Alike w) (fresh : Entries.has fs key = false) (rest : fs.Alike gs) :
    Fields.Alike ((key, v) :: fs) ((key, w) :: gs) := by
  have unlisted {fs : Fields} (fresh : Entries.has fs key = false) : key ∉ Entries.keys fs := by
    rw [Entries.mem_keys]
    exact Bool.eq_false_iff.mp fresh
  have fresh_right : Entries.has gs key = false := (isSome_of_rel (rest.get? key)).trans fresh
  refine ⟨List.nodup_cons.mpr ⟨unlisted fresh, rest.distinct⟩,
    List.nodup_cons.mpr ⟨unlisted fresh_right, rest.distinct_right⟩, fun other => ?_⟩
  rw [Entries.get?, Entries.get?]
  split
  · exact .some first
  · exact rest.get? other

variable (alike : Fields.Alike fs gs)
include alike

theorem has_eq (key : String) : Entries.has gs key = Entries.has fs key :=
  isSome_of_rel (alike.get? key)

theorem getD (key : String) : (fs.getD key).Alike (gs.getD key) :=
  getD_of_rel (alike.get? key) (.scalar rfl)

theorem getD_eq_of_flat (flat : ∀ v, Entries.get? fs key = some v → v.Flat) :
    gs.getD key = fs.getD key := by
  refine (alike.getD key).eq_of_flat ?_
  rw [Fields.getD]
  cases found : Entries.get? fs key with
  | none => exact .scalar rfl
  | some v => exact flat v found

/-- Fields are picked by their keys. -/
theorem filter (p : String → Bool) :
    Fields.Alike (fs.filter fun e => p e.1) (gs.filter fun e => p e.1) where
  distinct := (List.filter_sublist.map Prod.fst).nodup alike.distinct
  distinct_right := (List.filter_sublist.map Prod.fst).nodup alike.distinct_right
  get? key := by
    rw [Entries.get?_filter, Entries.get?_filter]
    split
    · exact alike.get? key
    · exact .none

theorem erase (key : String) : Fields.Alike (Entries.erase fs key) (Entries.erase gs key) :=
  alike.filter fun other => decide (other ≠ key)

theorem eraseAll (gone : List String) :
    Fields.Alike (Entries.eraseAll fs gone) (Entries.eraseAll gs gone) := by
  induction gone generalizing fs gs with
  | nil => exact alike
  | cons key gone ih => exact ih (alike.erase key)

theorem merge (written : Fields.Alike fs' gs') :
    Fields.Alike (Entries.merge fs fs') (Entries.merge gs gs') where
  distinct := Entries.nodup_keys_merge alike.distinct fs'
  distinct_right := Entries.nodup_keys_merge alike.distinct_right gs'
  get? key := by
    rw [Entries.get?_merge written.distinct, Entries.get?_merge written.distinct_right]
    exact or_of_rel (written.get? key) (alike.get? key)

theorem put (written : v.Alike w) (key : String) :
    Fields.Alike (Entries.put fs key v) (Entries.put gs key w) :=
  alike.merge (.cons written rfl .nil)

end Fields.Alike

end fields

end ViewCompiler
