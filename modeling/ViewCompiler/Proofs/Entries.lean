import Mathlib.Data.List.Induction
import Mathlib.Data.List.Nodup
import Mathlib.Data.List.Perm.Basic
import ViewCompiler.Entries

/-! Laws of entries. Where no key occurs twice, entries are known by what is found in them, and so is a
merge; entries whose values are changed in place, each by its key, can be read, written and merged
before the change or after it. -/
namespace ViewCompiler.Entries

variable {κ α β : Type} [DecidableEq κ] {es fs : Entries κ α} {k : κ} {a : α}

theorem get?_eq_none (fresh : k ∉ keys es) : get? es k = none := by
  cases found : get? es k with
  | none => rfl
  | some a => exact absurd (List.mem_map_of_mem (mem_of_get? found)) fresh

theorem mem_keys : k ∈ keys es ↔ (get? es k).isSome := by
  refine ⟨fun member => ?_, fun found => ?_⟩
  · induction es with
    | nil => cases member
    | cons e es ih =>
      rw [get?]
      split
      · rfl
      · next other => exact ih ((List.mem_cons.mp member).resolve_left (Ne.symm other))
  · obtain ⟨a, found⟩ := Option.isSome_iff_exists.mp found
    exact List.mem_map_of_mem (mem_of_get? found)

theorem get?_eq_find? (es : Entries κ α) (k : κ) :
    get? es k = (es.find? fun e => e.1 = k).map (·.2) := by
  induction es with
  | nil => rfl
  | cons e es ih =>
    rw [get?, List.find?_cons]
    split
    · next same => simp [same]
    · next other => simpa [other] using ih

theorem get?_put (es : Entries κ α) (j k : κ) (a : α) :
    get? (put es j a) k = if j = k then some a else get? es k := by
  split
  · next same => rw [← same, get?_put_self]
  · next other => rw [get?_put_of_ne es a other]

/-- A write where the key is absent is seen where nothing was found. -/
theorem get?_putNew (es : Entries κ α) (j k : κ) (a : α) :
    get? (putNew es j a) k = (get? es k).or (if j = k then some a else none) := by
  rw [putNew, has]
  cases found : get? es j with
  | none =>
    rw [if_neg (by simp), get?_put]
    split
    · next same => rw [← same, found, Option.none_or]
    · rw [Option.or_none]
  | some b =>
    rw [if_pos Option.isSome_some]
    split
    · next same => rw [← same, found, Option.some_or]
    · rw [Option.or_none]

theorem keys_putNew (es : Entries κ α) (k : κ) (a : α) :
    keys (putNew es k a) = if k ∈ keys es then keys es else keys es ++ [k] := by
  simp only [putNew, has, ← mem_keys]
  split
  · rfl
  · next fresh => rw [keys_put, if_neg fresh]

/-- Where no key occurs twice, what is found is what is there. -/
theorem get?_eq_some_iff (distinct : (keys es).Nodup) : get? es k = some a ↔ (k, a) ∈ es := by
  refine ⟨mem_of_get?, fun member => ?_⟩
  induction es with
  | nil => cases member
  | cons e es ih =>
    obtain ⟨fresh, rest⟩ := List.nodup_cons.mp distinct
    rcases List.mem_cons.mp member with rfl | later
    · simp [get?]
    · have other : e.1 ≠ k := by
        rintro rfl
        exact fresh (List.mem_map.mpr ⟨_, later, rfl⟩)
      rw [get?, if_neg other]
      exact ih rest later

theorem get?_of_perm (perm : es.Perm fs) (distinct : (keys es).Nodup) (k : κ) :
    get? es k = get? fs k := by
  have others : (keys fs).Nodup := (perm.map Prod.fst).nodup distinct
  ext a
  rw [get?_eq_some_iff distinct, get?_eq_some_iff others, perm.mem_iff]

theorem get?_erase (es : Entries κ α) (j k : κ) :
    get? (erase es j) k = if k = j then none else get? es k := by
  split
  · next same => rw [same, get?_erase_self]
  · next other => rw [get?_erase_of_ne es (Ne.symm other)]

theorem erase_comm (es : Entries κ α) (j k : κ) : erase (erase es j) k = erase (erase es k) j := by
  simp only [erase, List.filter_filter, Bool.and_comm]

/-- A key that is not picked can as well be taken away first. -/
theorem filter_erase {p : κ → Bool} (es : Entries κ α) (unpicked : p k = false) :
    (erase es k).filter (fun e => p e.1) = es.filter fun e => p e.1 := by
  rw [erase, List.filter_filter]
  refine List.filter_congr fun e _ => ?_
  by_cases same : e.1 = k
  · rw [same, unpicked, Bool.false_and]
  · rw [decide_eq_true same, Bool.and_true]

theorem put_erase_of_ne {j : κ} (es : Entries κ α) (other : j ≠ k) :
    put (erase es j) k a = erase (put es k a) j := by
  induction es with
  | nil => simp [erase, put, other.symm]
  | cons e es ih =>
    by_cases gone : e.1 = j
    · have kept : e.1 ≠ k := gone ▸ other
      simpa [erase, put, gone, other] using ih
    · by_cases same : e.1 = k
      · simp [erase, put, same, other.symm]
      · simpa [erase, put, gone, same] using ih

theorem nodup_keys_erase (distinct : (keys es).Nodup) (k : κ) : (keys (erase es k)).Nodup :=
  (List.filter_sublist.map Prod.fst).nodup distinct

def eraseAll (es : Entries κ α) (gone : List κ) : Entries κ α := gone.foldl erase es

theorem get?_eraseAll (es : Entries κ α) (gone : List κ) (k : κ) :
    get? (eraseAll es gone) k = if k ∈ gone then none else get? es k := by
  induction gone generalizing es with
  | nil => rfl
  | cons j gone ih =>
    rw [eraseAll, List.foldl_cons]
    refine (ih (erase es j)).trans ?_
    rw [get?_erase]
    grind

theorem nodup_keys_eraseAll (distinct : (keys es).Nodup) (gone : List κ) :
    (keys (eraseAll es gone)).Nodup := by
  induction gone generalizing es with
  | nil => exact distinct
  | cons j gone ih => exact ih (nodup_keys_erase distinct j)

theorem nodup_keys_merge (distinct : (keys es).Nodup) (fs : Entries κ α) :
    (keys (merge es fs)).Nodup := by
  induction fs generalizing es with
  | nil => exact distinct
  | cons f fs ih => exact ih (nodup_keys_put distinct f.1 f.2)

theorem put_of_not_mem (fresh : k ∉ keys es) : put es k a = es ++ [(k, a)] := by
  induction es with
  | nil => rfl
  | cons e es ih =>
    obtain ⟨other, rest⟩ := not_or.mp (mt List.mem_cons.mpr fresh)
    rw [put, if_neg (Ne.symm other), ih rest, List.cons_append]

theorem mem_put {e : κ × α} (member : e ∈ put es k a) : e ∈ es ∨ e = (k, a) := by
  induction es with
  | nil => exact .inr (List.mem_singleton.mp member)
  | cons f es ih => grind [put]

/-- Writes under different keys that are all new come one after the other. -/
theorem merge_of_nodup (distinct : (keys (es ++ fs)).Nodup) : merge es fs = es ++ fs := by
  induction fs generalizing es with
  | nil => exact (List.append_nil es).symm
  | cons f fs ih =>
    have apart : (keys es ++ f.1 :: keys fs).Nodup := by simpa [keys] using distinct
    have fresh : f.1 ∉ keys es := fun member =>
      (List.nodup_append.mp apart).2.2 f.1 member f.1 List.mem_cons_self rfl
    have moved : es ++ f :: fs = es ++ [f] ++ fs := by simp
    rw [moved] at distinct ⊢
    rw [← ih distinct, merge, List.foldl_cons, put_of_not_mem fresh]
    rfl

theorem ofPairs_of_nodup (distinct : (keys es).Nodup) : ofPairs es = es :=
  @merge_of_nodup _ _ _ [] es distinct

/-- What is written last is found, and what is not written over stays. -/
theorem get?_merge (distinct : (keys fs).Nodup) :
    get? (merge es fs) k = (get? fs k).or (get? es k) := by
  induction fs generalizing es with
  | nil => rfl
  | cons f fs ih =>
    obtain ⟨fresh, rest⟩ := List.nodup_cons.mp distinct
    rw [merge, List.foldl_cons]
    refine (ih rest).trans ?_
    rw [get?_put, get?]
    split
    · next same =>
      rw [← same, get?_eq_none fresh]
      rfl
    · rfl

theorem put_of_get? (known : get? es k = some a) : put es k a = es := by
  induction es with
  | nil => cases known
  | cons e es ih =>
    rw [get?] at known
    rw [put]
    split at known
    · next same =>
      rw [if_pos same, ← Option.some.inj known]
    · next other => rw [if_neg other, ih known]

/-- To write what is there already changes nothing. -/
theorem merge_of_get? (known : ∀ f ∈ fs, get? es f.1 = some f.2) : merge es fs = es := by
  induction fs with
  | nil => rfl
  | cons f fs ih =>
    obtain ⟨first, rest⟩ := List.forall_mem_cons.mp known
    rw [merge, List.foldl_cons, put_of_get? first]
    exact ih rest

theorem merge_self (distinct : (keys es).Nodup) : merge es es = es :=
  merge_of_get? fun _ member => (get?_eq_some_iff distinct).mpr member

theorem eraseDups_concat (ks : List κ) (k : κ) : (ks ++ [k]).eraseDups =
    if k ∈ ks.eraseDups then ks.eraseDups else ks.eraseDups ++ [k] := by
  rw [List.eraseDups_append]
  simp only [List.mem_eraseDups]
  split
  · next known => simp [List.removeAll, known]
  · next fresh => simp [List.removeAll, fresh, List.eraseDups_cons]

theorem nodup_eraseDups (ks : List κ) : ks.eraseDups.Nodup := by
  induction ks using List.reverseRecOn with
  | nil => exact .nil
  | append_singleton ks k ih =>
    rw [eraseDups_concat]
    split
    · exact ih
    · next fresh => simpa using ih.concat fresh

/-- Keys that are written anew keep the place at which they came first. -/
theorem keys_merge {ks : List κ} (known : keys es = ks.eraseDups) (fs : Entries κ α) :
    keys (merge es fs) = (ks ++ keys fs).eraseDups := by
  induction fs generalizing es ks with
  | nil => exact known.trans (congrArg List.eraseDups (List.append_nil ks).symm)
  | cons f fs ih =>
    have written : keys (put es f.1 f.2) = (ks ++ [f.1]).eraseDups := by
      rw [keys_put, known, eraseDups_concat]
    rw [show keys (f :: fs) = f.1 :: keys fs from rfl, List.append_cons]
    exact ih written

/-- Where no key occurs twice, to pick entries by their values is to pick keys by what is found. -/
theorem keys_filter (distinct : (keys es).Nodup) (p : α → Bool) :
    keys (es.filter fun e => p e.2) = (keys es).filter fun k => (get? es k).any p := by
  rw [keys, keys, List.filter_map]
  refine congrArg _ (List.filter_congr fun e member => ?_)
  rw [Function.comp_apply, (get?_eq_some_iff distinct).mpr member, Option.any_some]

def mapValues (g : κ → α → β) (es : Entries κ α) : Entries κ β := es.map fun e => (e.1, g e.1 e.2)

section mapValues

variable (g : κ → α → β) (es : Entries κ α)

theorem get?_mapValues (k : κ) : get? (mapValues g es) k = (get? es k).map (g k) := by
  induction es with
  | nil => rfl
  | cons e es ih =>
    rw [mapValues, List.map_cons, get?, get?]
    split
    · next same => rw [← same]; rfl
    · exact ih

theorem has_mapValues (k : κ) : has (mapValues g es) k = has es k := by
  rw [has, get?_mapValues, Option.isSome_map]
  rfl

theorem put_mapValues (k : κ) (a : α) :
    put (mapValues g es) k (g k a) = mapValues g (put es k a) := by
  induction es with
  | nil => rfl
  | cons e es ih =>
    rw [mapValues, List.map_cons, put, put]
    split
    · next same => rw [← same]; rfl
    · exact congrArg _ ih

omit [DecidableEq κ] in
theorem filter_mapValues (p : κ → Bool) :
    (mapValues g es).filter (fun e => p e.1) = mapValues g (es.filter fun e => p e.1) :=
  List.filter_map

theorem erase_mapValues (k : κ) : erase (mapValues g es) k = mapValues g (erase es k) :=
  filter_mapValues g es fun j => decide (j ≠ k)

end mapValues

end ViewCompiler.Entries
