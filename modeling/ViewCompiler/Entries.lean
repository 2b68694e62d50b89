/-! Entries in insertion order: a key keeps the place of its first insertion and holds the value
written last. The laws of `put` say that it changes one key and moves none. -/
namespace ViewCompiler

abbrev Entries (κ α : Type) := List (κ × α)

namespace Entries

variable {κ α : Type} [DecidableEq κ]

def get? : Entries κ α → κ → Option α
  | [], _ => none
  | (j, a) :: es, k => if j = k then some a else get? es k

def has (es : Entries κ α) (k : κ) : Bool := (get? es k).isSome

def keys (es : Entries κ α) : List κ := es.map Prod.fst

def values (es : Entries κ α) : List α := es.map Prod.snd

/-- A new key goes to the end; a present one keeps its place. -/
def put : Entries κ α → κ → α → Entries κ α
  | [], k, a => [(k, a)]
  | (j, b) :: es, k, a => if j = k then (j, a) :: es else (j, b) :: put es k a

def putNew (es : Entries κ α) (k : κ) (a : α) : Entries κ α :=
  if has es k then es else put es k a

def erase (es : Entries κ α) (k : κ) : Entries κ α := es.filter (·.1 ≠ k)

/-- The second entries are written over the first. -/
def merge (es fs : Entries κ α) : Entries κ α := fs.foldl (fun es e => put es e.1 e.2) es

def ofPairs (es : List (κ × α)) : Entries κ α := merge [] es

@[simp] theorem get?_nil (k : κ) : get? ([] : Entries κ α) k = none := rfl

theorem get?_append (es fs : Entries κ α) (k : κ) :
    get? (es ++ fs) k = (get? es k).or (get? fs k) := by
  induction es with
  | nil => rfl
  | cons e es ih =>
    rw [List.cons_append, get?, get?]
    split
    · rfl
    · exact ih

@[simp] theorem get?_put_self (es : Entries κ α) (k : κ) (a : α) :
    get? (put es k a) k = some a := by
  induction es with
  | nil => simp [put, get?]
  | cons e es ih => by_cases h : e.1 = k <;> simp [put, get?, h, ih]

@[simp] theorem get?_put_of_ne (es : Entries κ α) {j k : κ} (a : α) (h : j ≠ k) :
    get? (put es j a) k = get? es k := by
  induction es with
  | nil => simp [put, get?, h]
  | cons e es ih =>
    by_cases hj : e.1 = j <;> by_cases hk : e.1 = k <;> simp_all [put, get?]

/-- A present key moves nothing; a new one comes last. -/
theorem keys_put (es : Entries κ α) (k : κ) (a : α) :
    keys (put es k a) = if k ∈ keys es then keys es else keys es ++ [k] := by
  induction es with
  | nil => simp [put, keys]
  | cons e es ih =>
    by_cases h : e.1 = k
    · simp [put, keys, h]
    · have hk : ¬ k = e.1 := fun eq => h eq.symm
      simp only [keys] at ih
      by_cases hm : k ∈ es.map Prod.fst <;> simp_all [put, keys]

theorem nodup_keys_put {es : Entries κ α} (h : (keys es).Nodup) (k : κ) (a : α) :
    (keys (put es k a)).Nodup := by
  rw [keys_put]
  split
  · exact h
  · next new =>
    rw [List.nodup_append]
    refine ⟨h, by simp, ?_⟩
    intro j hj l hl same
    rw [List.mem_singleton.mp hl] at same
    exact new (same ▸ hj)

/-- What was under a picked key is still there, and nothing is under any other. -/
theorem get?_filter (p : κ → Bool) (es : Entries κ α) (k : κ) :
    get? (es.filter fun e => p e.1) k = if p k then get? es k else none := by
  induction es with
  | nil => simp
  | cons e es ih => by_cases hk : e.1 = k <;> by_cases hp : p e.1 <;> simp_all [get?]

@[simp] theorem get?_erase_self (es : Entries κ α) (k : κ) : get? (erase es k) k = none :=
  (get?_filter (fun j => decide (j ≠ k)) es k).trans (by simp)

@[simp] theorem get?_erase_of_ne (es : Entries κ α) {j k : κ} (h : j ≠ k) :
    get? (erase es j) k = get? es k :=
  (get?_filter (fun i => decide (i ≠ j)) es k).trans (by simp [h.symm])

theorem mem_of_get? {es : Entries κ α} {k : κ} {a : α} (h : get? es k = some a) :
    (k, a) ∈ es := by
  induction es with
  | nil => simp at h
  | cons e es ih =>
    by_cases hk : e.1 = k
    · simp [get?, hk] at h
      simp [← h, ← hk]
    · simp [get?, hk] at h
      exact List.mem_cons_of_mem _ (ih h)

end Entries
end ViewCompiler
