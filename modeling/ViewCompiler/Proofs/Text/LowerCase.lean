import ViewCompiler.Text.Blank
import ViewCompiler.Text.LowerCase

/-! Lower case is final: what it makes of a character is left alone by it. None of the characters
that names are split at comes out of another. Both are read off the table of runs, one pair of runs
at a time. -/
namespace ViewCompiler.Text

/-- The characters that names and targets are split at: blanks, and the marks # and - and _. -/
def splitRanges : Ranges := (0x23, 0x23) :: (0x2D, 0x2D) :: (0x5F, 0x5F) :: blankRanges

/-- What no run may yield: surrogates, the dotted capital I, and what names are split at. -/
def barredRanges : Ranges := (0xD800, 0xDFFF) :: (0x130, 0x130) :: splitRanges

namespace CaseRun

variable {run other : CaseRun} {n : Nat}

def has (run : CaseRun) (n : Nat) : Bool :=
  run.1 ≤ n && n ≤ run.2.1 && (n - run.1) % run.2.2.1 == 0

def moved (run : CaseRun) (n : Nat) : Nat := (n + run.2.2.2).toNat

/-- The lower case of the run lies outside the other run, or in the gaps between what it means. -/
def apart (run other : CaseRun) : Bool :=
  other.2.1.blt (run.moved run.1) || (run.moved run.2.1).blt other.1 ||
    ((run.2.2.1 == 2 || run.1 == run.2.1) && other.2.2.1 == 2 &&
      run.moved run.1 % 2 != other.1 % 2)

/-- The lower case of the run is made of characters that no run has and that are not barred. -/
def isFinal (run : CaseRun) : Bool :=
  decide (0 ≤ (run.1 : Int) + run.2.2.2) && (run.moved run.2.1).blt 0x110000 &&
    barredRanges.all (fun r => r.2.blt (run.moved run.1) || (run.moved run.2.1).blt r.1) &&
    lowerRuns.all (run.apart ·)

theorem has_iff : run.has n ↔ run.1 ≤ n ∧ n ≤ run.2.1 ∧ (n - run.1) % run.2.2.1 = 0 := by
  simp [has, and_assoc]

theorem moved_bounds (inside : run.has n) :
    run.moved run.1 ≤ run.moved n ∧ run.moved n ≤ run.moved run.2.1 := by
  obtain ⟨low, high, -⟩ := has_iff.mp inside
  unfold moved
  omega

theorem not_has_of_apart (apart : run.apart other) (forward : 0 ≤ (run.1 : Int) + run.2.2.2)
    (inside : run.has n) : other.has (run.moved n) = false := by
  obtain ⟨above, below⟩ := moved_bounds inside
  obtain ⟨low, high, step⟩ := has_iff.mp inside
  rw [← Bool.not_eq_true, has_iff]
  simp only [CaseRun.apart, Bool.or_eq_true, Bool.and_eq_true, Nat.blt_eq, beq_iff_eq,
    bne_iff_ne] at apart
  rintro ⟨first, last, met⟩
  rcases apart with (beyond | before) | ⟨⟨even, gap⟩, differ⟩
  · omega
  · omega
  · rw [gap] at met
    unfold moved at *
    rcases even with two | single
    · rw [two] at step
      omega
    · omega

end CaseRun

theorem all_isFinal : lowerRuns.all CaseRun.isFinal = true := by decide +kernel

theorem lowerChar_eq {c : Char} (plain : c ≠ '\u0130') : lowerChar c =
    (lowerRuns.find? (·.has c.toNat)).elim [c] fun run => [Char.ofNat (run.moved c.toNat)] := by
  rw [lowerChar, if_neg plain]
  dsimp only
  split
  · next found =>
    have same : lowerRuns.find? (·.has c.toNat) = some _ := found
    rw [same]
    rfl
  · next found =>
    have same : lowerRuns.find? (·.has c.toNat) = none := found
    rw [same]
    rfl

def IsLower (c : Char) : Prop := lowerChar c = [c]

theorem toNat_ofNat {n : Nat} (valid : n.isValidChar) : (Char.ofNat n).toNat = n := by
  rw [Char.ofNat, dif_pos valid]
  rfl

/-- What a run yields is an ordinary character which no run has, and none that names are split at.
-/
theorem outside_of_has {run : CaseRun} {n : Nat} (member : run ∈ lowerRuns) (inside : run.has n) :
    (Char.ofNat (run.moved n)).toNat = run.moved n ∧
      (∀ r ∈ barredRanges, run.moved n < r.1 ∨ r.2 < run.moved n) ∧
      ∀ other ∈ lowerRuns, other.has (run.moved n) = false := by
  have final := List.all_eq_true.mp all_isFinal run member
  simp only [CaseRun.isFinal, Bool.and_eq_true, decide_eq_true_eq, Nat.blt_eq] at final
  obtain ⟨⟨⟨forward, bound⟩, barred⟩, apart⟩ := final
  obtain ⟨low, high⟩ := CaseRun.moved_bounds inside
  have outside : ∀ r ∈ barredRanges, run.moved n < r.1 ∨ r.2 < run.moved n := by
    intro r listed
    have clear := List.all_eq_true.mp barred r listed
    simp only [Bool.or_eq_true, Nat.blt_eq] at clear
    omega
  refine ⟨?_, outside, fun other listed => ?_⟩
  · have scalar := outside (0xD800, 0xDFFF) (by simp [barredRanges])
    apply toNat_ofNat
    unfold Nat.isValidChar
    omega
  · exact CaseRun.not_has_of_apart (List.all_eq_true.mp apart other listed) forward inside

theorem final_of_has {run : CaseRun} {n : Nat} (member : run ∈ lowerRuns) (inside : run.has n) :
    IsLower (Char.ofNat (run.moved n)) ∧ ¬ splitRanges.has (Char.ofNat (run.moved n)) := by
  obtain ⟨code, outside, free⟩ := outside_of_has member inside
  constructor
  · have plain : Char.ofNat (run.moved n) ≠ '\u0130' := by
      intro same
      have dotted := outside (0x130, 0x130) (by simp [barredRanges])
      rw [← code, same] at dotted
      revert dotted
      decide
    have kept : lowerRuns.find? (·.has (run.moved n)) = none :=
      List.find?_eq_none.mpr fun other listed => Bool.eq_false_iff.mp (free other listed)
    rw [IsLower, lowerChar_eq plain, code, kept, Option.elim_none]
  · refine Bool.eq_false_iff.mp (List.any_eq_false.mpr fun r listed met => ?_)
    have clear := outside r (List.mem_cons_of_mem _ (List.mem_cons_of_mem _ listed))
    rw [code] at met
    simp only [Bool.and_eq_true, decide_eq_true_eq] at met
    omega

/-- A character that a run has is changed. -/
theorem not_isLower_of_has {run : CaseRun} {c : Char} (member : run ∈ lowerRuns)
    (inside : run.has c.toNat) : ¬ IsLower c := by
  by_cases dotted : c = '\u0130'
  · subst dotted
    unfold IsLower
    decide +kernel
  · intro low
    rw [IsLower, lowerChar_eq dotted] at low
    cases found : lowerRuns.find? (·.has c.toNat) with
    | none => exact List.find?_eq_none.mp found run member inside
    | some other =>
      have has := List.find?_some (p := fun run : CaseRun => run.has c.toNat) found
      rw [found] at low
      obtain ⟨code, -, free⟩ := outside_of_has (List.mem_of_find?_eq_some found) has
      rw [List.singleton_inj.mp low] at code
      rw [code, free run member] at inside
      cases inside

/-- Of a given text the same is told by computation. -/
theorem final_of_all {ds : List Char} {d : Char}
    (each : ds.all fun d => lowerChar d == [d] && !splitRanges.has d) (member : d ∈ ds) :
    IsLower d ∧ ¬ splitRanges.has d := by
  simpa [IsLower] using List.all_eq_true.mp each d member

/-- What lower case makes of a character is left alone by it, and no character that names are split
at comes out of another. -/
theorem final_of_mem_lowerChar {c d : Char} (member : d ∈ lowerChar c) :
    IsLower d ∧ (splitRanges.has d → d = c) := by
  by_cases dotted : c = '\u0130'
  · subst dotted
    obtain ⟨lower, apart⟩ := final_of_all (by decide +kernel) member
    exact ⟨lower, fun met => absurd met apart⟩
  · rw [lowerChar_eq dotted] at member
    cases found : lowerRuns.find? (·.has c.toNat) with
    | none =>
      rw [found] at member
      obtain rfl := List.mem_singleton.mp member
      refine ⟨?_, fun _ => rfl⟩
      rw [IsLower, lowerChar_eq dotted, found, Option.elim_none]
    | some run =>
      rw [found] at member
      obtain rfl := List.mem_singleton.mp member
      have inside := List.find?_some (p := fun run : CaseRun => run.has c.toNat) found
      obtain ⟨lower, apart⟩ := final_of_has (List.mem_of_find?_eq_some found) inside
      exact ⟨lower, fun met => absurd met apart⟩

theorem lowerChar_ne_nil (c : Char) : lowerChar c ≠ [] := by
  unfold lowerChar
  split
  · simp
  · simp only
    split <;> simp

section texts

variable {before cs : List Char} {c d : Char}

/-- One character at a time: what it becomes is final, and of what names are split at nothing comes
in that was not there. -/
theorem exists_lowerAfter_cons (before : List Char) (c : Char) (cs : List Char) :
    ∃ w, lowerAfter before (c :: cs) = w ++ lowerAfter (c :: before) cs ∧ w ≠ [] ∧
      ∀ d ∈ w, IsLower d ∧ (splitRanges.has d → d = c) := by
  refine ⟨_, rfl, ?_⟩
  by_cases sigma : c = 'Σ'
  · rw [if_pos sigma]
    refine ⟨List.cons_ne_nil _ _, fun d member => ?_⟩
    have either : d ∈ ['ς', 'σ'] := by
      obtain rfl := List.mem_singleton.mp member
      split <;> simp
    obtain ⟨lower, apart⟩ := final_of_all (by decide +kernel) either
    exact ⟨lower, fun met => absurd met apart⟩
  · rw [if_neg sigma]
    exact ⟨lowerChar_ne_nil c, fun d member => final_of_mem_lowerChar member⟩

/-- Where no sigma stands, each character is lowered for itself. -/
theorem lowerAfter_eq_flatMap (plain : 'Σ' ∉ cs) (before : List Char) :
    lowerAfter before cs = cs.flatMap lowerChar := by
  induction cs generalizing before with
  | nil => rfl
  | cons c cs ih =>
    obtain ⟨first, rest⟩ := not_or.mp (mt List.mem_cons.mpr plain)
    rw [lowerAfter, if_neg (Ne.symm first), ih rest, List.flatMap_cons]

/-- Every word of a text is lowered to a word, with the rest after it. -/
theorem exists_lowerAfter_append (before word rest : List Char) :
    ∃ w, lowerAfter before (word ++ rest) = w ++ lowerAfter (word.reverse ++ before) rest ∧
      (word ≠ [] → w ≠ []) ∧ ∀ d ∈ w, IsLower d ∧ (splitRanges.has d → d ∈ word) := by
  induction word generalizing before with
  | nil => exact ⟨[], rfl, fun absurd => absurd, fun d member => by cases member⟩
  | cons c word ih =>
    obtain ⟨v, first, filled, own⟩ := exists_lowerAfter_cons before c (word ++ rest)
    obtain ⟨w, later, -, others⟩ := ih (c :: before)
    refine ⟨v ++ w, ?_, fun _ => by simp [filled], fun d member => ?_⟩
    · rw [List.cons_append, first, later, List.append_assoc, List.reverse_cons, List.append_assoc]
      rfl
    · rcases List.mem_append.mp member with inside | inside
      · obtain ⟨lower, same⟩ := own d inside
        exact ⟨lower, fun met => same met ▸ List.mem_cons_self⟩
      · obtain ⟨lower, kept⟩ := others d inside
        exact ⟨lower, fun met => List.mem_cons_of_mem _ (kept met)⟩

theorem final_of_mem_lower (member : d ∈ lower cs) : IsLower d ∧ (splitRanges.has d → d ∈ cs) := by
  obtain ⟨w, same, -, each⟩ := exists_lowerAfter_append [] cs []
  rw [List.append_nil, lowerAfter, List.append_nil] at same
  exact each d (same ▸ member)

/-- Characters that are their own lower case are left alone, whatever stands around them. -/
theorem lowerAfter_eq_self (low : ∀ c ∈ cs, IsLower c) : lowerAfter before cs = cs := by
  induction cs generalizing before with
  | nil => rfl
  | cons c cs ih =>
    obtain ⟨first, rest⟩ := List.forall_mem_cons.mp low
    have plain : c ≠ 'Σ' := by
      rintro rfl
      revert first
      unfold IsLower
      decide +kernel
    rw [lowerAfter, if_neg plain, first, ih rest]
    rfl

theorem lower_lower (cs : List Char) : lower (lower cs) = lower cs :=
  lowerAfter_eq_self fun _ member => (final_of_mem_lower member).1

end texts

end ViewCompiler.Text
