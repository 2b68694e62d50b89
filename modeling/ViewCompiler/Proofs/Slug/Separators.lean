import ViewCompiler.Proofs.Slug.NormalForm

/-! Separators in names. They tell where words end, and neither which they are nor how many stand in a
row makes a difference to the slug. Apart from them nothing of a name is lost: without its hyphens,
a slug is the lower case of the name without its separators. -/
namespace ViewCompiler

namespace Slug

open Text

variable {a b c : Char} {cs gap : List Char} {ws : List (List Char)}

section boundaries

theorem not_between_of_isSeparator {first last : Char} (separator : isSeparator c)
    (clear : ∀ r ∈ splitRanges, r.2 < first.toNat ∨ last.toNat < r.1) :
    (decide (first ≤ c) && decide (c ≤ last)) = false := by
  obtain ⟨r, listed, met⟩ := List.any_eq_true.mp (has_splitRanges.mpr (.inr separator))
  have apart := clear r listed
  rw [← Bool.not_eq_true]
  intro within
  simp only [Bool.and_eq_true, decide_eq_true_eq] at within met
  have low : first.toNat ≤ c.toNat := within.1
  have high : c.toNat ≤ last.toNat := within.2
  omega

/-- Separators are neither letters nor digits, so camel case does not see them. -/
theorem uncased_of_isSeparator (separator : isSeparator c) :
    isCapital c = false ∧ isSmall c = false ∧ isDigit c = false :=
  ⟨not_between_of_isSeparator separator (by decide),
    not_between_of_isSeparator separator (by decide),
    not_between_of_isSeparator separator (by decide)⟩

theorem hyphenate_cons (separator : isSeparator c) (cs : List Char) :
    hyphenate (c :: cs) = c :: hyphenate cs := by
  obtain ⟨capital, small, digit⟩ := uncased_of_isSeparator separator
  cases cs with
  | nil => rfl
  | cons b cs => rw [hyphenate, if_neg (by simp [isBoundary, capital, small, digit])]

/-- A boundary is found by what stands before the next separator. -/
theorem isBoundary_append_cons (separator : isSeparator c) (rest : List Char) :
    isBoundary a b (cs ++ c :: rest) = isBoundary a b cs := by
  obtain ⟨-, small, -⟩ := uncased_of_isSeparator separator
  cases cs with
  | nil => simp [isBoundary, small]
  | cons => rfl

theorem hyphenate_append_cons (cs : List Char) (separator : isSeparator c) (rest : List Char) :
    hyphenate (cs ++ c :: rest) = hyphenate cs ++ c :: hyphenate rest := by
  fun_induction hyphenate cs with
  | case1 => exact hyphenate_cons separator rest
  | case2 a =>
    obtain ⟨capital, -, -⟩ := uncased_of_isSeparator separator
    change hyphenate (a :: c :: rest) = a :: c :: hyphenate rest
    rw [hyphenate, if_neg (by simp [isBoundary, capital]), hyphenate_cons separator rest]
  | case3 a b cs boundary ih =>
    change hyphenate (a :: b :: (cs ++ c :: rest)) = _
    rw [hyphenate, if_pos ((isBoundary_append_cons separator rest).trans boundary)]
    exact congrArg (a :: '-' :: ·) ih
  | case4 a b cs within ih =>
    change hyphenate (a :: b :: (cs ++ c :: rest)) = _
    rw [hyphenate, isBoundary_append_cons separator rest, if_neg within]
    exact congrArg (a :: ·) ih

end boundaries

section gaps

structure IsGap (gap : List Char) : Prop where
  ne_nil : gap ≠ []
  separators : ∀ c ∈ gap, isSeparator c

theorem words_hyphenate_skip (separators : ∀ c ∈ gap, isSeparator c) (rest : List Char) :
    words (hyphenate (gap ++ rest)) = words (hyphenate rest) := by
  induction gap with
  | nil => rfl
  | cons c gap ih =>
    obtain ⟨first, more⟩ := List.forall_mem_cons.mp separators
    rw [List.cons_append, hyphenate_cons first]
    exact (words_append_cons [] first _).trans (ih more)

/-- On either side of a gap words are found as if the other side were not there. -/
theorem words_hyphenate_append (front : List Char) (between : IsGap gap) (back : List Char) :
    words (hyphenate (front ++ gap ++ back)) =
      words (hyphenate front) ++ words (hyphenate back) := by
  obtain ⟨filled, separators⟩ := between
  cases gap with
  | nil => contradiction
  | cons c gap =>
    obtain ⟨first, more⟩ := List.forall_mem_cons.mp separators
    rw [List.append_assoc, List.cons_append, hyphenate_append_cons front first,
      words_append_cons _ first, words_hyphenate_skip more]

end gaps

section unseparated

theorem flatten_words (cs : List Char) : (words cs).flatten = unseparated cs := by
  rw [words, List.flatten_filter_not_isEmpty, flatten_pieces]

theorem unseparated_cons {ds : List Char} (c : Char) (same : unseparated cs = unseparated ds) :
    unseparated (c :: cs) = unseparated (c :: ds) := by
  simp only [unseparated, List.filter_cons] at same ⊢
  rw [same]

/-- The hyphens at the boundaries are all that camel case adds. -/
theorem unseparated_hyphenate (cs : List Char) : unseparated (hyphenate cs) = unseparated cs := by
  fun_induction hyphenate cs with
  | case1 | case2 => rfl
  | case3 a b cs _ ih => exact unseparated_cons a ih
  | case4 a b cs _ ih => exact unseparated_cons a ih

end unseparated

section hyphens

/-- Hyphens can be taken away before lower case or after it. -/
theorem filter_flatMap_lowerChar (cs : List Char) :
    (cs.flatMap lowerChar).filter (· ≠ '-') = (cs.filter (· ≠ '-')).flatMap lowerChar := by
  induction cs with
  | nil => rfl
  | cons c cs ih =>
    rw [List.flatMap_cons, List.filter_append, ih]
    by_cases hyphen : c = '-'
    · subst hyphen
      rw [show lowerChar '-' = ['-'] from isLower_hyphen]
      rfl
    · have kept : (lowerChar c).filter (· ≠ '-') = lowerChar c := by
        refine List.filter_eq_self.mpr fun d member => decide_eq_true ?_
        rintro rfl
        exact hyphen ((final_of_mem_lowerChar member).2 (by decide)).symm
      rw [kept, List.filter_cons_of_pos (by simpa using hyphen), List.flatMap_cons]

/-- Hyphens are the only separators between words. -/
theorem filter_joined (each : ∀ w ∈ ws, IsWord w) :
    (joined ws).filter (· ≠ '-') = ws.flatten := by
  have hyphens := eq_hyphen_of_mem_joined each
  calc (joined ws).filter (· ≠ '-')
    _ = unseparated (joined ws) := by
      refine List.filter_congr fun c member => ?_
      rw [isSeparator_eq_beq (hyphens c member)]
      exact decide_not
    _ = (words (joined ws)).flatten := (flatten_words _).symm
    _ = ws.flatten := by rw [words_joined each]

/-- Without its hyphens, a slug is the lower case of what the name has besides separators. -/
theorem filter_ofChars (plain : 'Σ' ∉ cs) :
    (ofChars cs).filter (· ≠ '-') = lower (unseparated cs) := by
  have within : 'Σ' ∉ joined (words (hyphenate cs)) := by
    intro member
    rcases mem_of_mem_joined_words member with absurd | given
    · cases absurd
    · exact plain given
  have left : 'Σ' ∉ unseparated cs := fun member => plain (List.mem_filter.mp member).1
  calc (ofChars cs).filter (· ≠ '-')
    _ = ((joined (words (hyphenate cs))).flatMap lowerChar).filter (· ≠ '-') := by
      rw [ofChars, lower, lowerAfter_eq_flatMap within]
    _ = (words (hyphenate cs)).flatten.flatMap lowerChar := by
      rw [filter_flatMap_lowerChar, filter_joined fun w word => (isWord_of_mem_words word).1]
    _ = (unseparated cs).flatMap lowerChar := by rw [flatten_words, unseparated_hyphenate]
    _ = lower (unseparated cs) := (lowerAfter_eq_flatMap left []).symm

end hyphens

end Slug

/-- A gap in a name can be put in the place of any other, and without its hyphens the slug of a name
that has no sigma is the lower case of the name without its separators. -/
theorem slug_of_gaps :
    (∀ x y s t : String, Slug.IsGap s.toList → Slug.IsGap t.toList →
      slug (x ++ s ++ y) = slug (x ++ t ++ y)) ∧
    ∀ name : String, 'Σ' ∉ name.toList →
      (slug name).toList.filter (· ≠ '-') = Text.lower (Slug.unseparated name.toList) := by
  refine ⟨fun x y s t first second => ?_, fun name plain => ?_⟩
  · simp only [slug, Slug.ofChars, String.toList_append]
    rw [Slug.words_hyphenate_append _ first, Slug.words_hyphenate_append _ second]
  · rw [slug, String.toList_ofList]
    exact Slug.filter_ofChars plain

theorem slug_of_gaps_dashboard :
    slug ("Admin" ++ " _" ++ "Dashboard") = slug ("Admin" ++ "-" ++ "Dashboard") ∧
      (slug "İmage_HTTPStatus ").toList.filter (· ≠ '-') = "i\u0307magehttpstatus".toList :=
  ⟨slug_of_gaps.1 _ _ _ _ ⟨by decide, List.all_eq_true.mp (by decide)⟩
      ⟨by decide, List.all_eq_true.mp (by decide)⟩,
    (slug_of_gaps.2 _ (by decide)).trans (by decide +kernel)⟩

end ViewCompiler
