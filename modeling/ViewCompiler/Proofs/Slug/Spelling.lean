import ViewCompiler.Proofs.Slug.NormalForm

/-! How slugs are spelled: no blank, no underscore and no capital, no hyphen at an end or next to
another, and nothing that lower case would change. Every slug is spelled so, and a text that is
spelled so is its own slug. -/
namespace ViewCompiler.Slug

open Text

variable {cs : List Char} {us vs : List (List Char)}

/-- What the text shows, character by character, without a word about how it came about. -/
structure IsSpelled (cs : List Char) : Prop where
  plain : ∀ c ∈ cs, isBlank c = false ∧ c ≠ '_' ∧ isCapital c = false
  first : cs.head? ≠ some '-'
  last : cs.getLast? ≠ some '-'
  single : ¬ ['-', '-'] <:+: cs
  lower : lower cs = cs

theorem joined_append (front : us ≠ []) (back : vs ≠ []) :
    joined (us ++ vs) = joined us ++ '-' :: joined vs := by
  induction us with
  | nil => contradiction
  | cons u us ih =>
    cases us with
    | nil =>
      cases vs with
      | nil => contradiction
      | cons => rfl
    | cons w us =>
      change u ++ '-' :: joined (w :: us ++ vs) = u ++ '-' :: joined (w :: us) ++ '-' :: joined vs
      rw [ih (List.cons_ne_nil w us), List.append_assoc, List.cons_append]

/-- Where hyphens are the only separators, the pieces make up the text. -/
theorem joined_pieces (hyphens : ∀ c ∈ cs, isSeparator c → c = '-') : joined (pieces cs) = cs := by
  rw [joined_eq_intercalate, pieces_eq_splitOn hyphens, List.intercalate_splitOn]

/-- Empty pieces come from hyphens at an end, and from hyphens next to one another. -/
theorem nil_mem_pieces (hyphens : ∀ c ∈ cs, isSeparator c → c = '-') : [] ∈ pieces cs ↔
    cs = [] ∨ cs.head? = some '-' ∨ cs.getLast? = some '-' ∨ ['-', '-'] <:+: cs := by
  constructor
  · intro member
    obtain ⟨front, back, known⟩ := List.append_of_mem member
    have same := joined_pieces hyphens
    rw [known] at same
    subst same
    rcases front.eq_nil_or_concat with rfl | ⟨us, u, rfl⟩ <;> rcases back with _ | ⟨v, vs⟩
    · exact .inl rfl
    · exact .inr (.inl rfl)
    · rw [joined_append (by simp) (by simp)]
      exact .inr (.inr (.inl List.getLast?_concat))
    · rw [joined_append (by simp) (by simp)]
      exact .inr (.inr (.inr ⟨joined (us ++ [u]), joined (v :: vs), by simp [joined]⟩))
  · rintro (rfl | first | last | ⟨front, back, rfl⟩)
    · exact List.mem_singleton.mpr rfl
    · obtain ⟨rest, rfl⟩ := List.head?_eq_some_iff.mp first
      rw [pieces_cons isSeparator_hyphen]
      exact List.mem_cons_self
    · obtain ⟨rest, rfl⟩ := List.getLast?_eq_some_iff.mp last
      rw [pieces_append_cons rest isSeparator_hyphen]
      exact List.mem_append_right _ List.mem_cons_self
    · rw [List.append_assoc]
      change [] ∈ pieces (front ++ '-' :: '-' :: back)
      rw [pieces_append_cons front isSeparator_hyphen, pieces_cons isSeparator_hyphen]
      exact List.mem_append_right _ List.mem_cons_self

theorem IsNormal.isSpelled (normal : IsNormal cs) : IsSpelled cs := by
  have low := isLower_of_isNormal normal
  obtain ⟨ws, each, rfl⟩ := normal
  have isWord : ∀ w ∈ ws, IsWord w := fun w word => (each w word).1
  have hyphens := eq_hyphen_of_mem_joined isWord
  have edges : (joined ws).head? ≠ some '-' ∧ (joined ws).getLast? ≠ some '-' ∧
      ¬ ['-', '-'] <:+: joined ws := by
    by_cases filled : ws = []
    · subst filled
      simp [joined]
    · have words : [] ∉ pieces (joined ws) := by
        rw [pieces_joined filled isWord]
        exact fun member => (isWord [] member).ne_nil rfl
      rw [nil_mem_pieces hyphens] at words
      obtain ⟨-, first, last, single⟩ := by simpa only [not_or] using words
      exact ⟨first, last, single⟩
  refine ⟨fun c member => ?_, edges.1, edges.2.1, edges.2.2, lowerAfter_eq_self low⟩
  have small := not_isCapital_of_isLower (low c member)
  by_cases separator : isSeparator c
  · obtain rfl := hyphens c member separator
    exact ⟨by decide, by decide, small⟩
  · obtain ⟨⟨blank, line⟩, -⟩ := by simpa [isSeparator] using separator
    exact ⟨blank, line, small⟩

theorem IsSpelled.isNormal (spelled : IsSpelled cs) : IsNormal cs := by
  have hyphens : ∀ c ∈ cs, isSeparator c → c = '-' := by
    intro c member separator
    obtain ⟨blank, line, -⟩ := spelled.plain c member
    simpa [isSeparator, blank, line] using separator
  by_cases filled : cs = []
  · exact ⟨[], List.forall_mem_nil _, filled⟩
  have words : [] ∉ pieces cs := by
    rw [nil_mem_pieces hyphens]
    rintro (empty | first | last | double)
    · exact filled empty
    · exact spelled.first first
    · exact spelled.last last
    · exact spelled.single double
  refine ⟨pieces cs, fun w piece => ⟨⟨?_, fun c member => ?_⟩, fun c member => ?_⟩, ?_⟩
  · rintro rfl
    exact words piece
  · exact (mem_of_mem_pieces piece c member).2
  · have inside := (mem_of_mem_pieces piece c member).1
    rw [← spelled.lower] at inside
    exact (final_of_mem_lower inside).1
  · exact (joined_pieces hyphens).symm

end ViewCompiler.Slug

namespace ViewCompiler

/-- Every slug is spelled as slugs are, the texts that are spelled so are those that are left alone,
and so a slug is its own slug. -/
theorem isSpelled_slug (name : String) : Slug.IsSpelled (slug name).toList ∧
    (Slug.IsSpelled name.toList ↔ slug name = name) ∧ slug (slug name) = slug name := by
  have spelled (name : String) : Slug.IsSpelled (slug name).toList := by
    rw [slug, String.toList_ofList]
    exact (Slug.isNormal_ofChars name.toList).isSpelled
  have unchanged {name : String} (h : Slug.IsSpelled name.toList) : slug name = name := by
    rw [slug, Slug.ofChars_eq_self h.isNormal, String.ofList_toList]
  refine ⟨spelled name, ⟨unchanged, fun same => ?_⟩, slug_slug name⟩
  rw [← same]
  exact spelled name

end ViewCompiler
