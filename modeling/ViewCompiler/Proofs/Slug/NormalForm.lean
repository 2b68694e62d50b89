import ViewCompiler.Proofs.Text.LowerCase
import ViewCompiler.Slug

/-! The normal form of slugs: words in lower case with single hyphens between them. Every slug has
it, and what has it is its own slug. -/
namespace ViewCompiler.Slug

open Text

variable {c : Char} {cs w : List Char} {ws : List (List Char)}

structure IsWord (w : List Char) : Prop where
  ne_nil : w ≠ []
  plain : ∀ c ∈ w, isSeparator c = false

/-- The text is made up of words in lower case with single hyphens between them. -/
def IsNormal (cs : List Char) : Prop :=
  ∃ ws, (∀ w ∈ ws, IsWord w ∧ ∀ c ∈ w, IsLower c) ∧ cs = joined ws

theorem isSeparator_hyphen : isSeparator '-' := by decide

/-- Where only hyphens separate, to separate is to be a hyphen. -/
theorem isSeparator_eq_beq (only : isSeparator c → c = '-') : isSeparator c = (c == '-') := by
  rw [Bool.eq_iff_iff, beq_iff_eq]
  exact ⟨only, fun same => same ▸ isSeparator_hyphen⟩

theorem has_splitRanges : splitRanges.has c ↔ c = '#' ∨ isSeparator c := by
  have mark (d : Char) : (decide (d.toNat ≤ c.toNat) && decide (c.toNat ≤ d.toNat)) = (c == d) := by
    rw [Bool.eq_iff_iff]
    simp only [Bool.and_eq_true, decide_eq_true_eq, beq_iff_eq, ← Char.toNat_inj]
    omega
  have hash : (decide (0x23 ≤ c.toNat) && decide (c.toNat ≤ 0x23)) = (c == '#') := mark '#'
  have hyphen : (decide (0x2D ≤ c.toNat) && decide (c.toNat ≤ 0x2D)) = (c == '-') := mark '-'
  have line : (decide (0x5F ≤ c.toNat) && decide (c.toNat ≤ 0x5F)) = (c == '_') := mark '_'
  simp only [splitRanges, Ranges.has, List.any_cons, isSeparator, isBlank, hash, hyphen, line,
    Bool.or_eq_true, beq_iff_eq]
  grind

theorem mem_joined (member : c ∈ joined ws) : c = '-' ∨ ∃ w ∈ ws, c ∈ w := by
  induction ws with
  | nil => cases member
  | cons w ws ih =>
    cases ws with
    | nil => exact .inr ⟨w, List.mem_cons_self, member⟩
    | cons v ws =>
      rcases List.mem_append.mp member with front | back
      · exact .inr ⟨w, List.mem_cons_self, front⟩
      · rcases List.mem_cons.mp back with rfl | later
        · exact .inl rfl
        · obtain same | ⟨u, inside, found⟩ := ih later
          · exact .inl same
          · exact .inr ⟨u, List.mem_cons_of_mem _ inside, found⟩

section pieces

theorem pieces_eq_splitOnP (cs : List Char) : pieces cs = cs.splitOnP isSeparator := by
  induction cs with
  | nil => exact List.splitOnP_nil.symm
  | cons c cs ih =>
    rw [pieces, ih, List.splitOnP_cons_eq_if_modifyHead]
    split
    · rfl
    · cases known : cs.splitOnP isSeparator with
      | nil => exact absurd known (List.splitOnP_ne_nil isSeparator cs)
      | cons => rfl

/-- Where hyphens are the only separators, the text is split at hyphens. -/
theorem pieces_eq_splitOn (hyphens : ∀ c ∈ cs, isSeparator c → c = '-') :
    pieces cs = cs.splitOn '-' := by
  induction cs with
  | nil => exact (List.splitOn_nil '-').symm
  | cons c cs ih =>
    obtain ⟨first, rest⟩ := List.forall_mem_cons.mp hyphens
    rw [pieces_eq_splitOnP, List.splitOnP_cons_eq_if_modifyHead, ← pieces_eq_splitOnP, ih rest,
      List.splitOn_cons_eq_if_modifyHead, isSeparator_eq_beq first]

theorem joined_eq_intercalate (ws : List (List Char)) : joined ws = ['-'].intercalate ws := by
  induction ws with
  | nil => rfl
  | cons w ws ih =>
    cases ws with
    | nil => exact List.intercalate_singleton.symm
    | cons v ws =>
      change w ++ '-' :: joined (v :: ws) = _
      rw [ih, List.intercalate_cons_cons, List.append_assoc, List.singleton_append]

def unseparated (cs : List Char) : List Char := cs.filter (! isSeparator ·)

theorem flatten_pieces (cs : List Char) : (pieces cs).flatten = unseparated cs := by
  induction cs with
  | nil => rfl
  | cons c cs ih =>
    rw [pieces, unseparated, List.filter_cons]
    split
    · next separator =>
      rw [List.flatten_cons, List.nil_append, ih, if_neg (by simp [separator])]
      rfl
    · next plain =>
      rw [if_pos (by simp [plain]), ← unseparated, ← ih]
      cases pieces cs <;> rfl

/-- The pieces hold the characters of the text, without the separators. -/
theorem mem_of_mem_pieces (piece : w ∈ pieces cs) :
    ∀ c ∈ w, c ∈ cs ∧ isSeparator c = false := by
  intro c member
  have inside : c ∈ unseparated cs := by
    rw [← flatten_pieces]
    exact List.mem_flatten_of_mem piece member
  simpa [unseparated] using inside

theorem isWord_of_mem_words (word : w ∈ words cs) : IsWord w ∧ ∀ c ∈ w, c ∈ cs := by
  obtain ⟨piece, some⟩ := List.mem_filter.mp word
  have inside := mem_of_mem_pieces piece
  refine ⟨⟨?_, fun c member => (inside c member).2⟩, fun c member => (inside c member).1⟩
  rintro rfl
  cases some

theorem pieces_cons (separator : isSeparator c) : pieces (c :: cs) = [] :: pieces cs :=
  if_pos separator

/-- A separator ends a piece, whatever stands in front of it. -/
theorem pieces_append_cons (cs : List Char) (separator : isSeparator c) (rest : List Char) :
    pieces (cs ++ c :: rest) = pieces cs ++ pieces rest := by
  simp only [pieces_eq_splitOnP, List.splitOnP_append_cons cs rest separator]

theorem words_append_cons (cs : List Char) (separator : isSeparator c) (rest : List Char) :
    words (cs ++ c :: rest) = words cs ++ words rest := by
  rw [words, pieces_append_cons cs separator, List.filter_append]
  rfl

theorem eq_hyphen_of_mem_joined (each : ∀ w ∈ ws, IsWord w) :
    ∀ c ∈ joined ws, isSeparator c → c = '-' := by
  intro c member separator
  rcases mem_joined member with same | ⟨w, word, inside⟩
  · exact same
  · rw [(each w word).plain c inside] at separator
    cases separator

/-- Words are the pieces of the text that is made up of them. -/
theorem pieces_joined (filled : ws ≠ []) (each : ∀ w ∈ ws, IsWord w) : pieces (joined ws) = ws := by
  have apart : ∀ w ∈ ws, '-' ∉ w := by
    intro w word inside
    exact Bool.eq_false_iff.mp ((each w word).plain '-' inside) isSeparator_hyphen
  rw [pieces_eq_splitOn (eq_hyphen_of_mem_joined each), joined_eq_intercalate]
  exact List.splitOn_intercalate '-' apart filled

theorem words_joined (each : ∀ w ∈ ws, IsWord w) : words (joined ws) = ws := by
  cases ws with
  | nil => rfl
  | cons w ws =>
    rw [words, pieces_joined (List.cons_ne_nil w ws) each]
    exact List.filter_eq_self.mpr fun v member => by simpa using (each v member).ne_nil

end pieces

section hyphenate

theorem mem_hyphenate (member : c ∈ hyphenate cs) : c = '-' ∨ c ∈ cs := by
  fun_induction hyphenate cs with
  | case1 => cases member
  | case2 => exact .inr member
  | case3 a b cs _ ih => grind
  | case4 a b cs _ ih => grind

theorem not_isCapital_of_isLower (low : IsLower c) : isCapital c = false := by
  have latin : ((0x41, 0x5A, 0x1, 0x20) : CaseRun) ∈ lowerRuns := List.mem_cons_self
  rw [← Bool.not_eq_true]
  intro capital
  simp only [isCapital, Bool.and_eq_true, decide_eq_true_eq] at capital
  refine not_isLower_of_has latin (CaseRun.has_iff.mpr ⟨?_, ?_, Nat.mod_one _⟩) low
  · exact capital.1
  · exact capital.2

/-- Without capitals there is no boundary inside a word. -/
theorem hyphenate_eq_self (small : ∀ c ∈ cs, isCapital c = false) : hyphenate cs = cs := by
  fun_induction hyphenate cs with
  | case1 | case2 => rfl
  | case3 a b cs boundary =>
    have capital := small b (by simp)
    simp [isBoundary, capital] at boundary
  | case4 a b cs _ ih => rw [ih fun c member => small c (List.mem_cons_of_mem _ member)]

end hyphenate

section lower

theorem isLower_hyphen : IsLower '-' := by
  unfold IsLower
  decide +kernel

theorem lowerAfter_hyphen {before : List Char} :
    lowerAfter before ('-' :: cs) = '-' :: lowerAfter ('-' :: before) cs := by
  rw [lowerAfter, if_neg (by decide), isLower_hyphen]
  rfl

/-- Lower case leaves words apart, and turns none into no word. -/
theorem exists_lowerAfter_joined (before : List Char) (each : ∀ w ∈ ws, IsWord w) :
    ∃ vs, vs.length = ws.length ∧ (∀ v ∈ vs, IsWord v ∧ ∀ c ∈ v, IsLower c) ∧
      lowerAfter before (joined ws) = joined vs := by
  induction ws generalizing before with
  | nil => exact ⟨[], rfl, (fun _ absurd => by cases absurd), rfl⟩
  | cons w ws ih =>
    obtain ⟨word, rest⟩ := List.forall_mem_cons.mp each
    have lowered : ∀ v : List Char, (w ≠ [] → v ≠ []) →
        (∀ d ∈ v, IsLower d ∧ (splitRanges.has d → d ∈ w)) → IsWord v ∧ ∀ c ∈ v, IsLower c := by
      intro v filled own
      refine ⟨⟨filled word.ne_nil, fun d member => ?_⟩, fun d member => (own d member).1⟩
      rw [← Bool.not_eq_true]
      intro separator
      have kept := (own d member).2 (has_splitRanges.mpr (.inr separator))
      rw [word.plain d kept] at separator
      cases separator
    cases ws with
    | nil =>
      obtain ⟨v, same, filled, own⟩ := exists_lowerAfter_append before w []
      simp only [List.append_nil, lowerAfter] at same
      exact ⟨[v], rfl, List.forall_mem_singleton.mpr (lowered v filled own), same⟩
    | cons u ws =>
      obtain ⟨v, same, filled, own⟩ := exists_lowerAfter_append before w ('-' :: joined (u :: ws))
      obtain ⟨vs, length, words, later⟩ := ih ('-' :: (w.reverse ++ before)) rest
      refine ⟨v :: vs, congrArg (· + 1) length, ?_, ?_⟩
      · exact List.forall_mem_cons.mpr ⟨lowered v filled own, words⟩
      · change lowerAfter before (w ++ '-' :: joined (u :: ws)) = _
        rw [same, lowerAfter_hyphen, later]
        cases vs with
        | nil => cases length
        | cons => rfl

end lower

/-- Every slug has the normal form. -/
theorem isNormal_ofChars (cs : List Char) : IsNormal (ofChars cs) := by
  obtain ⟨vs, -, each, same⟩ := exists_lowerAfter_joined []
    fun w (word : w ∈ words (hyphenate cs)) => (isWord_of_mem_words word).1
  exact ⟨vs, each, same⟩

theorem isLower_of_isNormal (normal : IsNormal cs) : ∀ c ∈ cs, IsLower c := by
  obtain ⟨ws, each, rfl⟩ := normal
  intro c member
  rcases mem_joined member with rfl | ⟨w, word, inside⟩
  · exact isLower_hyphen
  · exact (each w word).2 c inside

/-- What has the normal form is its own slug. -/
theorem ofChars_eq_self (normal : IsNormal cs) : ofChars cs = cs := by
  have low := isLower_of_isNormal normal
  obtain ⟨ws, each, rfl⟩ := normal
  rw [ofChars, hyphenate_eq_self fun c member => not_isCapital_of_isLower (low c member),
    words_joined fun w word => (each w word).1]
  exact lowerAfter_eq_self low

/-- Up to lower case, a slug has the characters of the name, and hyphens. -/
theorem mem_of_mem_joined_words (member : c ∈ joined (words (hyphenate cs))) : c = '-' ∨ c ∈ cs := by
  rcases mem_joined member with same | ⟨w, word, inside⟩
  · exact .inl same
  · exact mem_hyphenate ((isWord_of_mem_words word).2 c inside)

/-- No number sign comes into a slug that is not in the name. -/
theorem hash_mem_of_mem_ofChars (member : '#' ∈ ofChars cs) : '#' ∈ cs := by
  have kept := (final_of_mem_lower member).2 (has_splitRanges.mpr (.inl rfl))
  exact (mem_of_mem_joined_words kept).resolve_left (by decide)

end ViewCompiler.Slug

namespace ViewCompiler

theorem slug_slug (name : String) : slug (slug name) = slug name := by
  rw [slug, slug, String.toList_ofList,
    Slug.ofChars_eq_self (Slug.isNormal_ofChars name.toList)]

theorem hash_not_mem_slug {name : String} (plain : '#' ∉ name.toList) :
    '#' ∉ (slug name).toList := by
  rw [slug, String.toList_ofList]
  exact mt Slug.hash_mem_of_mem_ofChars plain

end ViewCompiler
