import ViewCompiler.Proofs.Node.Trees
import ViewCompiler.Proofs.Resolve.Targets
import ViewCompiler.Proofs.Template.Filling

/-! Well-formed trees: every node has a place, names are texts, and records and children stand where
they should. Every such tree can be searched and walked. -/
namespace ViewCompiler

def Value.isStr : Value → Bool
  | .str _ => true
  | _ => false

def Value.isDict : Value → Bool
  | .dict _ => true
  | _ => false

theorem Value.exists_of_isStr {v : Value} (text : v.isStr) : ∃ s, v = .str s := by
  cases v with
  | str s => exact ⟨s, rfl⟩
  | null | bool | int | float | list | dict => cases text

theorem Value.exists_of_isDict {v : Value} (mapping : v.isDict) : ∃ fs, v = .dict fs := by
  cases v with
  | dict fs => exact ⟨fs, rfl⟩
  | null | bool | int | float | str | list => cases mapping

def Head.isPlaced (h : Head) : Bool := h.loc.isProper

namespace Node

/-- A child node whose own fields have the forms that they should have. -/
def isSound : Node → Bool
  | .sect s children => s.toHead.isPlaced && children.isProper
  | .frag f children => f.toHead.isPlaced && children.isProper
  | .cond c body otherwise =>
    c.toHead.isPlaced && body.isProper && (otherwise.isNull || otherwise.isProper)
  | .loop l _ => l.toHead.isPlaced
  | .widget w =>
    w.toHead.isPlaced && w.type.isStr && w.props.isDict && (w.source.isNull || w.source.isProper)
  | .ref r => r.toHead.isPlaced && r.pageName.isStr && r.sectionName.isStr
  | .call c => c.toHead.isPlaced && c.name.isStr && c.args.isDict
  | .slot s => s.toHead.isPlaced
  | .page _ _ | .custom _ | .stray _ => false

theorem isSound_cond {c : Conditional} {body otherwise : Children} :
    (cond c body otherwise).isSound ↔
      c.toHead.isPlaced ∧ body.isProper ∧ (otherwise.isNull ∨ otherwise.isProper) := by
  simp [isSound, and_assoc]

theorem isSound_widget {w : Widget} :
    (widget w).isSound ↔ w.toHead.isPlaced ∧ w.type.isStr ∧ w.props.isDict ∧
      (w.source.isNull ∨ w.source.isProper) := by
  simp [isSound, and_assoc]

theorem isSound_ref {r : Ref} :
    (ref r).isSound ↔ r.toHead.isPlaced ∧ r.pageName.isStr ∧ r.sectionName.isStr := by
  simp [isSound, and_assoc]

theorem isSound_call {c : Call} :
    (call c).isSound ↔ c.toHead.isPlaced ∧ c.name.isStr ∧ c.args.isDict := by
  simp [isSound, and_assoc]

def wellFormed (n : Node) : Bool := n.preorder.all isSound

/-- A page with a text as its name and with well-formed children. -/
def isSoundPage : Node → Bool
  | .page p (.proper ns) => p.name.isStr && ns.all wellFormed
  | _ => false

theorem wellFormed_iff {n : Node} : n.wellFormed ↔ n.isSound ∧ ∀ m ∈ n.subtrees, m.wellFormed := by
  simp only [wellFormed, List.all_eq_true]
  exact forall_mem_preorder

theorem wellFormed_of_mem_preorder {n m : Node} (formed : n.wellFormed) (inside : m ∈ n.preorder) :
    m.wellFormed := by
  simp only [wellFormed, List.all_eq_true] at formed ⊢
  exact fun t below => formed t (mem_preorder_trans inside below)

theorem exists_of_isSoundPage {n : Node} (sound : n.isSoundPage) :
    ∃ p ns, n = .page p (.proper ns) ∧ p.name.isStr ∧ ∀ m ∈ ns, m.wellFormed := by
  unfold isSoundPage at sound
  split at sound
  · simp only [Bool.and_eq_true, List.all_eq_true] at sound
    exact ⟨_, _, rfl, sound⟩
  · cases sound

theorem isRegular_of_isSound {n : Node} (sound : n.isSound) : n.isRegular := by
  cases n with
  | sect s children | frag s children =>
    simp only [isSound, Bool.and_eq_true] at sound
    exact sound.2
  | cond c body otherwise => exact isRegular_cond.mpr (isSound_cond.mp sound).2
  | loop | widget | ref | call | slot => rfl
  | page | custom | stray => cases sound

theorem isTree_of_wellFormed {n : Node} (formed : n.wellFormed) : n.isTree := by
  simp only [wellFormed, isTree, List.all_eq_true] at formed ⊢
  exact fun m inside => isRegular_of_isSound (formed m inside)

theorem passable_of_isSound {n : Node} (sound : n.isSound) : n.Passable :=
  passable_of_isRegular (isRegular_of_isSound sound)

theorem isSound_withSubtrees {n : Node} {ns : List Node} (container : n.isContainer)
    (sound : n.isSound) : (n.withSubtrees ns).isSound := by
  cases n with
  | sect s children | frag s children =>
    simp only [isSound, Bool.and_eq_true] at sound
    simp [withSubtrees, isSound, Loose.isProper, sound.1]
  | cond c body otherwise =>
    obtain ⟨placed, -, -⟩ := isSound_cond.mp sound
    refine isSound_cond.mpr ⟨placed, rfl, ?_⟩
    by_cases empty : otherwise.isNull
    · rw [if_pos empty]
      exact .inl rfl
    · rw [if_neg empty]
      exact .inr rfl
  | loop l template => exact sound
  | page | widget | ref | call | slot | custom | stray => cases container

theorem wellFormed_withSubtrees {n : Node} {ns : List Node} (container : n.isContainer)
    (sound : n.isSound) (length : ns.length = n.subtrees.length) (each : ∀ m ∈ ns, m.wellFormed) :
    (n.withSubtrees ns).wellFormed := by
  rw [wellFormed_iff, subtrees_withSubtrees container length]
  exact ⟨isSound_withSubtrees container sound, each⟩

end Node
end ViewCompiler
