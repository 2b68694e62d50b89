import ViewCompiler.Node.Export
import ViewCompiler.Node.Import
import ViewCompiler.Proofs.Node.Subtrees

/-! Nodes that survive being written and read back. A record stands in its place or nothing does, a plain
value among children does not look like a node, and no plain list stands for a sequence. -/
namespace ViewCompiler

namespace Loose

/-- A record, or nothing. -/
def IsRecord {α : Type} : Loose α → Prop
  | .proper _ => True
  | .stray v => v = .null

/-- A sequence, or a plain value that is none. -/
def IsPlace {α : Type} : Loose (List α) → Prop
  | .proper _ => True
  | .stray v => ∀ items, v ≠ .list items

@[simp] theorem isRecord_null {α : Type} : IsRecord (.null : Loose α) := rfl
@[simp] theorem isPlace_null {α : Type} : IsPlace (.null : Loose (List α)) :=
  fun _ absurd => by cases absurd

end Loose

namespace Kinds

/-- The tables that arise from the built-in kinds by definitions. -/
inductive Known : Kinds → Prop
  | builtin : Known .builtin
  | define {kinds next : Kinds} {className kind : String} {given : Option String}
      (known : Known kinds) (defined : kinds.define className given = .ok (kind, next)) : Known next

/-- No definition takes a built-in kind away. -/
theorem Known.get?_name {kinds : Kinds} (known : kinds.Known) (k : Kind) :
    Entries.get? kinds k.name = some (.builtin k) := by
  induction known with
  | builtin => cases k <;> rfl
  | @define kinds next className kind given _ defined ih =>
    simp only [Kinds.define] at defined
    split at defined
    · cases defined
    · rename_i absent
      simp only [Except.ok.injEq, Prod.mk.injEq] at defined
      obtain ⟨rfl, rfl⟩ := defined
      have other : given.getD (derivedKind className) ≠ k.name := by
        intro same
        rw [same, ih] at absent
        cases absent
      rw [Entries.get?_put_of_ne _ _ other]
      exact ih

end Kinds

/-- A child with a kind would be read as a node. -/
def Value.IsPlain (v : Value) : Prop := ∀ fs, v = .dict fs → Entries.has fs "kind" = false

namespace Node

/-- The node's own fields survive. -/
def IsStorable (kinds : Kinds) : Node → Prop
  | .page p sections => p.loc.IsRecord ∧ p.loader.IsRecord ∧
    (∀ l, p.loader = .proper l → l.params.IsPlace) ∧ p.accessibility.IsRecord ∧
    p.responsive.IsRecord ∧ sections.IsPlace
  | .sect s children => s.loc.IsRecord ∧ s.layout.IsRecord ∧ children.IsPlace
  | .widget w => w.loc.IsRecord ∧ w.source.IsRecord
  | .ref r => r.loc.IsRecord
  | .call c => c.loc.IsRecord
  | .slot s => s.loc.IsRecord
  | .cond c body otherwise => c.loc.IsRecord ∧ body.IsPlace ∧ otherwise.IsPlace
  | .loop l _ => l.loc.IsRecord
  | .frag f children => f.loc.IsRecord ∧ children.IsPlace
  | .custom c => c.loc.IsRecord ∧ ∃ name, Entries.get? kinds c.kind = some (.custom name)
  | .stray v => v.IsPlain

def IsPage (n : Node) : Prop := ∃ p sections, n = .page p sections

def Storable (kinds : Kinds) (n : Node) : Prop := ∀ m ∈ n.preorder, m.IsStorable kinds

variable {kinds : Kinds} {n : Node}

theorem storable_iff :
    n.Storable kinds ↔ n.IsStorable kinds ∧ ∀ m ∈ n.subtrees, m.Storable kinds :=
  all_iff

theorem storable_leaf (leaf : n.subtrees = []) (own : n.IsStorable kinds) : n.Storable kinds :=
  all_leaf leaf own

theorem isStorable_withSubtrees {ns : List Node} (container : n.isContainer)
    (own : n.IsStorable kinds) : (n.withSubtrees ns).IsStorable kinds := by
  cases n with
  | sect s children => exact ⟨own.1, own.2.1, trivial⟩
  | frag f children => exact ⟨own.1, trivial⟩
  | loop l template => exact own
  | cond c body otherwise =>
    refine ⟨own.1, trivial, ?_⟩
    split
    · exact Loose.isPlace_null
    · trivial
  | page | widget | ref | call | slot | custom | stray => cases container

end Node
end ViewCompiler
