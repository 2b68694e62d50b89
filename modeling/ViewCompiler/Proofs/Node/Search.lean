import ViewCompiler.Node.Find
import ViewCompiler.Proofs.Node.Subtrees
import ViewCompiler.Proofs.Trace.Success

/-! What a search for a section finds. A search that comes to an end has the first section of the
name in document order, so every section that it finds is one of the tree. -/
namespace ViewCompiler.Node

variable {n t : Node} {name : Value} {found : Option Node}

/-- The second search has a say only where the first finds nothing. -/
theorem Found.orElse_eq_ok {first : Found} {second : Unit → Found} {a b : Option Node}
    (done : first.orElse second = .ok found) (one : ∀ f, first = .ok f → f = a)
    (other : ∀ f, second () = .ok f → f = b) : found = a.or b := by
  cases first with
  | error fault => cases done
  | ok f =>
    obtain rfl := one f rfl
    cases f with
    | none => exact other found done
    | some t => exact (Except.ok.inj done).symm

theorem findSection_eq_find? {ns : List Node} (done : findSection ns name = .ok found)
    (each : ∀ n ∈ ns, ∀ f, find name n = .ok f → f = n.preorder.find? (isNamed name)) :
    found = (ns.flatMap preorder).find? (isNamed name) := by
  induction ns generalizing found with
  | nil => exact (Except.ok.inj done).symm
  | cons n ns ih =>
    obtain ⟨first, rest⟩ := List.forall_mem_cons.mp each
    rw [List.flatMap_cons, List.find?_append]
    exact Found.orElse_eq_ok done first fun _ later => ih later rest

theorem findInChildren_eq_of_forall {children : Children}
    (done : findInChildren name children = .ok found)
    (each : ∀ n ∈ children.nodes, ∀ f, find name n = .ok f → f = n.preorder.find? (isNamed name)) :
    found = (children.nodes.flatMap preorder).find? (isNamed name) := by
  cases children with
  | proper ns => exact findSection_eq_find? done each
  | stray v =>
    obtain ⟨_, -, rfl⟩ := Except.map_eq_ok.mp done
    rfl

/-- A search finds the first section of the name in document order. -/
theorem find_eq_find? (done : find name n = .ok found) :
    found = n.preorder.find? (isNamed name) := by
  induction n using induction generalizing found with
  | _ n ih =>
  rw [preorder_eq]
  by_cases named : n.isNamed name
  · rw [List.find?_cons_of_pos named]
    unfold find at done
    rw [if_pos named] at done
    exact (Except.ok.inj done).symm
  · rw [List.find?_cons_of_neg named]
    cases n with
    | page p children | sect s children | frag f children =>
      rw [find, if_neg named] at done
      exact findInChildren_eq_of_forall done fun m member f => ih m member
    | loop l template =>
      rw [find, if_neg named] at done
      rw [ih template (List.mem_singleton.mpr rfl) done]
      exact congrArg _ (List.flatMap_singleton preorder template).symm
    | cond c body otherwise =>
      rw [find, if_neg named] at done
      split at done
      · cases done
      · rw [subtrees, List.flatMap_append, List.find?_append]
        refine Found.orElse_eq_ok done (fun f first => ?_) fun f second => ?_
        · exact findInChildren_eq_of_forall first fun m member f =>
            ih m (List.mem_append_left _ member)
        · split at second
          · next empty =>
            obtain rfl := Except.ok.inj second
            rw [Loose.nodes_of_isEmptyOrFalse empty]
            rfl
          · exact findInChildren_eq_of_forall second fun m member f =>
              ih m (List.mem_append_right _ member)
    | widget | ref | call | slot | custom | stray =>
      rw [find, if_neg named] at done
      exact (Except.ok.inj done).symm

/-- So does a search through children. -/
theorem findInChildren_eq_find? {children : Children}
    (done : findInChildren name children = .ok found) :
    found = (childrenPreorder children).find? (isNamed name) := by
  rw [childrenPreorder_eq]
  exact findInChildren_eq_of_forall done fun _ _ _ => find_eq_find?

end ViewCompiler.Node
