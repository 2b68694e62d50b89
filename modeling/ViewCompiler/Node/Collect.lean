import ViewCompiler.Node.Walk

/-! The nodes of one kind on a page, in document order. The walk is from the leaves up, so a match is
put in front of the matches that were found below it. -/
namespace ViewCompiler.Node

def isOfKind (kind : String) (n : Node) : Bool := n.kind? == some kind

/-- What a collector has found, and for each walked tree whose parent is still to come the number of
matches in it, the last tree first. -/
structure Collected where
  found : List Node := []
  counts : List Nat := []

/-- A match goes in front of as many found nodes as there are matches below it. -/
def Collected.note (kind : String) (n : Node) (children : List Node) (c : Collected) : Collected :=
  let below := (c.counts.take children.length).foldr (· + ·) 0
  let counts := c.counts.drop children.length
  if n.isOfKind kind then
    let ahead := c.found.length - below
    { found := c.found.take ahead ++ n :: c.found.drop ahead, counts := (below + 1) :: counts }
  else { c with counts := below :: counts }

def collector (kind : String) : Visitor (StateT Collected (Except Fault)) :=
  .always fun n => do
    let children ← n.children
    modify (·.note kind n children)
    return n

def collect (page : Node) (kind : String) : Except Fault (List Node) := do
  let (_, collected) ← (walkPage (collector kind) page).run {}
  return collected.found

end ViewCompiler.Node
