import ViewCompiler.Node.Children

/-! The first section of a name, in document order: a section before what is inside it. -/
namespace ViewCompiler.Node

def isNamed (name : Value) : Node → Bool
  | .sect s _ => s.name.same name
  | _ => false

abbrev Found := Except Fault (Option Node)

def Found.orElse (first : Found) (second : Unit → Found) : Found :=
  match first with
  | .ok none => second ()
  | first => first

/-- Members of a plain value hold no section. -/
def findInMembers (v : Value) : Found := (fun _ => none) <$> v.members

mutual
/-- The first section of the name in a tree, its root included. -/
def find (name : Value) (n : Node) : Found :=
  if n.isNamed name then .ok (some n)
  else
    match n with
    | .page _ sections => findInChildren name sections
    | .sect _ children => findInChildren name children
    | .frag _ children => findInChildren name children
    | .cond _ body otherwise =>
      match body.join otherwise with
      | .error fault => .error fault
      | .ok _ => (findInChildren name body).orElse fun _ =>
        if otherwise.isEmptyOrFalse then .ok none else findInChildren name otherwise
    | .loop _ template => find name template
    | .widget _ | .ref _ | .call _ | .slot _ | .custom _ | .stray _ => .ok none

def findInChildren (name : Value) : Loose (List Node) → Found
  | .proper ns => findSection ns name
  | .stray v => findInMembers v

def findSection : List Node → Value → Found
  | [], _ => .ok none
  | n :: ns, name => (find name n).orElse fun _ => findSection ns name
end

end ViewCompiler.Node
