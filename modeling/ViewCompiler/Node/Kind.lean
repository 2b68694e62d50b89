import ViewCompiler.Node
import ViewCompiler.Value.Access
import ViewCompiler.Text.LowerCase

/-! Kinds of nodes. The nine kinds of view trees are always known; a table of kinds can be extended by
classes that have a location and metadata only, each under a kind of its own. -/
namespace ViewCompiler

inductive Kind where
  | page | sect | widget | ref | call | slot | cond | loop | frag
  deriving DecidableEq, Repr

namespace Kind

def all : List Kind := [.page, .sect, .widget, .ref, .call, .slot, .cond, .loop, .frag]

def name : Kind → String
  | .page => "page"
  | .sect => "section"
  | .widget => "widget"
  | .ref => "ref"
  | .call => "partial"
  | .slot => "slot"
  | .cond => "conditional"
  | .loop => "loop"
  | .frag => "fragment"

def className : Kind → String
  | .page => "PageNode"
  | .sect => "SectionNode"
  | .widget => "WidgetNode"
  | .ref => "RefNode"
  | .call => "PartialNode"
  | .slot => "SlotNode"
  | .cond => "ConditionalNode"
  | .loop => "LoopNode"
  | .frag => "FragmentNode"

def ofName? (s : String) : Option Kind := all.find? (·.name == s)

theorem ofName?_name (k : Kind) : ofName? k.name = some k := by cases k <;> decide

theorem name_injective {k l : Kind} (same : k.name = l.name) : k = l :=
  Option.some.inj (by rw [← ofName?_name k, same, ofName?_name])

end Kind

namespace Node

def builtin? : Node → Option Kind
  | .page _ _ => some .page
  | .sect _ _ => some .sect
  | .widget _ => some .widget
  | .ref _ => some .ref
  | .call _ => some .call
  | .slot _ => some .slot
  | .cond _ _ _ => some .cond
  | .loop _ _ => some .loop
  | .frag _ _ => some .frag
  | .custom _ | .stray _ => none

def kind? : Node → Option String
  | .custom c => some c.kind
  | n => n.builtin?.map Kind.name

end Node

inductive NodeClass where
  | builtin (kind : Kind)
  | custom (name : String)

namespace NodeClass

def name : NodeClass → String
  | .builtin kind => kind.className
  | .custom name => name

def shown : NodeClass → String
  | .builtin kind => "<class 'viewdsl.nodes." ++ kind.className ++ "'>"
  | .custom name => "<class 'custom." ++ name ++ "'>"

end NodeClass

abbrev Kinds := Entries String NodeClass

namespace Kinds

def builtin : Kinds := Kind.all.map fun k => (k.name, .builtin k)

def names (kinds : Kinds) : List String :=
  (Entries.keys kinds).mergeSort fun a b => decide (a ≤ b)

/-- A class without a given kind is of the kind that its name says, less the word at its end. -/
def derivedKind (className : String) : String :=
  let cs := Text.lower className.toList
  let word := "node".toList
  String.ofList (if word.isSuffixOf cs then cs.take (cs.length - word.length) else cs)

/-- A kind belongs to one class for good. -/
def define (kinds : Kinds) (className : String) (kind : Option String) :
    Except Fault (String × Kinds) :=
  let kind := kind.getD (derivedKind className)
  match Entries.get? kinds kind with
  | some owner => .error (.kindTaken kind owner.shown)
  | none => .ok (kind, Entries.put kinds kind (.custom className))

def find? (kinds : Kinds) (kind : Value) : Except Fault (Option NodeClass) := do
  match ← kind.key with
  | .text s => return Entries.get? kinds s
  | _ => return none

end Kinds
end ViewCompiler
