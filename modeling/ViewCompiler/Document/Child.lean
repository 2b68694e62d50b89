import ViewCompiler.Document.Shorthand
import ViewCompiler.Node
import ViewCompiler.Value.Text

/-! Child nodes of a document. The shape of a mapping is decided by a fixed order of rules after its
shorthand is expanded; sections and widgets that are shown or hidden conditionally get a conditional
around them. -/
namespace ViewCompiler.Document

/-- What a child mapping describes, with the values that hold its own children. -/
inductive Shape where
  | ref (target : String)
  | call (name : String) (args : Fields)
  | loop (source : String) (item template : Value)
  | slot (name : String) (description : Value) (optional : Bool)
  | frag (items : List Value)
  | sect (fields : Fields) (items : List Value)
  | widget (fields : Fields)

/-- A text under the key that is not empty. -/
def nonEmpty? (fs : Fields) (key : String) : Option String :=
  match Entries.get? fs key with
  | some (.str s) => if s = "" then none else some s
  | _ => none

def items? (fs : Fields) (key : String) : Option (List Value) :=
  match Entries.get? fs key with
  | some (.list items) => some items
  | _ => none

/-- The items of a section: its widgets, or else its sections. -/
def sectionItems? (fs : Fields) : Option (List Value) :=
  match items? fs "widgets" with
  | some items => some items
  | none => items? fs "sections"

def Shape.of (fs : Fields) : Shape :=
  match nonEmpty? fs "$ref" with
  | some target => .ref target
  | none =>
  match nonEmpty? fs "$partial" with
  | some name => .call name (Entries.erase fs "$partial")
  | none =>
  match nonEmpty? fs "each" with
  | some source => .loop source ((fs.getD "as").orElse (.str "item")) (fs.getD "template")
  | none =>
  match nonEmpty? fs "$slot" with
  | some name => .slot name (fs.getD "description") (fs.getD "optional").truthy
  | none =>
  match items? fs "$fragment" with
  | some items => .frag items
  | none =>
  match sectionItems? fs with
  | some items => .sect fs items
  | none => .widget fs

/-- The values of the shape's children are smaller than the size. -/
def Shape.Within (size : Nat) : Shape → Prop
  | .loop _ _ template => sizeOf template < size
  | .frag items | .sect _ items => sizeOf items < size
  | _ => True

/-- Keys that have a meaning of their own on a widget; all others are props. -/
def structuralKeys : List String := ["type", "source", "name", "show", "hide", "layout"]

def unknownType : String := "unknown"

def layoutOf : Value → Loose Layout
  | .dict fs => .proper {
      sm := Fields.getD fs "sm"
      md := Fields.getD fs "md"
      lg := Fields.getD fs "lg"
      xl := Fields.getD fs "xl" }
  | _ => .null

/-- Only a text binds to data. -/
def bindingOf : Value → Loose Binding
  | .str path => .proper { path := .str path }
  | _ => .null

/-- A source that is no text is a prop. -/
def propsOf (fs : Fields) : Fields :=
  let props := fs.filter fun f => ! structuralKeys.contains f.1
  match fs.getD "source" with
  | .null | .str _ => props
  | source => Entries.put props "source" source

def locate (file : Value) : Head := { loc := .proper { file } }

/-- The page and the section that a target names: all before the first number sign, and all after. -/
def splitTarget (target : String) : String × String :=
  let cs := target.toList
  (String.ofList (cs.takeWhile (· != '#')), String.ofList ((cs.dropWhile (· != '#')).drop 1))

def expression : Value → String
  | .bool b => if b then "true" else "false"
  | v => v.text

def condition? (fs : Fields) : Option String :=
  match fs.getD "show", fs.getD "hide" with
  | .null, .null => none
  | .null, hide => some ("!" ++ expression hide)
  | shown, _ => some (expression shown)

def wrap (head : Head) (fs : Fields) (n : Node) : Node :=
  match condition? fs with
  | some condition => .cond { toHead := head, condition := .str condition } (.proper [n]) .null
  | none => n

def refNode (head : Head) (target : String) : Node :=
  let (pageName, sectionName) := splitTarget target
  .ref {
    toHead := head
    target := .str target
    pageName := .str pageName
    sectionName := .str sectionName }

def sectionNode (head : Head) (fs : Fields) (children : List Node) : Node :=
  .sect {
    toHead := head
    name := fs.getD "name"
    layout := layoutOf (fs.getD "layout")
    tag := fs.getD "tag"
    ariaLabel := fs.getD "aria-label" } (.proper children)

def widgetNode (head : Head) (fs : Fields) : Node :=
  .widget {
    toHead := head
    type := .str ((fs.getD "type").orElse (.str unknownType)).text
    source := bindingOf (fs.getD "source")
    props := .dict (propsOf fs) }

theorem sizeOf_items?_lt {fs : Fields} {key : String} {items : List Value}
    (h : items? fs key = some items) : ∃ v, Entries.get? fs key = some v ∧
      sizeOf items < sizeOf v := by
  unfold items? at h
  split at h
  · rename_i found
    cases h
    exact ⟨_, found, by simp⟩
  · cases h

/-- A value in the expanded mapping that may hold children is smaller than the mapping read. -/
theorem sizeOf_lt_of_get?_expand {fs : Fields} {key : String} {v : Value}
    (found : Entries.get? (expand fs) key = some v) (h : key ∉ affectedKeys) :
    sizeOf v < sizeOf (Value.dict fs) := by
  rw [get?_expand h] at found
  have := Fields.sizeOf_lt_of_get? found
  simp
  omega

theorem sizeOf_getD_lt {fs : Fields} {key : String} (h : key ∉ affectedKeys) :
    sizeOf ((expand fs).getD key) < sizeOf (Value.dict fs) := by
  unfold Fields.getD
  cases found : Entries.get? (expand fs) key with
  | none =>
    have : 0 < sizeOf fs := by
      cases fs <;> simp only [List.nil.sizeOf_spec, List.cons.sizeOf_spec] <;> omega
    simp only [Option.getD_none, Value.null.sizeOf_spec, Value.dict.sizeOf_spec]
    omega
  | some v => exact sizeOf_lt_of_get?_expand found h

/-- Where a shape has children, the values that describe them are parts of the mapping. -/
theorem Shape.within_of_expand (fs : Fields) :
    (Shape.of (expand fs)).Within (sizeOf (Value.dict fs)) := by
  have items {key items} (h : items? (expand fs) key = some items) (hk : key ∉ affectedKeys) :
      sizeOf items < sizeOf (Value.dict fs) := by
    obtain ⟨v, found, smaller⟩ := sizeOf_items?_lt h
    exact Nat.lt_trans smaller (sizeOf_lt_of_get?_expand found hk)
  unfold Shape.of
  repeat' split
  · trivial
  · trivial
  · exact sizeOf_getD_lt (by decide)
  · trivial
  · rename_i h; exact items h (by decide)
  · rename_i h
    unfold sectionItems? at h
    split at h
    · rename_i found; cases h; exact items found (by decide)
    · exact items h (by decide)
  · trivial

mutual
/-- A value that is no mapping becomes a widget of unknown type. -/
def parseChild (file : Value) (raw : Value) : Node :=
  match raw with
  | .dict fs =>
    match _h : Shape.of (expand fs) with
    | .ref target => refNode (locate file) target
    | .call name args =>
      .call { toHead := locate file, name := .str name, args := .dict args }
    | .loop source item template =>
      .loop { toHead := locate file, source := .str source, item } (parseChild file template)
    | .slot name description optional =>
      .slot { toHead := locate file, name := .str name, description, optional := .bool optional }
    | .frag items => .frag { toHead := locate file } (.proper (parseItems file items))
    | .sect fields items =>
      wrap (locate file) fields (sectionNode (locate file) fields (parseItems file items))
    | .widget fields => wrap (locate file) fields (widgetNode (locate file) fields)
  | _ => .widget { toHead := locate file, type := .str unknownType }
termination_by sizeOf raw
decreasing_by
  all_goals
    have := Shape.within_of_expand fs
    rw [_h] at this
    simpa [Shape.Within] using this

def parseItems (file : Value) : List Value → List Node
  | [] => []
  | v :: vs => parseChild file v :: parseItems file vs
termination_by items => sizeOf items
end

/-- Only a list has children; anything else has none. -/
def parseChildren (file : Value) : Value → List Node
  | .list items => parseItems file items
  | _ => []

mutual
/-- The values that are no mappings where children are read, in the order of the document. -/
def misfits (raw : Value) : List Value :=
  match raw with
  | .dict fs =>
    match _h : Shape.of (expand fs) with
    | .loop _ _ template => misfits template
    | .frag items | .sect _ items => itemMisfits items
    | .ref _ | .call _ _ | .slot _ _ _ | .widget _ => []
  | v => [v]
termination_by sizeOf raw
decreasing_by
  all_goals
    have := Shape.within_of_expand fs
    rw [_h] at this
    simpa [Shape.Within] using this

def itemMisfits : List Value → List Value
  | [] => []
  | v :: vs => misfits v ++ itemMisfits vs
termination_by items => sizeOf items
end

def childMisfits : Value → List Value
  | .list items => itemMisfits items
  | _ => []

end ViewCompiler.Document
