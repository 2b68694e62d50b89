import ViewCompiler.Value.Text

/-! What can go wrong, by cause, with the message of each cause that has one. -/
namespace ViewCompiler

inductive DocumentFlaw where
  | notMapping (typeName : String)
  | missingKeys (keys : List String)
  | unnamedPartial
  | noTemplate (partialName : Value)

structure DocumentError where
  file : Value
  flaw : DocumentFlaw

namespace DocumentError

def message (e : DocumentError) : String :=
  e.file.text ++ ": " ++ match e.flaw with
  | .notMapping typeName => s!"view document must be a mapping, got {typeName}"
  | .missingKeys keys =>
    "view document missing required key(s) " ++ (Value.list (keys.map .str)).literal
  | .unnamedPartial => "partial document missing required key 'name'"
  | .noTemplate partialName =>
    "partial '" ++ partialName.text ++ "' missing required key 'template'"

end DocumentError

def envelopeFormat : String := "viewdsl.build"
def envelopeVersion : Nat := 1

inductive Fault where
  /-- A text is needed. -/
  | notText
  /-- A dictionary is needed. -/
  | notDict
  /-- A record or node lacks the part that is asked for. -/
  | noPart (name : String)
  /-- The value has no members. -/
  | notSequence
  /-- The value contains nothing that could be looked for. -/
  | notSearchable
  /-- A text or list has no fields by name. -/
  | notIndexable
  /-- A list or dictionary is no key, and a field has a text as its key. -/
  | notKey
  /-- A pair has two members. -/
  | notPair
  | notJoinable
  | notMergeable
  | missingField (name : String)
  | unknownField (name : String)
  /-- A page, or what is no node at all, stands where a child node should. -/
  | notChild
  | badJson
  | hugeInteger
  | badDocument (error : DocumentError)
  | unnamedSchema
  | noKind
  | notKind (kind : Value) (known : List String)
  | unknownKind (kind : Value)
  | kindTaken (kind : String) (owner : String)
  | notNode (typeName : String)
  | notEnvelope (format : Value)
  | unsupportedVersion (version : Value)
  | notPage (index : Nat) (kind : String)
  /-- Nested expansions outnumber the targets that exist. -/
  | outOfBudget

namespace Fault

/-- Faults of the data format as such have no message. -/
def message : Fault → Option String
  | .badDocument error => some error.message
  | .unnamedSchema => some "Widget schema document is missing required key 'name'"
  | .noKind => some "Node data has no 'kind' discriminant"
  | .notKind kind known =>
    some ("'" ++ kind.text ++ "' is not a view node kind (known kinds: "
      ++ ", ".intercalate known ++ ")")
  | .unknownKind kind => some ("Unknown node kind: " ++ kind.text)
  | .kindTaken kind owner =>
    some s!"Kind '{kind}' already registered to {owner}. Choose a different kind."
  | .notNode typeName => some s!"to_dict expects a view node, got {typeName}"
  | .notEnvelope format => some (s!"Not a {envelopeFormat} export (format=" ++ format.literal ++ ")")
  | .unsupportedVersion version =>
    some (s!"Unsupported {envelopeFormat} version " ++ version.literal
      ++ s!"; this reader understands version {envelopeVersion}")
  | .notPage index kind => some s!"pages[{index}] is a '{kind}' node, expected 'page'"
  | _ => none

end Fault
end ViewCompiler
