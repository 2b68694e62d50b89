import ViewCompiler.Build
import ViewCompiler.Json.Printer
import ViewCompiler.Json.Reader
import ViewCompiler.Node.Export
import ViewCompiler.Node.Import
import ViewCompiler.Node.Same

/-! Written builds and nodes. A build is an envelope with a format name and a version around its pages
and diagnostics; any other dictionary is one node. -/
namespace ViewCompiler

namespace Build

def toValue (b : Build) : Value := .dict [
  ("format", .str envelopeFormat),
  ("version", .int envelopeVersion),
  ("ok", .bool b.ok),
  ("pages", .list (b.pages.map Node.toValue)),
  ("diagnostics", .list (b.report.diagnostics.map Diagnostic.toValue))]

def listed (fs : Fields) (key : String) : Except Fault (List Value) :=
  ((Entries.get? fs key).getD (.list [])).members

def readPage (kinds : Kinds) (index : Nat) (v : Value) : Except Fault Node := do
  match ← Node.ofValue kinds v with
  | .page p sections => return .page p sections
  | n => throw (.notPage index (n.kind?.getD ""))

/-- Whether the build was a success is not taken from the data but follows from the diagnostics. -/
def ofValue (kinds : Kinds) (v : Value) : Except Fault Build := do
  let format ← v.lookup "format"
  let fs ← v.fields
  let version := fs.getD "version"
  if ! format.isText envelopeFormat then throw (.notEnvelope format)
  if ! version.same (.int envelopeVersion) then throw (.unsupportedVersion version)
  let pages ← (← listed fs "pages").zipIdx.mapM fun page => readPage kinds page.2 page.1
  let diagnostics ← (← listed fs "diagnostics").mapM Diagnostic.read
  return ⟨pages, ⟨diagnostics⟩⟩

end Build

inductive Written where
  | node (n : Node)
  | build (b : Build)

namespace Written

def toValue : Written → Value
  | .node n => n.toValue
  | .build b => b.toValue

def ofValue (kinds : Kinds) (v : Value) : Except Fault Written :=
  match v with
  | .dict fs =>
    if Entries.has fs "format" then .build <$> Build.ofValue kinds v
    else .node <$> Node.ofValue kinds v
  | v => .node <$> Node.ofValue kinds v

def toJson (indent : Option Nat) (w : Written) : String :=
  Json.write (Json.Style.spaced indent) w.toValue

def ofJson (kinds : Kinds) (text : String) : Except Fault Written := do
  ofValue kinds (← Json.read text)

end Written
end ViewCompiler
