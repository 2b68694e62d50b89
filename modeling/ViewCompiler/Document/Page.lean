import ViewCompiler.Document.Child
import ViewCompiler.Value.Access

/-! Page documents. A page has a name, a type and a route; its other parts are taken where they have
the form they should have. -/
namespace ViewCompiler.Document

def requiredKeys : List String := ["name", "type", "route"]

def loaderOf : Value → Except Fault (Loose Loader)
  | .dict fs => do
    let params ← ((Fields.getD fs "params").orElse (.list [])).members
    let source := (Entries.get? fs "source").getD (.str "")
    return .proper { source := .str source.text, params := .proper params }
  | _ => return .null

def accessibilityOf : Value → Loose Accessibility
  | .dict fs => .proper {
      role := Fields.getD fs "role"
      ariaLabel := Fields.getD fs "ariaLabel"
      ariaLive := Fields.getD fs "ariaLive"
      landmark := Fields.getD fs "landmark"
      skipNav := Fields.getD fs "skipNav"
      focusTrap := Fields.getD fs "focusTrap"
      reduceMotion := Fields.getD fs "reduceMotion" }
  | _ => .null

/-- Only a mapping is kept. -/
def mappingOf : Value → Value
  | .dict fs => .dict fs
  | _ => .null

def responsiveOf : Value → Loose Responsive
  | .dict fs => .proper {
      strategy := Fields.getD fs "strategy"
      breakpoints := mappingOf (Fields.getD fs "breakpoints") }
  | _ => .null

/-- Refuses what is no mapping and what lacks a required key. -/
def pageFields (file raw : Value) : Except Fault Fields := do
  let .dict fs := raw | throw (.badDocument ⟨file, .notMapping raw.typeName⟩)
  let missing := requiredKeys.filter fun key => (Fields.getD fs key).isNull
  if missing.isEmpty then return fs
  else throw (.badDocument ⟨file, .missingKeys missing⟩)

def parsePage (file raw : Value) : Except Fault Node := do
  let fs ← pageFields file raw
  let loader ← loaderOf (fs.getD "loader")
  return .page {
    toHead := locate file
    name := .str (fs.getD "name").text
    type := .str (fs.getD "type").text
    route := .str (fs.getD "route").text
    auth := .bool (fs.getD "auth").truthy
    ssr := .bool (fs.getD "ssr").truthy
    loader
    pageMeta := mappingOf (fs.getD "meta")
    accessibility := accessibilityOf (fs.getD "accessibility")
    responsive := responsiveOf (fs.getD "responsive") }
    (.proper (parseChildren file (fs.getD "sections")))

end ViewCompiler.Document
