import ViewCompiler.Document.Child
import ViewCompiler.Template

/-! Partial documents: a name, parameters and a template. -/
namespace ViewCompiler.Document

/-- Only a mapping with a name declares a parameter. -/
def param? : Value → Option Param
  | .dict fs =>
    if (Fields.getD fs "name").truthy then some {
      name := .str (Fields.getD fs "name").text
      type := .str ((Entries.get? fs "type").getD (.str "any")).text
      default := Fields.getD fs "default"
      hasDefault := Entries.has fs "default" }
    else none
  | _ => none

def parsePartial (file raw : Value) : Except Fault Partial := do
  let .dict fs := raw | throw (.badDocument ⟨file, .unnamedPartial⟩)
  let name := Fields.getD fs "name"
  let template := Fields.getD fs "template"
  if ! name.truthy then throw (.badDocument ⟨file, .unnamedPartial⟩)
  if template.isNull then throw (.badDocument ⟨file, .noTemplate name⟩)
  let params ← ((Fields.getD fs "params").orElse (.list [])).members
  return ⟨.str name.text, parseChild file template, params.filterMap param?⟩

end ViewCompiler.Document
