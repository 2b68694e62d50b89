import ViewCompiler.Document.Page
import ViewCompiler.Document.Partial
import ViewCompiler.Node.Children
import ViewCompiler.Trace

/-! Documents read with a record of it: every value in the place of a child that is no mapping, and
every page that was read. -/
namespace ViewCompiler.Document

def logMisfits (file : Value) (misfits : List Value) : Traced Unit :=
  Traced.emit (misfits.map fun v => .logged ⟨.debug, .parser,
    s!"Non-mapping child {v.literal} in {file.text} treated as unknown widget"⟩)

def readChild (file raw : Value) : Traced Node := do
  logMisfits file (misfits raw)
  return parseChild file raw

def readPage (file raw : Value) : Traced Node := do
  let fs ← Traced.ofExcept (pageFields file raw)
  let page ← Traced.ofExcept (parsePage file raw)
  logMisfits file (childMisfits (fs.getD "sections"))
  Traced.log .debug .parser s!"Parsed page {page.label.literal} from {file.text}"
  return page

def readPartial (file raw : Value) : Traced Partial := do
  let p ← Traced.ofExcept (parsePartial file raw)
  logMisfits file (misfits (← Traced.ofExcept (raw.lookup "template")))
  return p

end ViewCompiler.Document
