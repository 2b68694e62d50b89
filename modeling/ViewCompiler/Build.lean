import ViewCompiler.Diagnostic.Report
import ViewCompiler.Document.Reading
import ViewCompiler.Resolve
import ViewCompiler.Validate

/-! Builds: documents are read, resolved against each other and validated. A document that is no page
is reported and left out. -/
namespace ViewCompiler

/-- A document under the name of its file. -/
abbrev Documents := List (Value × Value)

structure Build where
  pages : List Node
  report : Report

namespace Build

def ok (b : Build) : Bool := ! b.report.hasErrors

def readDocument (file raw : Value) : Traced (Option Node) :=
  let run := Document.readPage file raw
  match run.result with
  | .error (.badDocument error) => do
    Traced.log .warning .pipeline s!"Skipping {file.text}: {error.message}"
    Traced.diagnose [Diagnostic.make .error .parseError error.message { file }]
    return none
  | _ => some <$> run

def readDocuments (documents : Documents) : Traced (List Node) := do
  return (← documents.mapM fun d => readDocument d.1 d.2).filterMap id

def run (documents : Documents) (registry : Registry) (partials : List (Value × Partial)) :
    Traced (List Node) := do
  let pages ← readDocuments documents
  let pages ← resolveAll pages registry partials
  Traced.diagnose (← Traced.ofExcept (validateAll registry pages))
  return pages

def summary (b : Build) : String :=
  s!"Built {b.pages.length} page(s): {b.report.errors.length} error(s), "
    ++ s!"{b.report.warnings.length} warning(s)"

end Build

/-- The build with all its events; the last one sums it up. -/
def buildTraced (documents : Documents) (registry : Registry)
    (partials : List (Value × Partial)) : Traced Build := do
  let run := Build.run documents registry partials
  let pages ← run
  let b : Build := ⟨pages, ⟨run.diagnostics⟩⟩
  Traced.log .info .pipeline b.summary
  return b

def build (documents : Documents) (registry : Registry) (partials : List (Value × Partial)) :
    Except Fault Build :=
  (buildTraced documents registry partials).result

end ViewCompiler
