import ViewCompiler.Diagnostic
import ViewCompiler.Value.Table

/-! Reports: the diagnostics of a build in order, by severity and by code. -/
namespace ViewCompiler

structure Report where
  diagnostics : List Diagnostic := []

namespace Report

def withSeverity (r : Report) (severity : Severity) : List Diagnostic :=
  r.diagnostics.filter (·.isOf severity)

def errors (r : Report) : List Diagnostic := r.withSeverity .error
def warnings (r : Report) : List Diagnostic := r.withSeverity .warning
def infos (r : Report) : List Diagnostic := r.withSeverity .info

/-- Only errors fail a build. -/
def hasErrors (r : Report) : Bool := r.diagnostics.any (·.isOf .error)

/-- The diagnostics of each code, codes and diagnostics in the order in which they are met. -/
def byCode (r : Report) : Except Fault (Table (List Diagnostic)) :=
  r.diagnostics.foldlM (fun (groups : Table (List Diagnostic)) d => do
    let key ← d.code.key
    return groups.put key d.code ((groups.get? key).getD [] ++ [d])) []

def text (r : Report) : String :=
  if r.diagnostics.isEmpty then "DiagnosticReport: clean"
  else
    let lines := "\n  ".intercalate (r.diagnostics.map (·.text))
    s!"DiagnosticReport: {r.errors.length} error(s), {r.warnings.length} warning(s), "
      ++ s!"{r.infos.length} info\n  {lines}"

def same (a b : Report) : Bool :=
  a.diagnostics.length == b.diagnostics.length
    && (a.diagnostics.zip b.diagnostics).all fun d => d.1.same d.2

end Report
end ViewCompiler
