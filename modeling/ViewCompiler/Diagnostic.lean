import ViewCompiler.Node
import ViewCompiler.Value.Access

/-! Diagnostics: problems with a severity, a stable code and a place. -/
namespace ViewCompiler

inductive Severity where
  | error | warning | info
  deriving DecidableEq, Repr

def Severity.name : Severity → String
  | .error => "error"
  | .warning => "warning"
  | .info => "info"

inductive Code where
  | unknownWidgetType | missingRequiredProp | unknownRefTarget | unknownRefSection
  | accessibilityWarning | missingLoaderForBinding | circularRef | unknownPartial
  | pageMissingName | pageMissingRoute | emptySections | unresolvedRef | unresolvedPartial
  | parseError
  deriving DecidableEq, Repr

def Code.name : Code → String
  | .unknownWidgetType => "unknown-widget-type"
  | .missingRequiredProp => "missing-required-prop"
  | .unknownRefTarget => "unknown-ref-target"
  | .unknownRefSection => "unknown-ref-section"
  | .accessibilityWarning => "accessibility-warning"
  | .missingLoaderForBinding => "missing-loader-for-binding"
  | .circularRef => "circular-ref"
  | .unknownPartial => "unknown-partial"
  | .pageMissingName => "page-missing-name"
  | .pageMissingRoute => "page-missing-route"
  | .emptySections => "empty-sections"
  | .unresolvedRef => "unresolved-ref"
  | .unresolvedPartial => "unresolved-partial"
  | .parseError => "parse-error"

/-- A diagnostic that was read from data may hold anything in any field. -/
structure Diagnostic where
  severity : Value
  code : Value
  message : Value
  file : Value
  line : Value := .int 1
  col : Value := .int 1

namespace Diagnostic

def make (severity : Severity) (code : Code) (message : String) (place : Location) : Diagnostic :=
  { severity := .str severity.name
    code := .str code.name
    message := .str message
    file := place.file
    line := place.line
    col := place.col }

def text (d : Diagnostic) : String :=
  s!"{d.file.text}:{d.line.text}:{d.col.text}: {d.severity.text}[{d.code.text}]: {d.message.text}"

def toValue (d : Diagnostic) : Value := .dict [
  ("severity", d.severity), ("code", d.code), ("message", d.message), ("file", d.file),
  ("line", d.line), ("col", d.col)]

def read (v : Value) : Except Fault Diagnostic := do
  let severity ← v.field? "severity"
  let code ← v.field? "code"
  let message ← v.field? "message"
  let file ← v.field? "file"
  let line ← v.fieldD "line" (.int 1)
  let col ← v.fieldD "col" (.int 1)
  match severity, code, message, file with
  | some severity, some code, some message, some file =>
    return { severity, code, message, file, line, col }
  | _, _, _, _ => throw (.missingField "severity, code, message or file")

def same (a b : Diagnostic) : Bool :=
  Value.sameItems [a.severity, a.code, a.message, a.file, a.line, a.col]
    [b.severity, b.code, b.message, b.file, b.line, b.col]

def isOf (severity : Severity) (d : Diagnostic) : Bool := d.severity.isText severity.name

end Diagnostic

/-- The place of a node; a plain value in its stead has no file. -/
def Head.place (h : Head) : Except Fault Location :=
  match h.loc with
  | .proper place => .ok place
  | .stray _ => .error (.noPart "file")

end ViewCompiler
