import ViewCompiler.Diagnostic
import ViewCompiler.Node.Children
import ViewCompiler.Node.Walk
import ViewCompiler.Widget.Registry

/-! Validation of pages: what each widget lacks, and which references and calls are left. Trees are
only read. -/
namespace ViewCompiler

/-- What a check finds, unless the tree has a form that it cannot read. -/
abbrev Findings := Except Fault (List Diagnostic)

namespace Findings

def none : Findings := .ok []

def one (severity : Severity) (h : Head) (code : Code) (message : String) : Findings := do
  return [Diagnostic.make severity code message (← h.place)]

def when (condition : Bool) (findings : Findings) : Findings :=
  if condition then findings else none

def and (first second : Findings) : Findings := do
  return (← first) ++ (← second)

def all (checks : List Findings) : Findings := checks.foldr and none

end Findings

namespace Validate

def interactiveTypes : List String := ["chat-input", "search-bar", "form"]

/-- A binding counts as the prop of its name. -/
def lacks (w : Widget) (prop : String) : Except Fault Bool := do
  return ! (← w.props.contains prop) && ! (prop == "source" && ! w.source.isNull)

def checkRequired (s : Schema) (w : Widget) : Findings :=
  Findings.all (s.requiredProps.map fun prop => do
    Findings.when (← lacks w prop) (Findings.one .error w.toHead .missingRequiredProp
      s!"Widget \"{w.type.text}\" missing required prop \"{prop}\""))

def hasLabel (w : Widget) : Except Fault Bool := do
  return (← w.props.lookup "aria-label").truthy

def checkAlternative (w : Widget) : Findings := do
  let described ← if ← w.props.contains "alt" then pure true else hasLabel w
  Findings.when (w.type.isText "image" && ! described)
    (Findings.one .warning w.toHead .accessibilityWarning "Image widget missing \"alt\" text")

def checkLabel (w : Widget) : Findings :=
  Findings.when (interactiveTypes.any w.type.isText) do
    let labelled ← if ← hasLabel w then pure true else do
      pure (← w.props.lookup "label").truthy
    Findings.when (! labelled) (Findings.one .info w.toHead .accessibilityWarning
      s!"Widget \"{w.type.text}\" should have an aria-label or label")

def checkType (registry : Registry) (w : Widget) : Findings := do
  match ← registry.get w.type with
  | some s => checkRequired s w
  | none =>
    Findings.one .error w.toHead .unknownWidgetType s!"Unknown widget type \"{w.type.text}\""

/-- Bound data must come from a loader. -/
def checkBinding (hasLoader : Bool) (w : Widget) : Findings :=
  match w.source with
  | .stray .null => Findings.none
  | source => Findings.when (! hasLoader) do
    let .proper binding := source | throw (.noPart "path")
    Findings.one .warning w.toHead .missingLoaderForBinding
      (s!"Widget \"{w.type.text}\" has data binding "
        ++ s!"\"{binding.path.text}\" but page has no loader")

def checkWidget (registry : Registry) (hasLoader : Bool) (w : Widget) : Findings :=
  Findings.all [
    checkType registry w, checkAlternative w, checkLabel w, checkBinding hasLoader w]

def checkRef (r : Ref) : Findings :=
  Findings.one .error r.toHead .unresolvedRef
    s!"Unresolved $ref \"{r.target.text}\": run the resolver first"

def checkCall (c : Call) : Findings :=
  Findings.one .error c.toHead .unresolvedPartial
    s!"Unresolved $partial \"{c.name.text}\": run the resolver first"

mutual
def checkNode (registry : Registry) (hasLoader : Bool) : Node → Findings
  | .widget w => checkWidget registry hasLoader w
  | .ref r => checkRef r
  | .call c => checkCall c
  | .slot _ => Findings.none
  | .sect _ children => checkChildren registry hasLoader children
  | .frag _ children => checkChildren registry hasLoader children
  | .cond _ body otherwise =>
    (checkChildren registry hasLoader body).and
      (if otherwise.isEmptyOrFalse then Findings.none
      else checkChildren registry hasLoader otherwise)
  | .loop _ template => checkNode registry hasLoader template
  | .page _ _ | .custom _ | .stray _ => .error .notChild

def checkChildren (registry : Registry) (hasLoader : Bool) : Loose (List Node) → Findings
  | .proper ns => checkNodes registry hasLoader ns
  | .stray v => do
    Node.noMembers v
    Findings.none

def checkNodes (registry : Registry) (hasLoader : Bool) : List Node → Findings
  | [] => Findings.none
  | n :: ns => (checkNode registry hasLoader n).and (checkNodes registry hasLoader ns)
end

def checkPage (p : Page) (sections : Children) : Findings :=
  Findings.all [
    Findings.when (! p.name.truthy)
      (Findings.one .error p.toHead .pageMissingName "Page missing \"name\""),
    Findings.when (! p.route.truthy)
      (Findings.one .error p.toHead .pageMissingRoute "Page missing \"route\""),
    Findings.when sections.isEmptyOrFalse
      (Findings.one .warning p.toHead .emptySections s!"Page \"{p.name.text}\" has no sections")]

end Validate

/-- The findings on a page itself, then those on its tree in document order. -/
def validate (registry : Registry) : Node → Findings
  | .page p sections =>
    (Validate.checkPage p sections).and
      (Validate.checkChildren registry (! p.loader.isNull) sections)
  | _ => .error (.noPart "route")

def validateAll (registry : Registry) (pages : List Node) : Findings :=
  Findings.all (pages.map (validate registry))

end ViewCompiler
