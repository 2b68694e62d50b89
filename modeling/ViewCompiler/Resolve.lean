import ViewCompiler.Node.Find
import ViewCompiler.Template.Index
import ViewCompiler.Template.Substitute
import ViewCompiler.Trace
import ViewCompiler.Widget.Registry

/-! Resolution of references and calls against all pages and partials. A reference gives way to the
section that it names and a call to its filled template, both resolved in turn; a target that is being
expanded already is not entered again. What cannot be resolved stays and is reported. -/
namespace ViewCompiler

structure Env where
  pages : Entries String Node
  partials : PartialIndex
  registry : Registry

inductive Target (α : Type) where
  | missing (code : Code) (message : String)
  | found (key : String) (target : α)

namespace Node

def sections : Node → Except Fault (Loose (List Node))
  | .page _ sections => .ok sections
  | _ => .error (.noPart "sections")

mutual
def refCount : Node → Nat
  | .ref _ => 1
  | .page _ sections => childRefCount sections
  | .sect _ children => childRefCount children
  | .frag _ children => childRefCount children
  | .cond _ body otherwise => childRefCount body + childRefCount otherwise
  | .loop _ template => refCount template
  | .widget _ | .call _ | .slot _ | .custom _ | .stray _ => 0

def childRefCount : Loose (List Node) → Nat
  | .proper ns => nodeRefCount ns
  | .stray _ => 0

def nodeRefCount : List Node → Nat
  | [] => 0
  | n :: ns => refCount n + nodeRefCount ns
end

end Node

namespace Env

def refTarget (env : Env) (r : Ref) : Except Fault (Target Node) := do
  let slug ← r.pageName.slug
  match Entries.get? env.pages slug with
  | none =>
    return .missing .unknownRefTarget s!"$ref target page \"{r.pageName.text}\" not found"
  | some page =>
    match ← Node.findInChildren r.sectionName (← page.sections) with
    | none =>
      return .missing .unknownRefSection
        s!"$ref target section \"{r.sectionName.text}\" not found in \"{r.pageName.text}\""
    | some target => return .found s!"{slug}#{r.sectionName.text}" target

def callTarget (env : Env) (c : Call) : Except Fault (Target Partial) := do
  let p ← match ← c.name.key with
    | .text name => pure (Entries.get? env.partials name)
    | _ => pure none
  match p with
  | none => return .missing .unknownPartial s!"Partial \"{c.name.text}\" not found"
  | some p => return .found s!"$partial:{p.name.text}" p

/-- Every target has a key of its own, named by a reference or belonging to a partial, so nested
expansions number no more than these. -/
def budget (env : Env) (n : Node) : Nat :=
  n.refCount + Node.nodeRefCount (Entries.values env.pages)
    + Node.nodeRefCount ((Entries.values env.partials).map (·.template)) + env.partials.length

/-- How a target is resolved while the given keys are being expanded. -/
abbrev Expander := List String → Node → Traced Node

def resolveRef (env : Env) (expand : Expander) (busy : List String) (r : Ref) : Traced Node := do
  match ← Traced.ofExcept (env.refTarget r) with
  | .missing code message =>
    Traced.report r.toHead code message
    return .ref r
  | .found key target =>
    if key ∈ busy then
      Traced.report r.toHead .circularRef s!"Circular $ref: {key}"
      return .ref r
    else
      let place ← Traced.ofExcept r.toHead.place
      Traced.log .debug .resolver s!"Inlining {key} into {place.file.text}"
      expand (key :: busy) target

def resolveCall (env : Env) (expand : Expander) (busy : List String) (c : Call) : Traced Node := do
  match ← Traced.ofExcept (env.callTarget c) with
  | .missing code message =>
    Traced.report c.toHead code message
    return .call c
  | .found key p =>
    if key ∈ busy then
      Traced.report c.toHead .circularRef s!"Circular $partial: {p.name.text}"
      return .call c
    else
      let expanded ← Traced.ofExcept (p.bindings c.args >>= p.template.substitute)
      let place ← Traced.ofExcept c.toHead.place
      Traced.log .debug .resolver s!"Expanded partial {p.name.literal} in {place.file.text}"
      expand (key :: busy) expanded

def resolveWidget (env : Env) (w : Widget) : Traced Node := do
  if ! (← Traced.ofExcept (env.registry.has w.type)) then
    Traced.report w.toHead .unknownWidgetType s!"Unknown widget type \"{w.type.text}\""
  return .widget w

mutual
def resolveNode (env : Env) (expand : Expander) (busy : List String) : Node → Traced Node
  | .ref r => resolveRef env expand busy r
  | .call c => resolveCall env expand busy c
  | .widget w => resolveWidget env w
  | .slot s => pure (.slot s)
  | .sect s children => return .sect s (← resolveChildren env expand busy children)
  | .cond c body otherwise => do
    let body ← resolveChildren env expand busy body
    let otherwise ← resolveOtherwise env expand busy otherwise
    return .cond c body otherwise
  | .loop l template => return .loop l (← resolveNode env expand busy template)
  | .frag f children => return .frag f (← resolveChildren env expand busy children)
  | .page _ _ | .custom _ | .stray _ => Traced.fail .notChild

def resolveChildren (env : Env) (expand : Expander) (busy : List String) :
    Loose (List Node) → Traced (Loose (List Node))
  | .proper ns => return .proper (← resolveNodes env expand busy ns)
  | .stray v => do
    Traced.ofExcept (Node.noMembers v)
    return .proper []

def resolveOtherwise (env : Env) (expand : Expander) (busy : List String) :
    Loose (List Node) → Traced (Loose (List Node))
  | .stray .null => pure .null
  | .proper ns => return .proper (← resolveNodes env expand busy ns)
  | .stray v => do
    Traced.ofExcept (Node.noMembers v)
    return .proper []

def resolveNodes (env : Env) (expand : Expander) (busy : List String) :
    List Node → Traced (List Node)
  | [] => pure []
  | n :: ns => do
    let n ← resolveNode env expand busy n
    let ns ← resolveNodes env expand busy ns
    return n :: ns
end

/-- Expansions nest no deeper than the number given. -/
def resolveWithin (env : Env) : Nat → Expander
  | 0 => fun _ _ => Traced.fail .outOfBudget
  | n + 1 => resolveNode env (resolveWithin env n)

def resolveChild (env : Env) (busy : List String) (n : Node) : Traced Node :=
  resolveWithin env (env.budget n + 1) busy n

/-- Every child of a page is resolved on its own, with nothing being expanded yet. -/
def resolvePage (env : Env) : Node → Traced Node
  | .page p (.proper ns) => return .page p (.proper (← ns.mapM (env.resolveChild [])))
  | .page p (.stray v) => do
    Traced.ofExcept (Node.noMembers v)
    return .page p (.proper [])
  | _ => Traced.fail (.noPart "sections")

end Env

/-- The slug of the name of a node; some kinds have no name. -/
def Node.nameSlug : Node → Except Fault String
  | .page p _ => p.name.slug
  | .sect s _ => s.name.slug
  | .call c => c.name.slug
  | .slot s => s.name.slug
  | _ => .error (.noPart "name")

/-- Pages by the slugs of their names; of two with one slug the later counts. -/
def indexPages (pages : List Node) : Except Fault (Entries String Node) := do
  return Entries.ofPairs (← pages.mapM fun page => (·, page) <$> page.nameSlug)

def Env.of (pages : List Node) (registry : Registry) (partials : List (Value × Partial)) :
    Except Fault Env := do
  return ⟨← indexPages pages, ← PartialIndex.ofEntries partials, registry⟩

def Env.resolvePages (env : Env) (pages : List Node) : Traced (List Node) :=
  pages.mapM env.resolvePage

def resolveAll (pages : List Node) (registry : Registry) (partials : List (Value × Partial)) :
    Traced (List Node) := do
  let env ← Traced.ofExcept (Env.of pages registry partials)
  let run := env.resolvePages pages
  let resolved ← run
  Traced.log .info .resolver
    s!"Resolved {resolved.length} page(s) with {run.diagnostics.length} error(s)"
  return resolved

structure Resolution where
  pages : List Node
  errors : List Diagnostic

namespace Resolution

def isValid (r : Resolution) : Bool := r.errors.isEmpty

def text (r : Resolution) : String :=
  if r.isValid then s!"ResolveResult: {r.pages.length} page(s) resolved"
  else
    let lines := "\n  ".intercalate (r.errors.map (·.text))
    s!"ResolveResult: {r.errors.length} error(s)\n  {lines}"

end Resolution

def resolve (pages : List Node) (registry : Registry) (partials : List (Value × Partial)) :
    Except Fault Resolution := do
  let run := resolveAll pages registry partials
  return ⟨← run.result, run.diagnostics⟩

end ViewCompiler
