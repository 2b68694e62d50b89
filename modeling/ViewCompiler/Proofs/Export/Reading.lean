import ViewCompiler.Node.Import
import ViewCompiler.Proofs.Export.Storable
import ViewCompiler.Proofs.Resolve.Targets
import ViewCompiler.Proofs.Trace.Success

/-! What reading a node comes to: for each class the fields that are read, in order, and the node that
they make. -/
namespace ViewCompiler

theorem Kinds.find?_eq_some {kinds : Kinds} {v : Value} {nodeClass : NodeClass} :
    kinds.find? v = .ok (some nodeClass) ↔
      ∃ name, v = .str name ∧ Entries.get? kinds name = some nodeClass := by
  simp only [find?, Except.bind_eq_ok]
  constructor
  · rintro ⟨key, known, found⟩
    cases key with
    | text name => exact ⟨name, Value.key_eq_text.mp known, Except.pure_eq_ok.mp found⟩
    | null | int | float => cases Except.pure_eq_ok.mp found
  · rintro ⟨name, rfl, found⟩
    exact ⟨.text name, Value.key_eq_text.mpr rfl, Except.pure_eq_ok.mpr found⟩

namespace Node

variable {kinds : Kinds} {fs : Fields} {n : Node}

section places

variable {key : String} {default place : Children}

theorem readItems_eq_mapM (items : List Value) :
    readItems kinds items = items.mapM (readChild kinds) := by
  induction items with
  | nil => rw [readItems, List.mapM_nil]; rfl
  | cons v vs ih => rw [readItems, List.mapM_cons, ih]

theorem readChildren_none (absent : Entries.get? fs key = none) :
    readChildren kinds fs key default = .ok default := by
  rw [readChildren]
  split <;> simp_all

theorem readChildren_list {items : List Value} (found : Entries.get? fs key = some (.list items)) :
    readChildren kinds fs key default = .proper <$> items.mapM (readChild kinds) := by
  rw [readChildren]
  split <;> simp_all [readItems_eq_mapM]

theorem readChildren_stray {v : Value} (found : Entries.get? fs key = some v)
    (other : ∀ items, v ≠ .list items) : readChildren kinds fs key default = .ok (.stray v) := by
  rw [readChildren]
  split
  · simp_all
  · rename_i items listed
    exact absurd (Option.some.inj (found.symm.trans listed)) (other items)
  · simp_all

theorem readTemplate_eq_ok {t : Node} :
    readTemplate kinds fs = .ok (.ok t) ↔
      ∃ v, Entries.get? fs "template" = some v ∧ readChild kinds v = .ok t := by
  rw [readTemplate]
  split
  · simp_all
  · simp_all [Except.map_eq_ok]

theorem readChild_dict (kind : Entries.has fs "kind") :
    readChild kinds (.dict fs) = readNode kinds fs := by
  rw [readChild, if_pos kind]

theorem readChild_plain {v : Value} (plain : v.IsPlain) : readChild kinds v = .ok (.stray v) := by
  cases v with
  | dict fs => rw [readChild, plain fs rfl]; rfl
  | null | bool | int | float | str | list => rw [readChild]; simp

end places

section classes

theorem readNode_page (found : kinds.find? (fs.getD "kind") = .ok (some (.builtin .page))) :
    readNode kinds fs = .ok n ↔ ∃ head, Head.read fs = .ok head ∧
      ∃ loader, fs.readRecord "loader" Loader.read = .ok loader ∧
      ∃ accessibility, fs.readRecord "accessibility" Accessibility.read = .ok accessibility ∧
      ∃ responsive, fs.readRecord "responsive" Responsive.read = .ok responsive ∧
      ∃ sections, readChildren kinds fs "sections" (.proper []) = .ok sections ∧
      ∃ name, fs.require "name" = .ok name ∧ ∃ type, fs.require "type" = .ok type ∧
      ∃ route, fs.require "route" = .ok route ∧
      Node.page {
        toHead := head
        name
        type
        route
        auth := fs.valueD "auth" (.bool false)
        ssr := fs.valueD "ssr" (.bool false)
        loader
        pageMeta := fs.getD "page_meta"
        accessibility
        responsive } sections = n := by
  rw [readNode]
  simp only [found, Except.ok_bind, Except.bind_eq_ok, Except.pure_eq_ok]

theorem readNode_sect (found : kinds.find? (fs.getD "kind") = .ok (some (.builtin .sect))) :
    readNode kinds fs = .ok n ↔ ∃ head, Head.read fs = .ok head ∧
      ∃ layout, fs.readRecord "layout" Layout.read = .ok layout ∧
      ∃ children, readChildren kinds fs "children" (.proper []) = .ok children ∧
      Node.sect {
        toHead := head
        name := fs.getD "name"
        layout
        tag := fs.getD "tag"
        ariaLabel := fs.getD "aria_label" } children = n := by
  rw [readNode]
  simp only [found, Except.ok_bind, Except.bind_eq_ok, Except.pure_eq_ok]

theorem readNode_widget (found : kinds.find? (fs.getD "kind") = .ok (some (.builtin .widget))) :
    readNode kinds fs = .ok n ↔ ∃ head, Head.read fs = .ok head ∧
      ∃ source, fs.readRecord "source" Binding.read = .ok source ∧
      ∃ type, fs.require "widget_type" = .ok type ∧
      Node.widget { toHead := head, type, source, props := fs.valueD "props" (.dict []) } = n := by
  rw [readNode]
  simp only [found, Except.ok_bind, Except.bind_eq_ok, Except.pure_eq_ok]

theorem readNode_ref (found : kinds.find? (fs.getD "kind") = .ok (some (.builtin .ref))) :
    readNode kinds fs = .ok n ↔ ∃ head, Head.read fs = .ok head ∧
      ∃ target, fs.require "target" = .ok target ∧
      ∃ pageName, fs.require "page" = .ok pageName ∧
      ∃ sectionName, fs.require "section" = .ok sectionName ∧
      Node.ref { toHead := head, target, pageName, sectionName } = n := by
  rw [readNode]
  simp only [found, Except.ok_bind, Except.bind_eq_ok, Except.pure_eq_ok]

theorem readNode_call (found : kinds.find? (fs.getD "kind") = .ok (some (.builtin .call))) :
    readNode kinds fs = .ok n ↔ ∃ head, Head.read fs = .ok head ∧
      ∃ name, fs.require "name" = .ok name ∧
      Node.call { toHead := head, name, args := fs.valueD "args" (.dict []) } = n := by
  rw [readNode]
  simp only [found, Except.ok_bind, Except.bind_eq_ok, Except.pure_eq_ok]

theorem readNode_slot (found : kinds.find? (fs.getD "kind") = .ok (some (.builtin .slot))) :
    readNode kinds fs = .ok n ↔ ∃ head, Head.read fs = .ok head ∧
      ∃ name, fs.require "name" = .ok name ∧
      Node.slot {
        toHead := head
        name
        description := fs.getD "description"
        optional := fs.valueD "optional" (.bool false) } = n := by
  rw [readNode]
  simp only [found, Except.ok_bind, Except.bind_eq_ok, Except.pure_eq_ok]

theorem readNode_cond (found : kinds.find? (fs.getD "kind") = .ok (some (.builtin .cond))) :
    readNode kinds fs = .ok n ↔ ∃ head, Head.read fs = .ok head ∧
      ∃ body, readChildren kinds fs "then" (.proper []) = .ok body ∧
      ∃ otherwise, readChildren kinds fs "otherwise" .null = .ok otherwise ∧
      ∃ condition, fs.require "condition" = .ok condition ∧
      Node.cond { toHead := head, condition } body otherwise = n := by
  rw [readNode]
  simp only [found, Except.ok_bind, Except.bind_eq_ok, Except.pure_eq_ok]

theorem readNode_loop (found : kinds.find? (fs.getD "kind") = .ok (some (.builtin .loop))) :
    readNode kinds fs = .ok n ↔ ∃ head, Head.read fs = .ok head ∧
      ∃ template, readTemplate kinds fs = .ok template ∧
      ∃ source, fs.require "source" = .ok source ∧ ∃ t, template = .ok t ∧
      Node.loop { toHead := head, source, item := fs.valueD "as" (.str "item") } t = n := by
  rw [readNode]
  simp only [found, Except.ok_bind, Except.bind_eq_ok, Except.pure_eq_ok]

theorem readNode_frag (found : kinds.find? (fs.getD "kind") = .ok (some (.builtin .frag))) :
    readNode kinds fs = .ok n ↔ ∃ head, Head.read fs = .ok head ∧
      ∃ children, readChildren kinds fs "children" (.proper []) = .ok children ∧
      Node.frag { toHead := head } children = n := by
  rw [readNode]
  simp only [found, Except.ok_bind, Except.bind_eq_ok, Except.pure_eq_ok]

theorem readNode_custom {name : String}
    (found : kinds.find? (fs.getD "kind") = .ok (some (.custom name))) :
    readNode kinds fs = .ok n ↔ ∃ head, Head.read fs = .ok head ∧
      Node.custom { toHead := head, kind := (fs.getD "kind").text } = n := by
  rw [readNode]
  simp only [found, Except.ok_bind, Except.bind_eq_ok, Except.pure_eq_ok]

end classes

end Node
end ViewCompiler
