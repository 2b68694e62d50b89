import ViewCompiler.Widget.Schema

/-! The widget types that every registry knows unless it is told otherwise. -/
namespace ViewCompiler.Catalog

open PropSchema (needed)

def given (type : String) (default : Value := .null) : PropSchema := { type, default }

def choice (default : String) (values : List String) : PropSchema :=
  { type := "enum", default := .str default, values := some (values.map .str) }

def schema (name category : String) (props : Entries String PropSchema)
    (slots : Entries String SlotSchema := []) : Schema :=
  { name := .str name, category := .str category, props, slots }

def display : List Schema := [
  schema "stat-card" "display" [
    ("source", needed "binding"), ("label", needed "string"),
    ("format", choice "number" ["number", "currency", "percent", "duration", "bytes"]),
    ("icon", given "icon")],
  schema "badge" "display" [
    ("source", needed "binding"), ("variant", choice "solid" ["solid", "outline", "subtle"]),
    ("color", given "string")],
  schema "avatar" "display" [
    ("source", needed "binding"), ("alt", needed "string"),
    ("size", choice "md" ["sm", "md", "lg", "xl"]),
    ("fallback", choice "initials" ["initials", "icon"])],
  schema "progress" "display" [
    ("source", needed "binding"), ("max", given "number" (.int 100)), ("label", given "string"),
    ("color", given "string")]]

def typography : List Schema := [
  schema "heading" "typography" [
    ("source", given "binding"), ("text", given "string"),
    ("tag", choice "h2" ["h1", "h2", "h3", "h4", "h5", "h6"])],
  schema "paragraph" "typography" [
    ("source", given "binding"), ("content", given "string"), ("maxLines", given "number"),
    ("expandable", given "boolean" (.bool false))],
  schema "markdown" "typography" [("source", needed "binding")]]

def data : List Schema := [
  schema "data-table" "data" [
    ("source", needed "binding"), ("columns", needed "string[]"), ("actions", given "string[]"),
    ("sortable", given "boolean" (.bool true)), ("filterable", given "boolean" (.bool false)),
    ("paginate", given "boolean" (.bool true))],
  schema "chart" "data" [
    ("source", needed "binding"), ("chart", needed "object"),
    ("animate", given "boolean" (.bool true))],
  schema "bar-chart" "data" [
    ("bars", needed "object[]"), ("animate", given "boolean" (.bool true))]]

def interaction : List Schema := [
  schema "form" "input" [("fields", needed "object[]"), ("submit", given "string")],
  schema "search-bar" "input" [
    ("placeholder", given "string" (.str "Search...")), ("source", given "binding")],
  schema "chat-messages" "interactive" [
    ("source", needed "binding"), ("features", given "object")],
  schema "chat-input" "interactive" []]

def layout : List Schema := [
  schema "hero" "layout" [("heading", needed "object"), ("subheading", given "object")],
  schema "feature-grid" "layout" [("features", needed "object[]"), ("heading", given "object")],
  schema "team-grid" "layout" [("members", needed "object[]"), ("heading", given "object")],
  schema "tabs" "layout" [("items", needed "object[]"), ("default", given "string")]
    [("content", { description := .str "Tab content" })]]

def navigation : List Schema := [
  schema "action-group" "navigation" [("actions", needed "object[]")],
  schema "cta" "navigation" [("heading", needed "object"), ("actions", needed "object[]")],
  schema "breadcrumb" "navigation" [("items", needed "string[]")],
  schema "sidebar-nav" "navigation" [("items", needed "string[]"), ("active", given "string")]]

def media : List Schema := [
  schema "image" "media" [
    ("source", needed "binding"), ("alt", needed "string"),
    ("loading", choice "lazy" ["lazy", "eager"])]]

def feedback : List Schema := [
  schema "empty-state" "feedback" [
    ("icon", given "icon"), ("message", needed "string"), ("action", given "object")],
  schema "skeleton" "feedback" [
    ("lines", given "number" (.int 3)), ("type", choice "text" ["text", "card", "table"])]]

def composite : List Schema := [
  schema "stat-cards" "composite" [("layout", given "object")]
    [("default", { description := .str "Stat card children" })],
  schema "card-grid" "composite" [("layout", given "object")]
    [("default", { description := .str "Card children" })]]

def all : List Schema :=
  display ++ typography ++ data ++ interaction ++ layout ++ navigation ++ media ++ feedback
    ++ composite ++ [schema "preview" "display" []]

end ViewCompiler.Catalog
