import ViewCompiler.Value

/-! Terse forms of widgets, expanded to plain ones. At most one rule fires, and none where a type is
given: a heading under its tag, a chart under its name, a table known by its columns. -/
namespace ViewCompiler.Document

def headingTags : List String := ["h1", "h2", "h3", "h4", "h5", "h6"]

def chartTypes : List (String × String) :=
  [("line-chart", "line"), ("area-chart", "area"), ("bar-chart", "bar"), ("donut-chart", "donut")]

def firstPresent (fs : Fields) (key : α → String) : List α → Option (α × Value)
  | [] => none
  | a :: rest =>
    match Entries.get? fs (key a) with
    | some v => some (a, v)
    | none => firstPresent fs key rest

/-- The heading's tag and text replace what stood under those keys. -/
def expandHeading (fs : Fields) (tag : String) (content : Value) : Fields :=
  Entries.merge (Entries.erase fs tag)
    [("type", .str "heading"), ("tag", .str tag), ("text", content)]

def axis (fs : Fields) (key name : String) : Fields :=
  match Entries.get? fs key with
  | some v => [(name, v)]
  | none => []

def expandChart (fs : Fields) (key type : String) (source : Value) : Fields :=
  let fs := Entries.erase fs key
  let chart := ("type", .str type) :: axis fs "x" "xAxis" ++ axis fs "y" "yAxis"
  Entries.merge (Entries.erase (Entries.erase fs "x") "y")
    [("type", .str "chart"), ("source", source), ("chart", .dict chart)]

def isTable (fs : Fields) : Bool :=
  (match Entries.get? fs "columns" with
    | some (.list _) => true
    | _ => false) && Entries.has fs "source"

def expand (fs : Fields) : Fields :=
  if Entries.has fs "type" then fs
  else
    match firstPresent fs id headingTags with
    | some (tag, content) => expandHeading fs tag content
    | none =>
      match firstPresent fs Prod.fst chartTypes with
      | some ((key, type), source) => expandChart fs key type source
      | none => if isTable fs then Entries.put fs "type" (.str "data-table") else fs

theorem mem_of_firstPresent {fs : Fields} {key : α → String} {as : List α} {a : α} {v : Value}
    (h : firstPresent fs key as = some (a, v)) : a ∈ as := by
  induction as with
  | nil => simp [firstPresent] at h
  | cons b as ih =>
    rw [firstPresent] at h
    split at h
    · simp_all
    · exact List.mem_cons_of_mem _ (ih h)

def affectedKeys : List String :=
  headingTags ++ chartTypes.map Prod.fst ++ ["type", "tag", "text", "source", "chart", "x", "y"]

/-- No rule touches another key. -/
theorem get?_expand {fs : Fields} {key : String} (h : key ∉ affectedKeys) :
    Entries.get? (expand fs) key = Entries.get? fs key := by
  simp only [affectedKeys, List.mem_append, not_or] at h
  obtain ⟨⟨hTags, hCharts⟩, hWritten⟩ := h
  simp only [List.mem_cons, List.not_mem_nil, or_false, not_or] at hWritten
  obtain ⟨hType, hTag, hText, hSource, hChart, hX, hY⟩ := hWritten
  rw [expand]
  split
  · rfl
  · split
    · rename_i hFound
      have := mem_of_firstPresent hFound
      simp [expandHeading, Entries.merge, Ne.symm hType, Ne.symm hTag, Ne.symm hText,
        ne_of_mem_of_not_mem this hTags]
    · split
      · rename_i hFound
        have := List.mem_map_of_mem (f := Prod.fst) (mem_of_firstPresent hFound)
        simp [expandChart, Entries.merge, Ne.symm hType, Ne.symm hSource, Ne.symm hChart,
          Ne.symm hX, Ne.symm hY, ne_of_mem_of_not_mem this hCharts]
      · split
        · simp [Ne.symm hType]
        · rfl

end ViewCompiler.Document
