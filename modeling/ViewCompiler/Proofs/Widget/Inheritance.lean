import ViewCompiler.Proofs.Widget.Runs

/-! Inheritance along chains. A schema takes over what its parent was stored with, so that a chain of
schemas, each registered after its parent, is laid over one another from the root down. -/
namespace ViewCompiler

/-- Declarations in layers: each name stands where it comes first, and with what the last layer that
has it declares. -/
structure Overlaid {α : Type} (layers : List (Entries String α)) (merged : Entries String α) :
    Prop where
  keys : Entries.keys merged = (layers.flatMap Entries.keys).eraseDups
  get? : ∀ name, Entries.get? merged name = layers.reverse.findSome? (Entries.get? · name)

namespace Overlaid

variable {α : Type} {layers : List (Entries String α)} {merged top : Entries String α}

theorem nil : Overlaid ([] : List (Entries String α)) [] := ⟨rfl, fun _ => rfl⟩

theorem concat (h : Overlaid layers merged) (distinct : (Entries.keys top).Nodup) :
    Overlaid (layers ++ [top]) (merged.merge top) where
  keys := by
    rw [Entries.keys_merge h.keys, List.flatMap_append]
    simp
  get? name := by
    rw [Entries.get?_merge distinct, h.get?]
    cases found : Entries.get? top name <;> simp [found]

theorem single (distinct : (Entries.keys top).Nodup) : Overlaid [top] top := by
  have merged := nil.concat distinct
  rwa [show Entries.merge [] top = top from Entries.ofPairs_of_nodup distinct] at merged

end Overlaid

def nearest (values : List Value) : Value := (values.reverse.find? (! ·.isNull)).getD .null

theorem nearest_single (v : Value) : nearest [v] = v := by
  cases v <;> rfl

theorem nearest_concat (values : List Value) (v : Value) :
    nearest (values ++ [v]) = if v.isNull then nearest values else v := by
  rw [nearest, List.reverse_append, List.reverse_singleton, List.singleton_append, List.find?_cons]
  cases v.isNull <;> rfl

/-- No prop is declared twice, and no slot: declarations come from dictionaries, which have no key
twice. -/
structure Schema.Distinct (s : Schema) : Prop where
  props : (Entries.keys s.props).Nodup
  slots : (Entries.keys s.slots).Nodup

/-- The schema as it is stored at the end of a chain: what the chain declares in layers, and of the
rest the nearest that is said. -/
structure Inherits (above : List Schema) (s stored : Schema) : Prop where
  name : stored.name = s.name
  category : stored.category = s.category
  base : stored.base = s.base
  props : Overlaid ((above ++ [s]).map (·.props)) stored.props
  slots : Overlaid ((above ++ [s]).map (·.slots)) stored.slots
  description : stored.description = nearest ((above ++ [s]).map (·.description))
  accessibility : stored.accessibility = nearest ((above ++ [s]).map (·.accessibility))
  responsive : stored.responsive = nearest ((above ++ [s]).map (·.responsive))
  template : stored.template = nearest ((above ++ [s]).map (·.template))

namespace Inherits

variable {above : List Schema} {s parent stored : Schema}

theorem root (distinct : s.Distinct) : Inherits [] s s where
  name := rfl
  category := rfl
  base := rfl
  props := .single distinct.props
  slots := .single distinct.slots
  description := (nearest_single _).symm
  accessibility := (nearest_single _).symm
  responsive := (nearest_single _).symm
  template := (nearest_single _).symm

/-- What a parent was stored with is one more layer below the own declarations. -/
theorem extend (h : Inherits above parent stored) (distinct : s.Distinct) :
    Inherits (above ++ [parent]) s (s.inherit stored) where
  name := rfl
  category := rfl
  base := rfl
  props := by
    rw [List.map_append]
    exact h.props.concat distinct.props
  slots := by
    rw [List.map_append]
    exact h.slots.concat distinct.slots
  description := by
    rw [List.map_append, List.map_singleton, nearest_concat, ← h.description]
    rfl
  accessibility := by
    rw [List.map_append, List.map_singleton, nearest_concat, ← h.accessibility]
    rfl
  responsive := by
    rw [List.map_append, List.map_singleton, nearest_concat, ← h.responsive]
    rfl
  template := by
    rw [List.map_append, List.map_singleton, nearest_concat, ← h.template]
    rfl

/-- The props that must be set are those whose nearest declaration says so, in the order in which
they are first declared. -/
theorem requiredProps (h : Inherits above s stored) :
    stored.requiredProps = ((above ++ [s]).flatMap (Entries.keys ·.props)).eraseDups.filter
      fun name => ((above ++ [s]).reverse.findSome? (Entries.get? ·.props name)).any (·.required) := by
  have distinct : (Entries.keys stored.props).Nodup := by
    rw [h.props.keys]
    exact Entries.nodup_eraseDups _
  refine (Entries.keys_filter distinct (·.required)).trans ?_
  rw [h.props.keys, List.flatMap_map]
  refine List.filter_congr fun name _ => ?_
  rw [h.props.get?, ← List.map_reverse, List.findSome?_map]
  rfl

end Inherits

/-- A history of registrations and a chain in it, root first: the first schema extends nothing, each
other the one before it, which is registered by then, and none is registered again. -/
inductive Lineage : List Schema → List Schema → Prop where
  | root {before s} (extendsNone : s.base.truthy = false) : Lineage (before ++ [s]) [s]
  | extend {before chain parent s} (line : Lineage before chain)
      (last : chain.getLast? = some parent) (extendsLast : s.base.truthy)
      (base : s.base.key? = parent.name.key?)
      (fresh : ∀ t ∈ chain, s.name.key? ≠ t.name.key?) : Lineage (before ++ [s]) (chain ++ [s])
  | other {before chain s} (line : Lineage before chain)
      (fresh : ∀ t ∈ chain, s.name.key? ≠ t.name.key?) : Lineage (before ++ [s]) chain

/-- Schemas of other names leave a chain as it is. -/
theorem Lineage.others {before chain : List Schema} (line : Lineage before chain)
    (rest : List Schema) (fresh : ∀ s ∈ rest, ∀ t ∈ chain, s.name.key? ≠ t.name.key?) :
    Lineage (before ++ rest) chain := by
  induction rest generalizing before with
  | nil => rwa [List.append_nil]
  | cons s rest ih =>
    obtain ⟨first, later⟩ := List.forall_mem_cons.mp fresh
    rw [List.append_cons]
    exact ih (line.other first) later

namespace Registry

variable {r : Registry} {history : List Schema} {s t stored parent : Schema}

/-- From the registration of the schema on, however far the history went, it was stored like this. -/
def Keeps (history : List Schema) (s stored : Schema) : Prop :=
  ∃ before after, history = before ++ s :: after ∧ ∀ mid, mid <+: after →
    (({} : Registry).adopt (before ++ s :: mid)).get s.name = .ok (some stored)

theorem Keeps.get (h : Keeps history s stored) :
    (({} : Registry).adopt history).get s.name = .ok (some stored) := by
  obtain ⟨before, after, rfl, kept⟩ := h
  exact kept after List.prefix_rfl

theorem keeps_last {before : List Schema} (taken : s.isRegistrable) :
    Keeps (before ++ [s]) s ((({} : Registry).adopt before).completed s) := by
  refine ⟨before, [], rfl, fun mid none_ => ?_⟩
  obtain rfl := List.prefix_nil.mp none_
  rw [adopt_append]
  exact get_adopt_self _ taken

theorem Keeps.concat (h : Keeps history s stored) (other : t.name.key? ≠ s.name.key?) :
    Keeps (history ++ [t]) s stored := by
  have last := h.get
  obtain ⟨before, after, rfl, kept⟩ := h
  refine ⟨before, after ++ [t], by simp, fun mid upTo => ?_⟩
  rcases List.prefix_concat_iff.mp upTo with rfl | earlier
  · have moved : before ++ s :: (after ++ [t]) = before ++ s :: after ++ [t] := by simp
    rw [moved, adopt_append, get_adopt_of_ne _ other, last]
  · exact kept mid earlier

theorem completed_of_root (extendsNone : s.base.truthy = false) : r.completed s = s := by
  simp [completed, parent?, extendsNone]

theorem completed_of_get (extends_ : s.base.truthy) (base : s.base.key? = parent.name.key?)
    (found : r.get parent.name = .ok (some stored)) : r.completed s = s.inherit stored := by
  obtain ⟨k, name⟩ : ∃ k, parent.name.key? = some k := by
    cases name : parent.name.key? with
    | some k => exact ⟨k, rfl⟩
    | none =>
      rw [get_of_not_key name] at found
      cases found
  rw [get_eq name] at found
  simp [completed, parent?, extends_, base, name, Except.ok.inj found]

/-- Along a lineage each schema is stored with what the chain above it and itself declare, and stays
as it was stored. The induction is on the history, so that a parent is known to be kept up to the
moment at which it is looked up. -/
theorem keeps_of_lineage {chain : List Schema} (line : Lineage history chain)
    (taken : ∀ s ∈ history, s.isRegistrable) (distinct : ∀ s ∈ chain, s.Distinct) :
    ∀ above s below, chain = above ++ s :: below →
      ∃ stored, Keeps history s stored ∧ Inherits above s stored := by
  induction line with
  | @root before s extendsNone =>
    intro above t below split
    obtain ⟨rfl, rfl, rfl⟩ : above = [] ∧ s = t ∧ below = [] := by
      cases above <;> simp_all
    have kept : Keeps (before ++ [s]) s _ := keeps_last (taken s (by simp))
    rw [completed_of_root extendsNone] at kept
    exact ⟨s, kept, .root (distinct s (by simp))⟩
  | @extend before chain parent s line last extendsLast base fresh ih =>
    intro above t below split
    have earlier := ih (fun s member => taken s (by simp [member]))
      (fun s member => distinct s (by simp [member]))
    rcases List.eq_nil_or_concat below with rfl | ⟨rest, x, rfl⟩
    · obtain ⟨rfl, rfl⟩ : chain = above ∧ s = t := by simpa using List.append_inj' split rfl
      obtain ⟨above, rfl⟩ := List.getLast?_eq_some_iff.mp last
      obtain ⟨stored, kept, inherits⟩ := earlier above parent [] rfl
      have now : Keeps (before ++ [s]) s _ := keeps_last (taken s (by simp))
      rw [completed_of_get extendsLast base kept.get] at now
      exact ⟨_, now, inherits.extend (distinct s (by simp))⟩
    · have shifted : chain ++ [s] = above ++ t :: rest ++ [x] := split.trans (by simp)
      obtain ⟨rfl, rfl⟩ : chain = above ++ t :: rest ∧ s = x := by
        simpa using List.append_inj' shifted rfl
      obtain ⟨stored, kept, inherits⟩ := earlier above t rest rfl
      exact ⟨stored, kept.concat (fresh t (by simp)), inherits⟩
  | @other before chain s line fresh ih =>
    intro above t below split
    obtain ⟨stored, kept, inherits⟩ :=
      ih (fun s member => taken s (by simp [member])) distinct above t below split
    exact ⟨stored, kept.concat (fresh t (by simp [split])), inherits⟩

/-- After any calls, the schemas of a chain of which each was registered after the one it extends, and
none again, are stored with what the chain down to them declares, and are kept in that form. -/
theorem inherits_along_lineage (builtins : Bool) (calls : List Registration) {chain : List Schema}
    (line : Lineage (known builtins ++ calls.flatMap Registration.schemas) chain)
    (distinct : ∀ s ∈ chain, s.Distinct) {above below : List Schema}
    (split : chain = above ++ s :: below) :
    ∃ stored, ((start builtins).run calls).get s.name = .ok (some stored) ∧
      Inherits above s stored ∧
      stored.requiredProps = ((above ++ [s]).flatMap (Entries.keys ·.props)).eraseDups.filter
        (fun name =>
          ((above ++ [s]).reverse.findSome? (Entries.get? ·.props name)).any (·.required)) ∧
      Keeps (known builtins ++ calls.flatMap Registration.schemas) s stored := by
  obtain ⟨stored, kept, inherits⟩ := keeps_of_lineage line
    (fun _ member => isRegistrable_of_history member) distinct above s below split
  refine ⟨stored, ?_, inherits, inherits.requiredProps, kept⟩
  rw [start_run]
  exact kept.get

section trends

def chart : Schema := Catalog.data[1]

def trend : Schema :=
  { name := .str "trend", base := .str "chart", description := .str "Over time",
    props := [("source", { type := "binding" })] }

def smallTrend : Schema :=
  { name := .str "small-trend", base := .str "trend", template := .str "small",
    props := [("size", { type := "number" }), ("source", .needed "binding")] }

def gauge : Schema := { name := .str "gauge" }

/-- The first is loaded with a document that is refused; the gauge comes between. -/
def trendCalls : List Registration :=
  [.load (.list [.dict [("name", .str "trend"), ("extends", .str "chart"),
      ("description", .str "Over time"),
      ("props", .dict [("source", .dict [("type", .str "binding")])])], .dict []]),
    .register gauge, .register smallTrend]

theorem lineage_trends :
    Lineage (known true ++ trendCalls.flatMap Registration.schemas) [chart, trend, smallTrend] := by
  have listed : known true ++ trendCalls.flatMap Registration.schemas =
      Catalog.all.take 8 ++ [chart] ++ Catalog.all.drop 9 ++ [trend] ++ [gauge] ++ [smallTrend] :=
    rfl
  have first : Lineage (Catalog.all.take 8 ++ [chart]) [chart] := .root rfl
  have second := (first.others (Catalog.all.drop 9) (by decide)).extend rfl
    (show trend.base.truthy from rfl) rfl (by decide)
  rw [listed]
  exact (second.other (by decide)).extend rfl rfl rfl (by decide)

theorem inherits_along_lineage_trends :
    Lineage (known true ++ trendCalls.flatMap Registration.schemas) [chart, trend, smallTrend] ∧
      (∀ s ∈ [chart, trend, smallTrend], s.Distinct) ∧
      ∃ stored, ((start true).run trendCalls).get (.str "small-trend") = .ok (some stored) ∧
        Entries.keys stored.props = ["source", "chart", "animate", "size"] ∧
        stored.requiredProps = ["source", "chart"] ∧ stored.description = .str "Over time" ∧
        stored.template = .str "small" := by
  have distinct : ∀ s ∈ [chart, trend, smallTrend], s.Distinct := by
    simp only [List.forall_mem_cons, List.not_mem_nil, false_imp_iff, implies_true, and_true]
    exact ⟨⟨by decide, by decide⟩, ⟨by decide, by decide⟩, by decide, by decide⟩
  obtain ⟨stored, found, inherits, required, -⟩ :=
    inherits_along_lineage true trendCalls lineage_trends distinct
      (show _ = [chart, trend] ++ smallTrend :: [] from rfl)
  exact ⟨lineage_trends, distinct, stored, found, inherits.props.keys.trans (by decide),
    required.trans (by decide), inherits.description, inherits.template⟩

end trends

end Registry
end ViewCompiler
