import ViewCompiler.Proofs.Document.Shapes

/-! Arguments of a call. All that stands beside the name of the partial reaches it, as the shorthand
leaves it: a mapping to which a rule applies is rewritten first, also where it is a call. -/
namespace ViewCompiler.Document

variable {file : Value} {fs : Fields} {name : String}

/-- A mapping that names a partial and no target is a call of the partial. Its arguments are the other
fields, which the one rule that applies to the mapping has rewritten: what the rule writes is there,
what it takes away is gone, and the rest is unchanged. Where no rule writes anything they are just the
other fields. -/
theorem call_of_parseChild
    (noRef : ∀ target, Entries.get? fs "$ref" = some (.str target) → target = "")
    (named : Entries.get? fs "$partial" = some (.str name)) (given : name ≠ "") :
    ∃ args, parseChild file (.dict fs) =
        .call { toHead := locate file, name := .str name, args := .dict args } ∧
      ((Entries.keys fs).Nodup → (Entries.keys args).Nodup) ∧
      ∃ gone written, Rule fs gone written ∧
        (∀ gone' written', Rule fs gone' written' → gone' = gone ∧ written' = written) ∧
        (written = [] → args = Entries.erase fs "$partial") ∧
        ∀ key, Entries.get? args key = if key = "$partial" then none else
          (Entries.get? written key).or (if key ∈ gone then none else Entries.get? fs key) := by
  have ref : nonEmpty? (expand fs) "$ref" = none := by
    rw [nonEmpty?_expand (by decide)]
    exact nonEmpty?_eq_none.mpr noRef
  have call : nonEmpty? (expand fs) "$partial" = some name := by
    rw [nonEmpty?_expand (by decide)]
    exact nonEmpty?_eq_some.mpr ⟨named, given⟩
  have rule := rule_rewriteOf fs
  refine ⟨Entries.erase (expand fs) "$partial", ?_, fun distinct => ?_, _, _, rule,
    fun _ _ => rule.unique, fun unwritten => ?_, fun key => ?_⟩
  · rw [parseChild_dict, Shape.of_eq_call.mpr ⟨ref, call, rfl⟩, Shape.node]
  · exact Entries.nodup_keys_erase (nodup_keys_expand distinct) _
  · rw [unwritten] at rule
    rw [expand_of_rule_nil rule]
  · rw [Entries.get?_erase, get?_expand_of_rule rule]

def chartCall : Fields :=
  [("$partial", .str "Card"), ("line-chart", .str "sales"), ("x", .str "month"),
    ("title", .str "Sales")]

theorem call_of_parseChild_chart : ∃ args,
    parseChild (.str "home.yaml") (.dict chartCall) =
      .call { toHead := locate (.str "home.yaml"), name := .str "Card", args := .dict args } ∧
    Entries.get? args "source" = some (.str "sales") ∧ Entries.get? args "line-chart" = none ∧
    Entries.get? args "title" = some (.str "Sales") := by
  obtain ⟨args, parsed, -, gone, written, rule, -, -, found⟩ :=
    @call_of_parseChild (.str "home.yaml") chartCall "Card" (fun _ absurd => by cases absurd) rfl
      (by decide)
  obtain ⟨rfl, rfl⟩ := Prod.mk.inj (rule.eq_rewriteOf.symm.trans rfl)
  refine ⟨args, parsed, ?_, ?_, ?_⟩ <;> rw [found] <;> rfl

def headingCall : Fields := [("$partial", .str "Hero"), ("h1", .str "Welcome")]

/-- The heading does not reach the partial under its key. -/
theorem call_drops_heading : Entries.get? headingCall "$ref" = none ∧
    Entries.get? headingCall "$partial" = some (.str "Hero") ∧
    ¬ ∃ args, parseChild (.str "home.yaml") (.dict headingCall) =
        .call { toHead := locate (.str "home.yaml"), name := .str "Hero", args := .dict args } ∧
      ∀ key, Entries.get? args key =
        if key = "$partial" then none else Entries.get? headingCall key := by
  refine ⟨rfl, rfl, ?_⟩
  rintro ⟨args, parsed, kept⟩
  have shape : Shape.of (expand headingCall) =
      .call "Hero" [("type", .str "heading"), ("tag", .str "h1"), ("text", .str "Welcome")] := rfl
  rw [parseChild_dict, shape, Shape.node] at parsed
  cases parsed
  cases kept "h1"

end ViewCompiler.Document
