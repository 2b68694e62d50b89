import ViewCompiler.Proofs.Document.Props
import ViewCompiler.Proofs.Validate.Codes
import ViewCompiler.Proofs.Validate.Totality

/-! Required props, from the mapping of a widget to the findings on it. Parsing takes some keys of a
mapping for itself, and a prop of such a name is never there when it is asked for; every other prop
that an author gives is. -/
namespace ViewCompiler

/-- The structural keys whose values never become props. -/
def Document.lostKeys : List String := structuralKeys.erase "source"

namespace Validate

open Document

variable {file type : Value} {fs : Fields} {w : Widget} {s : Schema} {prop : String}

def missingProp (file : Value) (w : Widget) (prop : String) : Diagnostic :=
  Diagnostic.make .error .missingRequiredProp
    s!"Widget \"{w.type.text}\" missing required prop \"{prop}\"" { file }

theorem lacks_of_dict {props : Fields} (mapping : w.props = .dict props) :
    lacks w prop = .ok (! Entries.has props prop && ! (prop == "source" && ! w.source.isNull)) := by
  rw [lacks, mapping]
  rfl

/-- But for its source a widget keeps a key as a prop exactly if it is not structural. -/
theorem contains_lostKeys (other : prop ≠ "source") :
    lostKeys.contains prop = structuralKeys.contains prop := by
  simp [lostKeys, structuralKeys, other]

section parsed

variable (parsed : Node.widget w = widgetNode (locate file) fs)
include parsed

/-- A prop that is given is lacking all the same if parsing loses its key, and only then. -/
theorem lacks_of_given (given : (fs.getD prop).isNull = false) :
    lacks w prop = .ok (lostKeys.contains prop) := by
  cases parsed
  rw [lacks_of_dict rfl]
  by_cases source : prop = "source"
  · subst source
    obtain ⟨null, -, -⟩ | ⟨path, -, bound, -⟩ | ⟨-, -, -, present⟩ := source_cases fs
    · rw [null] at given
      cases given
    · rw [bound]
      simp [Loose.isNull, lostKeys, structuralKeys]
    · rw [Entries.has, present]
      rfl
  · have kept : Entries.has (propsOf fs) prop = ! structuralKeys.contains prop := by
      rw [Entries.has, get?_propsOf_of_ne source]
      cases structuralKeys.contains prop with
      | true => rfl
      | false =>
        cases found : Entries.get? fs prop with
        | none => rw [Fields.getD, found] at given; cases given
        | some v => rfl
    rw [kept, contains_lostKeys source, beq_false_of_ne source, Bool.false_and, Bool.not_false,
      Bool.and_true, Bool.not_not]

theorem checkRequired_of_given
    (given : ∀ prop ∈ s.requiredProps, (fs.getD prop).isNull = false) :
    checkRequired s w =
      .ok ((s.requiredProps.filter lostKeys.contains).map (missingProp file w)) := by
  refine Findings.all_map_eq_filter fun prop member => ?_
  rw [lacks_of_given parsed (given prop member)]
  cases parsed
  cases lostKeys.contains prop <;> rfl

/-- Of all that is found on the widget only lost keys are missing props. -/
theorem filter_checkWidget_of_given {registry : Registry} {hasLoader : Bool}
    {own : List Diagnostic} (registered : registry.get w.type = .ok (some s))
    (given : ∀ prop ∈ s.requiredProps, (fs.getD prop).isNull = false)
    (checked : checkWidget registry hasLoader w = .ok own) :
    own.filter (·.isAmong [.missingRequiredProp]) =
      (s.requiredProps.filter lostKeys.contains).map (missingProp file w) := by
  have type : checkType registry w =
      .ok ((s.requiredProps.filter lostKeys.contains).map (missingProp file w)) := by
    rw [checkType, registered, ← checkRequired_of_given parsed given]
    rfl
  obtain ⟨_, remarks, first, rest, rfl⟩ := Findings.and_eq_ok.mp checked
  obtain rfl := Except.ok.inj (type.symm.trans first)
  rw [List.filter_append, reports_remarks.filter_eq_nil (by decide) rest, List.append_nil]
  refine List.filter_eq_self.mpr fun d member => ?_
  obtain ⟨prop, -, rfl⟩ := List.mem_map.mp member
  exact (Diagnostic.isAmong_iff rfl).mpr (by simp)

end parsed

/-- An author who gives every required prop is told that one is missing only where its key is lost in
parsing, and there always: once for each such prop, in the order of the schema. -/
theorem missingProps_of_given {registry : Registry}
    (typed : Entries.get? fs "type" = some type)
    (parsed : (parseChild file (.dict fs)).Presents w)
    (registered : registry.get w.type = .ok (some s))
    (given : ∀ prop ∈ s.requiredProps, (fs.getD prop).isNull = false) :
    w.type = .str (type.orElse (.str unknownType)).text ∧
    ∀ (p : Page) (ns front back : List Node),
      (Node.page p (.proper ns)).preorder = front ++ .widget w :: back →
      (p.toHead.Placed → (∀ n ∈ ns, n.wellFormed) →
        ∃ found, validate registry (.page p (.proper ns)) = .ok found) ∧
      ∀ found, validate registry (.page p (.proper ns)) = .ok found →
        ∃ before own after, found = before ++ own ++ after ∧
          FindingsAt registry p (.proper ns) front (.widget w) back before own after ∧
          own.filter (·.isAmong [.missingRequiredProp]) =
            (s.requiredProps.filter lostKeys.contains).map (missingProp file w) := by
  have made := eq_widgetNode_of_presents parsed
  rw [expand_of_typed typed] at made
  refine ⟨?_, fun p ns front back split => ⟨fun placed formed => ?_, fun found checked => ?_⟩⟩
  · cases made
    rw [Fields.getD, typed]
    rfl
  · exact validate_total registry placed formed
  · obtain ⟨before, own, after, same, findings⟩ := exists_findingsAt split checked
    exact ⟨before, own, after, same, findings,
      filter_checkWidget_of_given made registered given findings.here⟩

def cardSchema : Schema where
  name := .str "user-card"
  props := [("name", .needed "string"), ("role", .needed "string")]

def cardRegistry : Registry where
  table := [(.text "user-card", .str "user-card", cardSchema)]

def cardFields : Fields := [
  ("type", .str "user-card"), ("name", .str "Ann"), ("role", .str "admin"), ("show", .str "$ready")]

def cardNode : Node := parseChild (.str "card.yaml") (.dict cardFields)

def cardHead : Head := locate (.str "card.yaml")

def card : Widget where
  toHead := cardHead
  type := .str "user-card"
  props := .dict [("role", .str "admin")]

def cardPage : Page where
  name := .str "Card"
  type := .str "page"
  route := .str "/card"

theorem cardNode_eq : cardNode =
    .cond { toHead := cardHead, condition := .str "$ready" } (.proper [.widget card]) .null := by
  rw [cardNode, parseChild]
  rfl

theorem missingProps_of_given_card : cardSchema.requiredProps = ["name", "role"] ∧
    ∃ found before own after, validate cardRegistry (.page cardPage (.proper [cardNode])) = .ok found ∧
      found = before ++ own ++ after ∧
      own.filter (·.isAmong [.missingRequiredProp]) =
        [missingProp (.str "card.yaml") card "name"] := by
  have typed : Entries.get? cardFields "type" = some (.str "user-card") := rfl
  have known : cardRegistry.get card.type = .ok (some cardSchema) := rfl
  obtain ⟨-, each⟩ := missingProps_of_given typed (.inr ⟨_, cardNode_eq⟩) known (by decide)
  obtain ⟨total, findings⟩ := each cardPage [cardNode] [.page cardPage (.proper [cardNode]), cardNode] []
    (by rw [cardNode_eq]; rfl)
  obtain ⟨found, checked⟩ := total ⟨_, rfl⟩ fun n member => by
    obtain rfl := List.mem_singleton.mp member
    exact (parsed_parseChild _ _).wellFormed
  obtain ⟨before, own, after, same, -, missing⟩ := findings found checked
  exact ⟨rfl, found, before, own, after, checked, same, missing⟩

/-- The name of the card is given and reported as missing: it is lost in parsing. -/
theorem given_name_reported : Entries.get? cardFields "type" = some (.str "user-card") ∧
    cardNode.Presents card ∧ cardRegistry.get card.type = .ok (some cardSchema) ∧
    (∀ prop ∈ cardSchema.requiredProps, (Fields.getD cardFields prop).isNull = false) ∧
    validate cardRegistry (.page cardPage (.proper [cardNode])) =
      .ok [missingProp (.str "card.yaml") card "name"] := by
  refine ⟨rfl, .inr ⟨_, cardNode_eq⟩, rfl, by decide, ?_⟩
  rw [cardNode_eq]
  rfl

end Validate
end ViewCompiler
