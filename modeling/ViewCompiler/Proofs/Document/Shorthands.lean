import ViewCompiler.Document.Shorthand
import ViewCompiler.Proofs.Entries

/-! Rules of the shorthand. Exactly one applies to a mapping, in a fixed order of precedence; it takes
keys away and writes others, and leaves every other field as it is. A change to fields that no rule looks
at is made before the expansion or after it. -/
namespace ViewCompiler.Document

variable {α : Type} {fs gs written : Fields} {gone : List String} {name : α → String} {as : List α}
  {a : α} {v : Value}

section first

/-- Of all that are listed it is the first whose key is there, with the value. -/
def IsFirst (fs : Fields) (name : α → String) (as : List α) (a : α) (v : Value) : Prop :=
  ∃ before after, as = before ++ a :: after ∧ (∀ b ∈ before, Entries.get? fs (name b) = none) ∧
    Entries.get? fs (name a) = some v

theorem isFirst_of_firstPresent (found : firstPresent fs name as = some (a, v)) :
    IsFirst fs name as a v := by
  induction as with
  | nil => cases found
  | cons b as ih =>
    rw [firstPresent] at found
    split at found
    · next present =>
      cases found
      exact ⟨[], as, rfl, List.forall_mem_nil _, present⟩
    · next absent =>
      obtain ⟨before, after, rfl, none, present⟩ := ih found
      exact ⟨b :: before, after, rfl, List.forall_mem_cons.mpr ⟨absent, none⟩, present⟩

theorem firstPresent_of_isFirst (first : IsFirst fs name as a v) :
    firstPresent fs name as = some (a, v) := by
  obtain ⟨before, after, rfl, none, present⟩ := first
  induction before with
  | nil => rw [List.nil_append, firstPresent, present]
  | cons b before ih =>
    obtain ⟨absent, none⟩ := List.forall_mem_cons.mp none
    rw [List.cons_append, firstPresent, absent]
    exact ih none

theorem firstPresent_eq_none :
    firstPresent fs name as = none ↔ ∀ a ∈ as, Entries.get? fs (name a) = none := by
  induction as with
  | nil => simp [firstPresent]
  | cons a as ih =>
    rw [firstPresent, List.forall_mem_cons]
    cases Entries.get? fs (name a) with
    | none => simpa using ih
    | some v => simp

theorem firstPresent_congr {gs : Fields}
    (same : ∀ a ∈ as, Entries.get? gs (name a) = Entries.get? fs (name a)) :
    firstPresent gs name as = firstPresent fs name as := by
  induction as with
  | nil => rfl
  | cons a as ih =>
    obtain ⟨first, rest⟩ := List.forall_mem_cons.mp same
    rw [firstPresent, firstPresent, first, ih rest]

theorem IsFirst.mem (first : IsFirst fs name as a v) : a ∈ as := by
  obtain ⟨before, after, rfl, -⟩ := first
  simp

end first

section rules

def chartOf (fs : Fields) (type : String) : Fields :=
  ("type", .str type) :: axis fs "x" "xAxis" ++ axis fs "y" "yAxis"

/-- The rule for the mapping, by the keys that it takes away and the fields that it writes. -/
inductive Rule (fs : Fields) : List String → Fields → Prop
  | typed (given : Entries.has fs "type") : Rule fs [] []
  | heading {tag content} (untyped : Entries.has fs "type" = false)
      (first : IsFirst fs id headingTags tag content) :
      Rule fs [tag] [("type", .str "heading"), ("tag", .str tag), ("text", content)]
  | chart {key type source} (untyped : Entries.has fs "type" = false)
      (noHeading : ∀ tag ∈ headingTags, Entries.get? fs tag = none)
      (first : IsFirst fs Prod.fst chartTypes (key, type) source) :
      Rule fs [key, "x", "y"]
        [("type", .str "chart"), ("source", source), ("chart", .dict (chartOf fs type))]
  | table {columns} (untyped : Entries.has fs "type" = false)
      (noHeading : ∀ tag ∈ headingTags, Entries.get? fs tag = none)
      (noChart : ∀ chart ∈ chartTypes, Entries.get? fs chart.1 = none)
      (listed : Entries.get? fs "columns" = some (.list columns))
      (bound : Entries.has fs "source") : Rule fs [] [("type", .str "data-table")]
  | plain (untyped : Entries.has fs "type" = false)
      (noHeading : ∀ tag ∈ headingTags, Entries.get? fs tag = none)
      (noChart : ∀ chart ∈ chartTypes, Entries.get? fs chart.1 = none)
      (noTable : ∀ columns, Entries.get? fs "columns" = some (.list columns) →
        Entries.has fs "source" = false) : Rule fs [] []

theorem isTable_iff : isTable fs ↔
    (∃ columns, Entries.get? fs "columns" = some (.list columns)) ∧ Entries.has fs "source" := by
  rw [isTable, Bool.and_eq_true]
  refine and_congr_left fun _ => ?_
  split
  · next columns found => simp [found]
  · next other => simpa using other

theorem isTable_eq_false (noTable : ∀ columns, Entries.get? fs "columns" = some (.list columns) →
    Entries.has fs "source" = false) : isTable fs = false := by
  refine Bool.eq_false_iff.mpr fun table => ?_
  obtain ⟨⟨columns, listed⟩, bound⟩ := isTable_iff.mp table
  exact Bool.eq_false_iff.mp (noTable columns listed) bound

theorem firstPresent_headingTags (noHeading : ∀ tag ∈ headingTags, Entries.get? fs tag = none) :
    firstPresent fs id headingTags = none := firstPresent_eq_none.mpr noHeading

def rewriteOf (fs : Fields) : List String × Fields :=
  if Entries.has fs "type" then ([], [])
  else
    match firstPresent fs id headingTags with
    | some (tag, content) => ([tag], [("type", .str "heading"), ("tag", .str tag), ("text", content)])
    | none =>
      match firstPresent fs Prod.fst chartTypes with
      | some ((key, type), source) => ([key, "x", "y"],
          [("type", .str "chart"), ("source", source), ("chart", .dict (chartOf fs type))])
      | none => if isTable fs then ([], [("type", .str "data-table")]) else ([], [])

theorem rule_rewriteOf (fs : Fields) : Rule fs (rewriteOf fs).1 (rewriteOf fs).2 := by
  rw [rewriteOf]
  split
  · next typed => exact .typed typed
  next untyped =>
  rw [Bool.not_eq_true] at untyped
  split
  · next heading => exact .heading untyped (isFirst_of_firstPresent heading)
  next heading =>
  have noHeading := firstPresent_eq_none.mp heading
  split
  · next chart => exact .chart untyped noHeading (isFirst_of_firstPresent chart)
  next chart =>
  have noChart := firstPresent_eq_none.mp chart
  split
  · next table =>
    obtain ⟨⟨columns, listed⟩, bound⟩ := isTable_iff.mp table
    exact .table untyped noHeading noChart listed bound
  · next noTable =>
    refine .plain untyped noHeading noChart fun columns listed => ?_
    exact Bool.eq_false_iff.mpr fun bound => noTable (isTable_iff.mpr ⟨⟨columns, listed⟩, bound⟩)

theorem Rule.eq_rewriteOf (rule : Rule fs gone written) : rewriteOf fs = (gone, written) := by
  cases rule with
  | typed given => rw [rewriteOf, if_pos given]
  | heading untyped first =>
    rw [rewriteOf, untyped, firstPresent_of_isFirst first]
    rfl
  | chart untyped noHeading first =>
    rw [rewriteOf, untyped, firstPresent_headingTags noHeading, firstPresent_of_isFirst first]
    rfl
  | table untyped noHeading noChart listed bound =>
    rw [rewriteOf, untyped, firstPresent_headingTags noHeading, firstPresent_eq_none.mpr noChart,
      isTable_iff.mpr ⟨⟨_, listed⟩, bound⟩]
    rfl
  | plain untyped noHeading noChart noTable =>
    rw [rewriteOf, untyped, firstPresent_headingTags noHeading, firstPresent_eq_none.mpr noChart,
      isTable_eq_false noTable]
    rfl

/-- No two rules apply to one mapping. -/
theorem Rule.unique {gone' : List String} {written' : Fields} (rule : Rule fs gone written)
    (other : Rule fs gone' written') : gone' = gone ∧ written' = written :=
  Prod.mk.inj (other.eq_rewriteOf.symm.trans rule.eq_rewriteOf)

theorem axis_erase {key other name : String} (apart : key ≠ other) :
    axis (Entries.erase fs key) other name = axis fs other name := by
  rw [axis, axis, Entries.get?_erase_of_ne _ apart]

/-- An expansion takes away and writes what the rule says. -/
theorem expand_eq (fs : Fields) :
    expand fs = Entries.merge (Entries.eraseAll fs (rewriteOf fs).1) (rewriteOf fs).2 := by
  rw [expand, rewriteOf]
  cases Entries.has fs "type" with
  | true => rfl
  | false =>
  cases firstPresent fs id headingTags with
  | some found => rfl
  | none =>
  cases chart : firstPresent fs Prod.fst chartTypes with
  | some found =>
    obtain ⟨notX, notY⟩ := (by decide : ∀ c ∈ chartTypes, c.1 ≠ "x" ∧ c.1 ≠ "y") _
      (mem_of_firstPresent chart)
    simp only [Bool.false_eq_true, if_false, expandChart, axis_erase notX, axis_erase notY]
    rfl
  | none => cases isTable fs <;> rfl

/-- A mapping in which no rule writes anything is left as it is. -/
theorem expand_of_rule_nil (rule : Rule fs gone []) : expand fs = fs := by
  rw [expand_eq, rule.eq_rewriteOf]
  cases rule <;> rfl

theorem Rule.nodup_written (rule : Rule fs gone written) : (Entries.keys written).Nodup := by
  cases rule <;> simp [Entries.keys]

theorem Rule.affected (rule : Rule fs gone written) :
    (∀ key ∈ gone, key ∈ affectedKeys) ∧ ∀ f ∈ written, f.1 ∈ affectedKeys := by
  cases rule with
  | typed | plain => exact ⟨List.forall_mem_nil _, List.forall_mem_nil _⟩
  | heading _ first =>
    have tags := (by decide : ∀ tag ∈ headingTags, tag ∈ affectedKeys) _ first.mem
    exact ⟨List.forall_mem_singleton.mpr tags, by simp [affectedKeys]⟩
  | chart _ _ first =>
    have charts := (by decide : ∀ c ∈ chartTypes, c.1 ∈ affectedKeys) _ first.mem
    exact ⟨List.forall_mem_cons.mpr ⟨charts, by simp [affectedKeys]⟩, by simp [affectedKeys]⟩
  | table => exact ⟨List.forall_mem_nil _, by simp [affectedKeys]⟩

/-- The fields that a rule writes are there, and of the others those that it does not take away. -/
theorem get?_expand_of_rule (rule : Rule fs gone written) (key : String) :
    Entries.get? (expand fs) key =
      (Entries.get? written key).or (if key ∈ gone then none else Entries.get? fs key) := by
  rw [expand_eq, rule.eq_rewriteOf, Entries.get?_merge rule.nodup_written, Entries.get?_eraseAll]

theorem nodup_keys_expand (distinct : (Entries.keys fs).Nodup) :
    (Entries.keys (expand fs)).Nodup := by
  rw [expand_eq]
  exact Entries.nodup_keys_merge (Entries.nodup_keys_eraseAll distinct _) _

end rules

section overlooked

/-- A change to fields that no rule sees: it leaves the keys that the rules look at as they are, and
such a key is taken away or written before the change or after it. -/
structure Overlooked (change : Fields → Fields) : Prop where
  get? : ∀ key ∈ "columns" :: affectedKeys, ∀ fs,
    Entries.get? (change fs) key = Entries.get? fs key
  erase : ∀ key ∈ affectedKeys, ∀ fs,
    Entries.erase (change fs) key = change (Entries.erase fs key)
  put : ∀ key ∈ affectedKeys, ∀ v fs,
    Entries.put (change fs) key v = change (Entries.put fs key v)

variable {change : Fields → Fields}

theorem overlooked_erase {key : String} (other : key ∉ "columns" :: affectedKeys) :
    Overlooked (Entries.erase · key) where
  get? _ seen fs := Entries.get?_erase_of_ne fs fun same => other (same ▸ seen)
  erase _ _ fs := Entries.erase_comm fs _ _
  put _ affected _ fs := Entries.put_erase_of_ne fs fun same =>
    other (same ▸ List.mem_cons_of_mem _ affected)

namespace Overlooked

variable (overlooked : Overlooked change)
include overlooked

theorem has {key : String} (seen : key ∈ "columns" :: affectedKeys) (fs : Fields) :
    Entries.has (change fs) key = Entries.has fs key := by
  rw [Entries.has, Entries.has, overlooked.get? key seen]

theorem axis {key : String} (seen : key ∈ "columns" :: affectedKeys) (fs : Fields) (name : String) :
    axis (change fs) key name = axis fs key name := by
  rw [Document.axis, Document.axis, overlooked.get? key seen]

theorem firstPresent (seen : ∀ a ∈ as, name a ∈ affectedKeys) (fs : Fields) :
    firstPresent (change fs) name as = firstPresent fs name as :=
  firstPresent_congr fun a member => overlooked.get? _ (List.mem_cons_of_mem _ (seen a member)) fs

theorem isTable (fs : Fields) : isTable (change fs) = isTable fs := by
  rw [Document.isTable, Document.isTable, overlooked.get? "columns" (by decide),
    overlooked.has (by decide)]

theorem rewriteOf (fs : Fields) : rewriteOf (change fs) = rewriteOf fs := by
  simp only [Document.rewriteOf, chartOf, overlooked.isTable,
    overlooked.has (by decide : "type" ∈ "columns" :: affectedKeys),
    overlooked.axis (by decide : "x" ∈ "columns" :: affectedKeys),
    overlooked.axis (by decide : "y" ∈ "columns" :: affectedKeys),
    overlooked.firstPresent (by decide : ∀ tag ∈ headingTags, id tag ∈ affectedKeys),
    overlooked.firstPresent (by decide : ∀ c ∈ chartTypes, c.1 ∈ affectedKeys)]

theorem eraseAll (affected : ∀ key ∈ gone, key ∈ affectedKeys) (fs : Fields) :
    Entries.eraseAll (change fs) gone = change (Entries.eraseAll fs gone) := by
  induction gone generalizing fs with
  | nil => rfl
  | cons key gone ih =>
    obtain ⟨first, rest⟩ := List.forall_mem_cons.mp affected
    rw [Entries.eraseAll, List.foldl_cons, overlooked.erase key first]
    exact ih rest _

theorem merge (affected : ∀ f ∈ written, f.1 ∈ affectedKeys) (fs : Fields) :
    Entries.merge (change fs) written = change (Entries.merge fs written) := by
  induction written generalizing fs with
  | nil => rfl
  | cons f written ih =>
    obtain ⟨first, rest⟩ := List.forall_mem_cons.mp affected
    rw [Entries.merge, List.foldl_cons, overlooked.put _ first]
    exact ih rest _

/-- Fields are expanded before the change or after it. -/
theorem expand (fs : Fields) : expand (change fs) = change (expand fs) := by
  obtain ⟨gone, written⟩ := (rule_rewriteOf fs).affected
  rw [expand_eq, expand_eq, overlooked.rewriteOf, overlooked.eraseAll gone, overlooked.merge written]

end Overlooked

end overlooked

end ViewCompiler.Document
