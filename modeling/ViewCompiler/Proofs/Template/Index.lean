import Mathlib.Data.List.Find
import ViewCompiler.Proofs.Entries
import ViewCompiler.Proofs.Trace.Success
import ViewCompiler.Proofs.Value.Equality
import ViewCompiler.Template.Index

/-! What the index of partials holds. Under a key stands the partial that came last with it, whatever
the slugs of other keys are. Under a slug that is no key stands the first partial that has it. So a
name and its slug lead to one partial unless the name is given to several. -/
namespace ViewCompiler.PartialIndex

variable {index next : PartialIndex} {key : Value} {p : Partial} {es : Entries String Partial}
  {entries : List (Value × Partial)}

def record (index : PartialIndex) (e : String × Partial) : PartialIndex :=
  (Entries.put index e.1 e.2).putNew (slug e.1) e.2

def ofNamed (es : Entries String Partial) : PartialIndex := es.foldl record []

def given (es : Entries String Partial) : List (Value × Partial) := es.map fun e => (.str e.1, e.2)

theorem add_eq_ok : add index key p = .ok next ↔
    ∃ name, key = .str name ∧ next = record index (name, p) := by
  constructor
  · intro added
    obtain ⟨k, known, made⟩ := Except.bind_eq_ok.mp added
    cases k with
    | text name => exact ⟨name, Value.key_eq_text.mp known, (Except.pure_eq_ok.mp made).symm⟩
    | null | int | float => cases made
  · rintro ⟨name, rfl, rfl⟩
    rfl

/-- Only texts are keys. -/
theorem foldlM_add_eq_ok {start : PartialIndex} :
    entries.foldlM (fun index e => add index e.1 e.2) start = .ok index ↔
      ∃ es, entries = given es ∧ index = es.foldl record start := by
  induction entries generalizing start with
  | nil =>
    constructor
    · intro done
      exact ⟨[], rfl, (Except.pure_eq_ok.mp done).symm⟩
    · rintro ⟨es, same, rfl⟩
      obtain rfl := List.map_eq_nil_iff.mp same.symm
      rfl
  | cons e entries ih =>
    obtain ⟨key, p⟩ := e
    rw [List.foldlM_cons, Except.bind_eq_ok]
    constructor
    · rintro ⟨next, added, rest⟩
      obtain ⟨name, rfl, rfl⟩ := add_eq_ok.mp added
      obtain ⟨es, rfl, rfl⟩ := ih.mp rest
      exact ⟨(name, p) :: es, rfl, rfl⟩
    · rintro ⟨es, same, rfl⟩
      obtain ⟨⟨name, q⟩, fs, rfl, first, rfl⟩ := List.map_eq_cons_iff.mp same.symm
      cases first
      exact ⟨record start (name, q), add_eq_ok.mpr ⟨name, rfl, rfl⟩, ih.mpr ⟨fs, rfl, rfl⟩⟩

theorem ofEntries_eq_ok : ofEntries entries = .ok index ↔
    ∃ es, entries = given es ∧ index = ofNamed es :=
  foldlM_add_eq_ok

theorem ofEntries_given (es : Entries String Partial) : ofEntries (given es) = .ok (ofNamed es) :=
  ofEntries_eq_ok.mpr ⟨es, rfl, rfl⟩

theorem ofNamed_concat (es : Entries String Partial) (e : String × Partial) :
    ofNamed (es ++ [e]) = record (ofNamed es) e :=
  List.foldl_concat record [] e es

section lookups

theorem get?_record (index : PartialIndex) (e : String × Partial) (k : String) :
    Entries.get? (record index e) k =
      (if e.1 = k then some e.2 else Entries.get? index k).or
        (if slug e.1 = k then some e.2 else none) := by
  rw [record, Entries.get?_putNew, Entries.get?_put]

/-- The last partial with the key, or else the first whose key has it as its slug. -/
theorem get?_ofNamed (es : Entries String Partial) (k : String) : Entries.get? (ofNamed es) k =
    (Entries.get? es.reverse k).or ((es.find? fun e => slug e.1 = k).map (·.2)) := by
  induction es using List.reverseRecOn with
  | nil => rfl
  | append_singleton es e ih =>
    have aliased : ((es ++ [e]).find? fun e => slug e.1 = k).map (·.2) =
        ((es.find? fun e => slug e.1 = k).map (·.2)).or (if slug e.1 = k then some e.2 else none) := by
      rw [List.find?_append, List.find?_singleton, Option.map_or]
      split <;> simp_all
    rw [ofNamed_concat, get?_record, ih, aliased, List.reverse_concat, Entries.get?]
    split
    · rw [Option.some_or, Option.some_or]
    · rw [Option.or_assoc]

theorem get?_ofNamed_of_not_mem {k : String} (fresh : k ∉ Entries.keys es) :
    Entries.get? (ofNamed es) k = (es.find? fun e => slug e.1 = k).map (·.2) := by
  have unwritten : k ∉ Entries.keys es.reverse := by simpa [Entries.keys] using fresh
  rw [get?_ofNamed, Entries.get?_eq_none unwritten, Option.none_or]

theorem exists_get?_of_mem {k : String} (written : k ∈ Entries.keys es) :
    ∃ p, Entries.get? es.reverse k = some p ∧ Entries.get? (ofNamed es) k = some p := by
  have known : k ∈ Entries.keys es.reverse := by simpa [Entries.keys] using written
  obtain ⟨p, found⟩ := Option.isSome_iff_exists.mp (Entries.mem_keys.mp known)
  exact ⟨p, found, by rw [get?_ofNamed, found, Option.some_or]⟩

/-- The keys stand in the order in which they and their slugs came up. -/
theorem keys_ofNamed (es : Entries String Partial) : Entries.keys (ofNamed es) =
    ((Entries.keys es).flatMap fun k => [k, slug k]).eraseDups := by
  induction es using List.reverseRecOn with
  | nil => rfl
  | append_singleton es e ih =>
    have listed : (Entries.keys (es ++ [e])).flatMap (fun k => [k, slug k]) =
        (Entries.keys es).flatMap (fun k => [k, slug k]) ++ [e.1] ++ [slug e.1] := by
      simp [Entries.keys]
    rw [ofNamed_concat, record, Entries.keys_putNew, Entries.keys_put, ih, listed,
      Entries.eraseDups_concat, Entries.eraseDups_concat]

theorem mem_keys_ofNamed {k : String} : k ∈ Entries.keys (ofNamed es) ↔
    ∃ j ∈ Entries.keys es, k = j ∨ k = slug j := by
  simp [keys_ofNamed]

end lookups

section mappings

/-- A mapping gives every key once. The index then has the keys and their slugs and nothing else. Each
key leads to its own partial, in whatever order the mapping is written, and a slug that is no key
leads to the partial of the first key that has it. -/
theorem lookups_of_distinct (distinct : (Entries.keys es).Nodup) :
    ∃ index, ofEntries (given es) = .ok index ∧ (Entries.keys index).Nodup ∧
      (∀ k, k ∈ Entries.keys index ↔ ∃ j ∈ Entries.keys es, k = j ∨ k = slug j) ∧
      (∀ e ∈ es, Entries.get? index e.1 = some e.2) ∧
      (∀ k, k ∉ Entries.keys es →
        Entries.get? index k = (es.find? fun e => slug e.1 = k).map (·.2)) ∧
      ∀ fs, fs.Perm es → ∃ moved, ofEntries (given fs) = .ok moved ∧
        (∀ k, k ∈ Entries.keys moved ↔ k ∈ Entries.keys index) ∧
        ∀ k ∈ Entries.keys es, Entries.get? moved k = Entries.get? index k := by
  have own {fs : Entries String Partial} (perm : fs.Perm es) :
      ∀ k ∈ Entries.keys es, Entries.get? (ofNamed fs) k = Entries.get? es k := by
    intro k member
    have written : k ∈ Entries.keys fs := (perm.map Prod.fst).mem_iff.mpr member
    obtain ⟨p, last, found⟩ := exists_get?_of_mem written
    rw [found, ← last]
    exact (Entries.get?_of_perm (perm.symm.trans fs.reverse_perm.symm) distinct k).symm
  refine ⟨ofNamed es, ofEntries_given es, ?_, fun k => mem_keys_ofNamed, fun e member => ?_,
    fun k => get?_ofNamed_of_not_mem, fun fs perm => ⟨ofNamed fs, ofEntries_given fs, ?_, ?_⟩⟩
  · rw [keys_ofNamed]
    exact Entries.nodup_eraseDups _
  · rw [own (.refl es) e.1 (List.mem_map_of_mem member)]
    exact (Entries.get?_eq_some_iff distinct).mpr member
  · have same (k : String) : k ∈ Entries.keys fs ↔ k ∈ Entries.keys es :=
      (perm.map Prod.fst).mem_iff
    simp only [mem_keys_ofNamed, same, implies_true]
  · intro k member
    exact (own perm k member).trans (own (.refl es) k member).symm

def oldCard : Partial := { name := .str "UserCard", template := .slot { name := .str "old" } }

def banner : Partial := { name := .str "HeroBanner", template := .slot { name := .str "hero" } }

def newCard : Partial := { name := .str "UserCard", template := .slot { name := .str "new" } }

theorem slug_userCard : slug "UserCard" = "user-card" := by decide +kernel

theorem slug_heroBanner : slug "HeroBanner" = "hero-banner" := by decide +kernel

/-- One key is the slug of another, and two more have one slug. -/
def cards : Entries String Partial :=
  [("UserCard", oldCard), ("user-card", newCard), ("HeroBanner", banner), ("hero banner", oldCard)]

/-- The key that is also a slug leads to its own card, wherever it stands; the slug that two keys share
leads to the partial of the first. -/
theorem lookups_of_distinct_cards : ∃ index moved, ofEntries (given cards) = .ok index ∧
    ofEntries (given cards.reverse) = .ok moved ∧
    Entries.get? index "user-card" = some newCard ∧
    Entries.get? moved "user-card" = some newCard ∧
    Entries.get? index (slug "hero banner") = some banner := by
  have distinct : (Entries.keys cards).Nodup := by decide
  have shared : slug "hero banner" = "hero-banner" := by decide +kernel
  have plain : slug "user-card" = "user-card" := by decide +kernel
  obtain ⟨index, listed, -, -, own, aliased, turned⟩ := lookups_of_distinct distinct
  obtain ⟨moved, again, -, same⟩ := turned cards.reverse cards.reverse_perm
  have card := own ("user-card", newCard) (by simp [cards])
  refine ⟨index, moved, listed, again, card, (same _ (by decide)).trans card, ?_⟩
  rw [shared, aliased _ (by decide)]
  simp [cards, slug_userCard, plain, slug_heroBanner]

end mappings

section lists

def byName (ps : List Partial) : Entries String Partial := ps.map fun p => (p.name.text, p)

/-- The name is given, and its slug is no name, nor the slug of another. -/
structure OwnsSlug (names : List Value) (name : String) : Prop where
  named : .str name ∈ names
  free : .str (slug name) ∉ names
  sole : ∀ other, .str other ∈ names → slug other = slug name → other = name

variable {ps : List Partial}

theorem text_eq_iff {v : Value} (named : ∃ name, v = .str name) {k : String} :
    v.text = k ↔ v = .str k := by
  obtain ⟨name, rfl⟩ := named
  simp [Value.text]

theorem given_byName (named : ∀ p ∈ ps, ∃ name, p.name = .str name) :
    given (byName ps) = ps.map fun p => (p.name, p) := by
  rw [given, byName, List.map_map]
  refine List.map_congr_left fun p member => ?_
  obtain ⟨name, text⟩ := named p member
  simp [text, Value.text]

theorem ofList_eq (named : ∀ p ∈ ps, ∃ name, p.name = .str name) :
    ofList ps = .ok (ofNamed (byName ps)) :=
  ofEntries_eq_ok.mpr ⟨byName ps, (given_byName named).symm, rfl⟩

/-- Exactly the lists whose partials all go by texts have an index. -/
theorem exists_ofList_iff :
    (∃ index, ofList ps = .ok index) ↔ ∀ p ∈ ps, ∃ name, p.name = .str name := by
  constructor
  · rintro ⟨index, listed⟩ p member
    obtain ⟨es, same, -⟩ := ofEntries_eq_ok.mp listed
    have inside : (p.name, p) ∈ given es := same ▸ List.mem_map_of_mem member
    obtain ⟨e, -, found⟩ := List.mem_map.mp inside
    exact ⟨e.1, (congrArg Prod.fst found).symm⟩
  · intro named
    exact ⟨_, ofList_eq named⟩

theorem get?_byName (named : ∀ p ∈ ps, ∃ name, p.name = .str name) (k : String) :
    Entries.get? (byName ps) k = ps.find? (·.name.isText k) := by
  rw [Entries.get?_eq_find?, byName, List.find?_map, Option.map_map]
  change Option.map id (ps.find? fun p => decide (p.name.text = k)) = _
  rw [Option.map_id]
  refine List.find?_congr fun p member => ?_
  rw [Bool.eq_iff_iff, decide_eq_true_iff, Value.isText, Value.same_str]
  exact text_eq_iff (named p member)

theorem mem_keys_byName (named : ∀ p ∈ ps, ∃ name, p.name = .str name) {k : String} :
    k ∈ Entries.keys (byName ps) ↔ .str k ∈ ps.map (·.name) := by
  rw [Entries.keys, byName, List.map_map, List.mem_map, List.mem_map]
  exact exists_congr fun p => and_congr_right fun member => text_eq_iff (named p member)

/-- Partials in a list may share a name. Then the name leads to the last of them and its slug to the
first, so they lead to one partial exactly where the first and the last are one. -/
theorem lookups_of_list (ps : List Partial) :
    ((∃ index, ofList ps = .ok index) ↔ ∀ p ∈ ps, ∃ name, p.name = .str name) ∧
    ∀ index, ofList ps = .ok index → ∀ name, OwnsSlug (ps.map (·.name)) name →
      ∃ first last, ps.find? (·.name.isText name) = some first ∧
        ps.reverse.find? (·.name.isText name) = some last ∧
        Entries.get? index (slug name) = some first ∧ Entries.get? index name = some last ∧
        (Entries.get? index name = Entries.get? index (slug name) ↔ first = last) := by
  refine ⟨exists_ofList_iff, fun index listed name own => ?_⟩
  have named := exists_ofList_iff.mp ⟨index, listed⟩
  obtain rfl := Except.ok.inj ((ofList_eq named).symm.trans listed)
  have written := (mem_keys_byName named).mpr own.named
  have fresh := mt (mem_keys_byName named).mp own.free
  have turned : (byName ps).reverse = byName ps.reverse := List.map_reverse.symm
  have aliased : Entries.get? (ofNamed (byName ps)) (slug name) =
      Entries.get? (byName ps) name := by
    rw [get?_ofNamed_of_not_mem fresh, Entries.get?_eq_find?]
    refine congrArg _ (List.find?_congr fun e member => decide_eq_decide.mpr ?_)
    have other := (mem_keys_byName named).mp (List.mem_map_of_mem member)
    exact ⟨own.sole e.1 other, congrArg slug⟩
  obtain ⟨first, early⟩ := Option.isSome_iff_exists.mp (Entries.mem_keys.mp written)
  obtain ⟨last, late, found⟩ := exists_get?_of_mem written
  refine ⟨first, last, ?_, ?_, aliased.trans early, found, ?_⟩
  · rw [← get?_byName named, early]
  · rw [← get?_byName (by simpa using named), ← turned, late]
  · rw [aliased, early, found, Option.some_inj, eq_comm]

/-- The banner goes by its name and by the slug of it; of the cards, the new one goes by the name and
the old one by the slug. -/
theorem lookups_of_list_cards : ∃ index, ofList [oldCard, banner, newCard] = .ok index ∧
    Entries.get? index "UserCard" = some newCard ∧
    Entries.get? index (slug "UserCard") = some oldCard ∧
    Entries.get? index "HeroBanner" = Entries.get? index (slug "HeroBanner") := by
  have apart (name : String) (member : .str name ∈ [oldCard, banner, newCard].map (·.name)) :
      name = "UserCard" ∨ name = "HeroBanner" := by
    simpa [oldCard, banner, newCard, or_comm, or_left_comm] using member
  have own (name : String) (listed : name = "UserCard" ∨ name = "HeroBanner") :
      OwnsSlug ([oldCard, banner, newCard].map (·.name)) name := by
    refine ⟨?_, fun aliased => ?_, fun other member same => ?_⟩
    · rcases listed with rfl | rfl <;> simp [oldCard, banner]
    · have absurd := apart _ aliased
      rcases listed with rfl | rfl <;> simp [slug_userCard, slug_heroBanner] at absurd
    · have others := apart other member
      rcases listed with rfl | rfl <;> rcases others with rfl | rfl <;>
        simp [slug_userCard, slug_heroBanner] at same ⊢
  obtain ⟨total, lookups⟩ := lookups_of_list [oldCard, banner, newCard]
  obtain ⟨index, listed⟩ := total.mpr (by simp [oldCard, banner, newCard])
  obtain ⟨first, last, early, late, aliased, named, -⟩ := lookups index listed _ (own _ (.inl rfl))
  obtain ⟨first', last', early', late', -, -, same⟩ := lookups index listed _ (own _ (.inr rfl))
  cases early
  cases late
  cases early'
  cases late'
  exact ⟨index, listed, named, aliased, same.mpr rfl⟩

/-- Of two partials with one name, the name leads to the second and its slug to the first. -/
theorem stale_slug : ∃ index, ofList [oldCard, newCard] = .ok index ∧
    OwnsSlug ([oldCard, newCard].map (·.name)) "UserCard" ∧
    Entries.get? index "UserCard" ≠ Entries.get? index (slug "UserCard") := by
  have named : ∀ p ∈ [oldCard, newCard], ∃ name, p.name = .str name := by simp [oldCard, newCard]
  have own : OwnsSlug ([oldCard, newCard].map (·.name)) "UserCard" := by
    refine ⟨by simp [oldCard], ?_, fun other member _ => ?_⟩
    · simp [oldCard, newCard, slug_userCard]
    · simpa [oldCard, newCard] using member
  refine ⟨_, ofList_eq named, own, ?_⟩
  simp [get?_ofNamed, byName, oldCard, newCard, Value.text, Entries.get?, slug_userCard]

end lists

end ViewCompiler.PartialIndex
