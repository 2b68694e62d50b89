import ViewCompiler.Proofs.Build.Shares
import ViewCompiler.Proofs.Resolve.Order

/-! The order of documents. Where no two pages have one slug, a document has the same share in the
build wherever it stands. -/
namespace ViewCompiler

namespace Build

variable {documents others : Documents} {registry : Registry} {partials : List (Value × Partial)}
  {env other : Env} {file raw : Value} {share : Share} {shares : List Share}

/-- Environments that agree give a document the same share. -/
theorem Adds.of_agrees (agrees : env.Agrees other) (adds : Adds env file raw share) :
    Adds other file raw share := by
  obtain ⟨outcome, read, yields⟩ := adds
  refine ⟨outcome, read, ?_⟩
  cases yields with
  | failure => exact .failure
  | page resolved checked =>
    refine .page (agrees.gives_resolvePage resolved) ?_
    rw [agrees.registry, checked]

/-- What is reported does not depend on the order of the shares, but for the order of the
reports. -/
theorem diagnostics_ofShares_of_perm {shares' : List Share} (perm : shares.Perm shares') :
    (ofShares shares).report.diagnostics.Perm (ofShares shares').report.diagnostics :=
  ((perm.filterMap _).append (perm.flatMap_right _)).append (perm.flatMap_right _)

theorem ok_of_perm {b c : Build} (perm : b.report.diagnostics.Perm c.report.diagnostics) :
    b.ok = c.ok := by
  rw [ok, ok, Report.hasErrors, Report.hasErrors, perm.any_eq]

end Build

/-- Reordering documents whose pages have different slugs reorders the build. Every document keeps
its share, page, errors and findings alike, and the build stays ok or not. -/
theorem build_of_perm {documents others : Documents} {registry : Registry}
    {partials : List (Value × Partial)} {b : Build} (perm : documents.Perm others)
    (apart : ((Build.parsedPages documents).map Node.nameSlug).Nodup)
    (built : build documents registry partials = .ok b) :
    ∃ c, build others registry partials = .ok c ∧
      (∃ env env' shares shares', Env.of (Build.parsedPages documents) registry partials = .ok env ∧
        Env.of (Build.parsedPages others) registry partials = .ok env' ∧
        List.Forall₂ (fun d share => Build.Adds env d.1 d.2 share) documents shares ∧
        List.Forall₂ (fun d share => Build.Adds env' d.1 d.2 share) others shares' ∧
        (documents.zip shares).Perm (others.zip shares') ∧
        b = Build.ofShares shares ∧ c = Build.ofShares shares') ∧
      b.report.diagnostics.Perm c.report.diagnostics ∧ b.ok = c.ok := by
  obtain ⟨env, shares, made, adds, rfl⟩ := build_eq_ok.mp built
  have pages : (Build.parsedPages others).Perm (Build.parsedPages documents) :=
    (perm.filterMap _).symm
  obtain ⟨env', remade, agrees⟩ := Env.exists_agrees_of_perm pages apart made
  obtain ⟨shares', moved, pairs⟩ := exists_forall₂_of_perm perm adds
  have added : List.Forall₂ (fun d share => Build.Adds env' d.1 d.2 share) others shares' :=
    moved.imp fun _ _ adds => adds.of_agrees agrees
  have reordered : shares.Perm shares' := by
    have seconds := pairs.map Prod.snd
    rwa [List.map_snd_zip (Nat.le_of_eq adds.length_eq.symm),
      List.map_snd_zip (Nat.le_of_eq moved.length_eq.symm)] at seconds
  have reported := Build.diagnostics_ofShares_of_perm reordered
  exact ⟨Build.ofShares shares', build_eq_ok.mpr ⟨env', shares', remade, added, rfl⟩,
    ⟨env, env', shares, shares', made, remade, adds, added, pairs, rfl, rfl⟩, reported,
    Build.ok_of_perm reported⟩

/-- A page that takes over a section with a widget of unknown type. -/
def homeDocument : Value × Value :=
  (.str "home.yaml", .dict [
    ("name", .str "Home"), ("type", .str "page"), ("route", .str "/"),
    ("sections", .list [.dict [("$ref", .str "List#items")]])])

def itemsDocument : Value × Value :=
  (.str "list.yaml", .dict [
    ("name", .str "List"), ("type", .str "page"), ("route", .str "/list"),
    ("sections", .list [.dict [
      ("name", .str "items"), ("widgets", .list [.dict [("type", .str "rows")]])]])])

theorem build_of_perm_items :
    ∃ b c, build [homeDocument, itemsDocument] {} [] = .ok b ∧
      build [itemsDocument, homeDocument] {} [] = .ok c ∧ b.report.diagnostics.length = 4 ∧
      b.report.diagnostics.Perm c.report.diagnostics ∧ b.ok = c.ok := by
  have count : (build [homeDocument, itemsDocument] {} []).toOption.map
      (·.report.diagnostics.length) = some 4 := by
    decide +kernel
  have slugs : (Build.parsedPages [homeDocument, itemsDocument]).map Node.nameSlug =
      [.ok "home", .ok "list"] := rfl
  obtain ⟨b, built, length⟩ := Except.exists_of_toOption_map count
  obtain ⟨c, rebuilt, -, reported, same⟩ := build_of_perm (.swap itemsDocument homeDocument [])
    (by rw [slugs]; simp) built
  exact ⟨b, c, built, rebuilt, length, reported, same⟩

end ViewCompiler
