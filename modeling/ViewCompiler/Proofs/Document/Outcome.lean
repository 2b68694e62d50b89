import ViewCompiler.Document.Page
import ViewCompiler.Proofs.Trace.Success

/-! What becomes of a page document: it is refused, or stuck, or parsed. A document is stuck if it
has all that a page needs, and the parameters of its loader can be neither listed nor left out. -/
namespace ViewCompiler

/-- The value counts as true and has no members: a number other than zero, or true itself. -/
def Value.isUnlistable : Value → Bool
  | .bool b => b
  | .int n => n != 0
  | .float x => ! x.isZero
  | .null | .str _ | .list _ | .dict _ => false

/-- Whatever counts as false is listed as nothing. -/
theorem Value.members_orElse (v : Value) :
    (v.isUnlistable ∧ (v.orElse (.list [])).members = .error .notSequence) ∨
      (v.isUnlistable = false ∧ ∃ items, (v.orElse (.list [])).members = .ok items) := by
  cases counts : v.truthy with
  | false =>
    have plain : v.isUnlistable = false := by
      cases v with
      | null | str | list | dict => rfl
      | bool | int | float => exact counts
    exact .inr ⟨plain, [], by rw [orElse, counts]; rfl⟩
  | true =>
    have itself : v.orElse (.list []) = v := by rw [orElse, counts]; rfl
    rw [itself]
    cases v with
    | bool | int | float => exact .inl ⟨counts, rfl⟩
    | str | list | dict => exact .inr ⟨rfl, _, rfl⟩
    | null => cases counts

namespace Document

/-- The document is no mapping, or a required key is absent or null. -/
def isRefused : Value → Bool
  | .dict fs => requiredKeys.any fun key => (Fields.getD fs key).isNull
  | _ => true

/-- The document has a loader whose parameters can be neither listed nor left out. -/
def hasBadLoader : Value → Bool
  | .dict fs =>
    match Fields.getD fs "loader" with
    | .dict loader => (Fields.getD loader "params").isUnlistable
    | _ => false
  | _ => false

def isStuck (raw : Value) : Bool := ! isRefused raw && hasBadLoader raw

variable {file raw : Value}

theorem pageFields_cases (file raw : Value) :
    (isRefused raw ∧ ∃ flaw, pageFields file raw = .error (.badDocument ⟨file, flaw⟩)) ∨
      (isRefused raw = false ∧ ∃ fs, raw = .dict fs ∧ pageFields file raw = .ok fs) := by
  cases raw with
  | dict fs =>
    have missing : (requiredKeys.filter fun key => (Fields.getD fs key).isNull).isEmpty =
        ! isRefused (.dict fs) := by
      rw [isRefused, List.not_any_eq_all_not, Bool.eq_iff_iff]
      simp
    cases refused : isRefused (.dict fs) with
    | true =>
      rw [refused] at missing
      exact .inl ⟨rfl, _, by rw [pageFields]; simp only [missing]; rfl⟩
    | false =>
      rw [refused] at missing
      exact .inr ⟨rfl, fs, rfl, by rw [pageFields]; simp only [missing]; rfl⟩
  | null | bool | int | float | str | list => exact .inl ⟨rfl, _, rfl⟩

/-- A loader is read unless its parameters are in the way. -/
theorem loaderOf_cases (fs : Fields) :
    (hasBadLoader (.dict fs) ∧ loaderOf (fs.getD "loader") = .error .notSequence) ∨
      (hasBadLoader (.dict fs) = false ∧ ∃ loader, loaderOf (fs.getD "loader") = .ok loader) := by
  rw [hasBadLoader]
  cases fs.getD "loader" with
  | dict loader =>
    rcases Value.members_orElse (Fields.getD loader "params") with
      ⟨bad, fails⟩ | ⟨good, items, listed⟩
    · exact .inl ⟨bad, by rw [loaderOf, fails]; rfl⟩
    · exact .inr ⟨good, _, by rw [loaderOf, listed]; rfl⟩
  | null | bool | int | float | str | list => exact .inr ⟨rfl, _, rfl⟩

/-- A document is refused for a flaw of its own, or it is stuck, or it becomes a page. -/
theorem parsePage_cases (file raw : Value) :
    (isRefused raw ∧ isStuck raw = false ∧
        ∃ flaw, parsePage file raw = .error (.badDocument ⟨file, flaw⟩)) ∨
      (isRefused raw = false ∧ isStuck raw ∧ parsePage file raw = .error .notSequence) ∨
      (isRefused raw = false ∧ isStuck raw = false ∧ ∃ page, parsePage file raw = .ok page) := by
  rw [isStuck]
  rcases pageFields_cases file raw with ⟨refused, flaw, fails⟩ | ⟨whole, fs, rfl, read⟩
  · exact .inl ⟨refused, by simp [refused], flaw, by rw [parsePage, fails]; rfl⟩
  · rcases loaderOf_cases fs with ⟨bad, fails⟩ | ⟨good, loader, loaded⟩
    · exact .inr (.inl ⟨whole, by simp [whole, bad],
        by rw [parsePage, read, Except.ok_bind, fails]; rfl⟩)
    · exact .inr (.inr ⟨whole, by simp [good],
        _, by rw [parsePage, read, Except.ok_bind, loaded]; rfl⟩)

end Document
end ViewCompiler
