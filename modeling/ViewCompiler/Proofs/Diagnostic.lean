import ViewCompiler.Proofs.Resolve.Targets

/-! Codes and severities of diagnostics. Each is told by its name, so that a diagnostic which was
made with a code has that code and no other. -/
namespace ViewCompiler

theorem Code.name_injective {code other : Code} (same : code.name = other.name) : code = other := by
  revert same
  cases code <;> cases other <;> simp [Code.name]

namespace Diagnostic

def hasCode (code : Code) (d : Diagnostic) : Bool := d.code.isText code.name

def isAmong (codes : List Code) (d : Diagnostic) : Bool := codes.any (d.hasCode ·)

theorem hasCode_iff {code : Code} {d : Diagnostic} : d.hasCode code ↔ d.code = .str code.name := by
  rw [hasCode, Value.isText, Value.same_str]

theorem isAmong_iff {codes : List Code} {code : Code} {d : Diagnostic}
    (known : d.code = .str code.name) : d.isAmong codes ↔ code ∈ codes := by
  simp only [isAmong, List.any_eq_true, hasCode_iff, known, Value.str.injEq]
  constructor
  · rintro ⟨other, member, same⟩
    rwa [Code.name_injective same]
  · exact fun member => ⟨code, member, rfl⟩

theorem isOf_make (severity other : Severity) (code : Code) (message : String)
    (place : Location) :
    (make severity code message place).isOf other ↔ severity = other := by
  rw [isOf, Value.isText, Value.same_str, make, Value.str.injEq]
  cases severity <;> cases other <;> simp [Severity.name]

end Diagnostic
end ViewCompiler
