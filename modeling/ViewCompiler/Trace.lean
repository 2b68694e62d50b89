import ViewCompiler.Diagnostic

/-! Computations that leave events behind: diagnostics and log records, in the order in which they
occur. What happened before a fault stays on record. -/
namespace ViewCompiler

inductive Level where
  | debug | info | warning
  deriving DecidableEq, Repr

namespace Level

def name : Level → String
  | .debug => "DEBUG"
  | .info => "INFO"
  | .warning => "WARNING"

def rank : Level → Nat
  | .debug => 0
  | .info => 1
  | .warning => 2

end Level

inductive Speaker where
  | parser | resolver | pipeline
  deriving DecidableEq, Repr

def Speaker.name : Speaker → String
  | .parser => "viewdsl.parser"
  | .resolver => "viewdsl.resolver"
  | .pipeline => "viewdsl.pipeline"

structure LogRecord where
  level : Level
  speaker : Speaker
  message : String

inductive Event where
  | found (d : Diagnostic)
  | logged (r : LogRecord)

structure Traced (α : Type) where
  events : List Event
  result : Except Fault α

namespace Traced

instance : Monad Traced where
  pure a := ⟨[], .ok a⟩
  bind x f :=
    match x.result with
    | .ok a =>
      let y := f a
      ⟨x.events ++ y.events, y.result⟩
    | .error fault => ⟨x.events, .error fault⟩

def ofExcept (x : Except Fault α) : Traced α := ⟨[], x⟩

def fail (fault : Fault) : Traced α := ⟨[], .error fault⟩

def emit (events : List Event) : Traced Unit := ⟨events, .ok ()⟩

def log (level : Level) (speaker : Speaker) (message : String) : Traced Unit :=
  emit [.logged ⟨level, speaker, message⟩]

def diagnose (ds : List Diagnostic) : Traced Unit := emit (ds.map .found)

def diagnostics (x : Traced α) : List Diagnostic :=
  x.events.filterMap fun
    | .found d => some d
    | .logged _ => none

/-- The records of a level or above. -/
def records (x : Traced α) (level : Level) : List LogRecord :=
  x.events.filterMap fun
    | .logged r => if level.rank ≤ r.level.rank then some r else none
    | .found _ => none

def report (h : Head) (code : Code) (message : String) : Traced Unit := do
  let place ← ofExcept h.place
  diagnose [Diagnostic.make .error code message place]

@[simp] theorem events_pure (a : α) : (pure a : Traced α).events = [] := rfl
@[simp] theorem result_pure (a : α) : (pure a : Traced α).result = .ok a := rfl

theorem map_id (x : Traced α) : id <$> x = x := by
  obtain ⟨events, result⟩ := x
  cases result
  · rfl
  · simp [Functor.map]

theorem bind_assoc (x : Traced α) (f : α → Traced β) (g : β → Traced γ) :
    x >>= f >>= g = x >>= fun a => f a >>= g := by
  obtain ⟨events, result⟩ := x
  cases result with
  | error fault => rfl
  | ok a => simp only [bind]; cases (f a).result <;> simp

instance : LawfulMonad Traced :=
  LawfulMonad.mk' Traced map_id (fun a f => by simp [bind, pure]) bind_assoc

end Traced
end ViewCompiler
