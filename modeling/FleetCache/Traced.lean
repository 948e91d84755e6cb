import FleetCache.Fault

set_option autoImplicit false

namespace FleetCache

inductive Level where
  | debug
  | info
  | warning
  | error
  deriving DecidableEq

def Level.name : Level → String
  | .debug => "DEBUG"
  | .info => "INFO"
  | .warning => "WARNING"
  | .error => "ERROR"

def Level.weight : Level → Nat
  | .debug => 10
  | .info => 20
  | .warning => 30
  | .error => 40

inductive Event where
  | log (level : Level) (text : String)
  | call (method : String) (arguments : Attributes)

def Event.log? : Event → Option (Level × String)
  | .log level text => some (level, text)
  | .call _ _ => none

def Event.call? : Event → Option (String × Attributes)
  | .log _ _ => none
  | .call method arguments => some (method, arguments)

/-- A result or a fault, with the trace of the work behind it. -/
structure Traced (α : Type) where
  result : Except Fault α
  events : List Event

namespace Traced

variable {α β : Type}

protected def pure (a : α) : Traced α :=
  ⟨.ok a, []⟩

protected def bind (x : Traced α) (f : α → Traced β) : Traced β :=
  match x.result with
  | .error fault => ⟨.error fault, x.events⟩
  | .ok a => ⟨(f a).result, x.events ++ (f a).events⟩

instance : Monad Traced where
  pure := Traced.pure
  bind := Traced.bind

def fail (fault : Fault) : Traced α :=
  ⟨.error fault, []⟩

def failIf (fault : Option Fault) : Traced Unit :=
  match fault with
  | some fault => fail fault
  | none => Traced.pure ()

def ofExcept (x : Except Fault α) : Traced α :=
  ⟨x, []⟩

def log (level : Level) (text : String) : Traced Unit :=
  ⟨.ok (), [.log level text]⟩

def debug (text : String) : Traced Unit := log .debug text

def info (text : String) : Traced Unit := log .info text

def warn (text : String) : Traced Unit := log .warning text

def error (text : String) : Traced Unit := log .error text

def call (method : String) (arguments : Attributes) : Traced Unit :=
  ⟨.ok (), [.call method arguments]⟩

def rescue (x : Traced α) (handler : Fault → Traced α) : Traced α :=
  match x.result with
  | .ok _ => x
  | .error fault => ⟨(handler fault).result, x.events ++ (handler fault).events⟩

def logs (x : Traced α) : List (Level × String) :=
  x.events.filterMap Event.log?

def calls (x : Traced α) : List (String × Attributes) :=
  x.events.filterMap Event.call?

instance : MonadLift (Except Fault) Traced where
  monadLift := ofExcept

@[simp] theorem pure_bind (a : α) (f : α → Traced β) : (Traced.pure a).bind f = f a := by
  simp [Traced.bind, Traced.pure]

@[simp] theorem bind_pure (x : Traced α) : x.bind Traced.pure = x := by
  obtain ⟨result, events⟩ := x
  cases result <;> simp [Traced.bind, Traced.pure]

theorem bind_assoc {γ : Type} (x : Traced α) (f : α → Traced β) (g : β → Traced γ) :
    (x.bind f).bind g = x.bind (fun a => (f a).bind g) := by
  obtain ⟨result, events⟩ := x
  cases result with
  | error fault => rfl
  | ok a =>
    cases h : (f a).result <;> simp [Traced.bind, h]

instance : LawfulMonad Traced :=
  LawfulMonad.mk' Traced bind_pure pure_bind bind_assoc

end Traced

end FleetCache
