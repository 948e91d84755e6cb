import FleetCache.Traced
/-!
Work that changes a state. It leaves a trace, ends with a result or a fault, and either way leaves behind
the state as far as it came. A fault ends the work after it but undoes nothing.
-/
set_option autoImplicit false

namespace FleetCache

def Change (σ α : Type) : Type := σ → Traced α × σ

namespace Change

variable {σ α β : Type}

protected def pure (a : α) : Change σ α :=
  fun state => (pure a, state)

protected def bind (x : Change σ α) (f : α → Change σ β) : Change σ β := fun state =>
  let (first, between) := x state
  match first.result with
  | .error fault => (⟨.error fault, first.events⟩, between)
  | .ok a =>
    let (second, after) := f a between
    (⟨second.result, first.events ++ second.events⟩, after)

instance : Monad (Change σ) where
  pure := Change.pure
  bind := Change.bind

def run (x : Change σ α) (state : σ) : Traced (α × σ) :=
  let (done, after) := x state
  (fun a => (a, after)) <$> done

def ask (f : σ → Traced α) : Change σ α :=
  fun state => (f state, state)

def update (f : σ → σ) : Change σ Unit :=
  fun state => (pure (), f state)

def rescue (x : Change σ α) (handler : Fault → Change σ α) : Change σ α := fun state =>
  let (first, between) := x state
  match first.result with
  | .ok _ => (first, between)
  | .error fault =>
    let (second, after) := handler fault between
    (⟨second.result, first.events ++ second.events⟩, after)

def within {τ : Type} (get : τ → σ) (set : σ → τ → τ) (x : Change σ α) : Change τ α := fun state =>
  let (done, after) := x (get state)
  (done, set after state)

instance : MonadLift Traced (Change σ) where
  monadLift x := ask (fun _ => x)

instance : MonadLift (Except Fault) (Change σ) where
  monadLift x := ask (fun _ => Traced.ofExcept x)

theorem bind_of_ok {x : Change σ α} {state between : σ} {a : α} {events : List Event}
    (h : x state = (⟨.ok a, events⟩, between)) (f : α → Change σ β) :
    (x >>= f) state =
      (⟨(f a between).1.result, events ++ (f a between).1.events⟩, (f a between).2) := by
  change Change.bind x f state = _
  rw [Change.bind, h]

theorem bind_of_pure {x : Change σ α} {state between : σ} {a : α} (h : x state = (pure a, between))
    (f : α → Change σ β) : (x >>= f) state = f a between :=
  bind_of_ok h f

end Change

end FleetCache
