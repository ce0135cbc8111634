import Replay.Failure

namespace Replay

/-- An action on states of type `σ`. -/
def Action (σ α : Type) : Type := σ → Except Failure α × σ

namespace Action

variable {σ τ α β : Type}

def pure (x : α) : Action σ α := fun s => (.ok x, s)

def fail (e : Failure) : Action σ α := fun s => (.error e, s)

/-- The second action runs only if the first one succeeds. -/
def bind (a : Action σ α) (f : α → Action σ β) : Action σ β := fun s =>
  match a s with
  | (.ok x, s) => f x s
  | (.error e, s) => (.error e, s)

instance : Monad (Action σ) where
  pure := Action.pure
  bind := Action.bind

def ofExcept (r : Except Failure α) : Action σ α := fun s => (r, s)

/-- Runs an action and gives its outcome, without failing. -/
def attempt (a : Action σ α) : Action σ (Except Failure α) := fun s =>
  match a s with
  | (r, s) => (.ok r, s)

def read (f : σ → α) : Action σ α := fun s => (.ok (f s), s)

def change (f : σ → σ) : Action σ Unit := fun s => (.ok (), f s)

/-- Runs an action on a part of a larger state. -/
def lift (get : τ → σ) (set : σ → τ → τ) (a : Action σ α) : Action τ α := fun t =>
  match a (get t) with
  | (r, s) => (r, set s t)

@[simp] theorem pure_apply (x : α) (s : σ) : (Pure.pure x : Action σ α) s = (.ok x, s) := rfl

@[simp] theorem fail_apply (e : Failure) (s : σ) : (fail e : Action σ α) s = (.error e, s) := rfl

theorem bind_apply (a : Action σ α) (f : α → Action σ β) (s : σ) :
    (a >>= f) s = match a s with
      | (.ok x, s) => f x s
      | (.error e, s) => (.error e, s) := rfl

theorem bind_ok {a : Action σ α} {x : α} {s t : σ} (f : α → Action σ β) (h : a s = (.ok x, t)) :
    (a >>= f) s = f x t := by rw [bind_apply, h]

theorem bind_error {a : Action σ α} {e : Failure} {s t : σ} (f : α → Action σ β)
    (h : a s = (.error e, t)) : (a >>= f) s = (.error e, t) := by rw [bind_apply, h]

theorem attempt_apply (a : Action σ α) (s : σ) : attempt a s = (.ok (a s).1, (a s).2) := rfl

theorem map_apply (f : α → β) (a : Action σ α) (s : σ) :
    (f <$> a) s = ((a s).1.map f, (a s).2) := by
  show (a >>= fun x => Pure.pure (f x)) s = _
  rw [bind_apply]
  cases a s with
  | mk r t => cases r <;> rfl

end Action

end Replay
