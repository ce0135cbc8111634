import Mathlib.Data.List.Forall2
import Replay.Action

namespace Replay

variable {σ τ ε α β : Type}

theorem bind_eq_ok_iff {x : Except ε α} {f : α → Except ε β} {b : β} :
    (x >>= f) = .ok b ↔ ∃ a, x = .ok a ∧ f a = .ok b := by
  cases x with
  | error e => simp [bind, Except.bind]
  | ok a => simp [bind, Except.bind]

theorem bind_eq_error_iff {x : Except ε α} {f : α → Except ε β} {e : ε} :
    (x >>= f) = .error e ↔ x = .error e ∨ ∃ a, x = .ok a ∧ f a = .error e := by
  cases x with
  | error e' => simp [bind, Except.bind]
  | ok a => simp [bind, Except.bind]

theorem map_eq_ok_iff {x : Except ε α} {f : α → β} {b : β} :
    x.map f = .ok b ↔ ∃ a, x = .ok a ∧ f a = b := by
  cases x with
  | error e => simp [Except.map]
  | ok a => simp [Except.map]

theorem map_eq_error_iff {x : Except ε α} {f : α → β} {e : ε} :
    x.map f = .error e ↔ x = .error e := by
  cases x with
  | error e' => simp [Except.map]
  | ok a => simp [Except.map]

theorem mapError_eq_ok_iff {δ : Type} {x : Except ε α} {f : ε → δ} {a : α} :
    x.mapError f = .ok a ↔ x = .ok a := by
  cases x with
  | error e => simp [Except.mapError]
  | ok a => simp [Except.mapError]

theorem toOption_eq_some_iff {x : Except ε α} {a : α} : x.toOption = some a ↔ x = .ok a := by
  cases x with
  | error e => simp [Except.toOption]
  | ok b => simp [Except.toOption]

theorem mapM_eq_ok_iff {f : α → Except ε β} {xs : List α} {ys : List β} :
    xs.mapM f = .ok ys ↔ List.Forall₂ (fun x y => f x = .ok y) xs ys := by
  induction xs generalizing ys with
  | nil => cases ys <;> simp [pure, Except.pure]
  | cons x xs ih =>
    cases ys with
    | nil => simp [bind_eq_ok_iff, pure, Except.pure]
    | cons y ys => simp [bind_eq_ok_iff, pure, Except.pure, ih]

namespace Action

/-- Two actions one after the other succeed if both do. -/
theorem bind_eq_ok_iff {a : Action σ α} {f : α → Action σ β} {s u : σ} {y : β} :
    (a >>= f) s = (.ok y, u) ↔ ∃ x t, a s = (.ok x, t) ∧ f x t = (.ok y, u) := by
  rw [Action.bind_apply]
  cases a s with
  | mk r t => cases r <;> simp

/-- Two actions one after the other fail if the first one does, or else the second one. -/
theorem bind_eq_error_iff {a : Action σ α} {f : α → Action σ β} {s u : σ} {e : Failure} :
    (a >>= f) s = (.error e, u) ↔
      a s = (.error e, u) ∨ ∃ x t, a s = (.ok x, t) ∧ f x t = (.error e, u) := by
  rw [Action.bind_apply]
  cases a s with
  | mk r t => cases r <;> simp

theorem bind_assoc {γ : Type} (a : Action σ α) (f : α → Action σ β) (g : β → Action σ γ) :
    ((a >>= f) >>= g) = a >>= fun x => f x >>= g := by
  funext s
  simp only [Action.bind_apply]
  cases a s with
  | mk r t => cases r <;> rfl

/-- A failure of the first action is one of both. -/
theorem fst_bind_of_error {a : Action σ α} (f : α → Action σ β) {s : σ} {e : Failure}
    (h : (a s).1 = .error e) : ((a >>= f) s).1 = .error e := by
  rw [Action.bind_apply]
  cases ha : a s with
  | mk r t =>
    rw [ha] at h
    subst h
    rfl

/-- An action on a larger state that gives and does, in a part of it, what another action does. -/
def Follows (part : τ → σ) (b : Action τ α) (a : Action σ α) : Prop :=
  ∀ t, (b t).1 = (a (part t)).1 ∧ part (b t).2 = (a (part t)).2

namespace Follows

variable {part : τ → σ}

theorem pure (x : α) : Follows part (Pure.pure x) (Pure.pure x) := fun _ => ⟨rfl, rfl⟩

theorem fail (e : Failure) : Follows part (Action.fail e : Action τ α) (Action.fail e) :=
  fun _ => ⟨rfl, rfl⟩

theorem bind {b : Action τ α} {a : Action σ α} {g : α → Action τ β} {f : α → Action σ β}
    (h : Follows part b a) (hf : ∀ x, Follows part (g x) (f x)) :
    Follows part (b >>= g) (a >>= f) := by
  intro t
  obtain ⟨hr, hs⟩ := h t
  rw [Action.bind_apply, Action.bind_apply]
  cases hb : b t with
  | mk r t' =>
    cases ha : a (part t) with
    | mk q s' =>
      obtain rfl : r = q := by simpa [hb, ha] using hr
      obtain rfl : part t' = s' := by simpa [hb, ha] using hs
      cases r with
      | ok x => exact hf x t'
      | error e => exact ⟨rfl, rfl⟩

theorem ofExcept (r : Except Failure α) :
    Follows part (Action.ofExcept r : Action τ α) (Action.ofExcept r) := fun _ => ⟨rfl, rfl⟩

theorem attempt {b : Action τ α} {a : Action σ α} (h : Follows part b a) :
    Follows part (Action.attempt b) (Action.attempt a) := by
  intro t
  obtain ⟨hr, hs⟩ := h t
  exact ⟨congrArg Except.ok hr, hs⟩

end Follows

/-- Whatever the action gives has the property. -/
def Yields (a : Action σ α) (p : α → Prop) : Prop := ∀ ⦃s x t⦄, a s = (.ok x, t) → p x

namespace Yields

variable {p : α → Prop} {q : β → Prop}

theorem trivial (a : Action σ α) : Yields a fun _ => True := fun _ _ _ _ => True.intro

theorem const {q : Prop} (h : q) (a : Action σ α) : Yields a fun _ => q := fun _ _ _ _ => h

theorem pure {x : α} (h : p x) : Yields (Pure.pure x : Action σ α) p := by
  intro s y t hy
  cases hy
  exact h

theorem fail (e : Failure) : Yields (Action.fail e : Action σ α) p := by
  intro s y t hy
  cases hy

theorem bind {a : Action σ α} {f : α → Action σ β} (h : Yields a p)
    (hf : ∀ x, p x → Yields (f x) q) : Yields (a >>= f) q := by
  intro s y t hy
  rw [Action.bind_apply] at hy
  cases ha : a s with
  | mk r u =>
    rw [ha] at hy
    cases r with
    | ok x => exact hf x (h ha) hy
    | error e => cases hy

theorem ofExcept {r : Except Failure α} (h : ∀ x, r = .ok x → p x) :
    Yields (Action.ofExcept r : Action σ α) p := by
  intro s y t hy
  cases hy
  exact h y rfl

theorem attempt {a : Action σ α} (h : Yields a p) :
    Yields (Action.attempt a) fun r => ∀ x, r = .ok x → p x := by
  intro s r t hr x hx
  rw [Action.attempt] at hr
  cases ha : a s with
  | mk r' u =>
    rw [ha] at hr
    cases hr
    subst hx
    exact h ha

theorem lift {get : τ → σ} {set : σ → τ → τ} {a : Action σ α} (h : Yields a p) :
    Yields (Action.lift get set a) p := by
  intro t x t' hx
  rw [Action.lift] at hx
  cases ha : a (get t) with
  | mk r u =>
    rw [ha] at hx
    cases hx
    exact h ha

end Yields

/-- The action keeps the property of the state, also when it fails. -/
def Preserves (i : σ → Prop) (a : Action σ α) : Prop := ∀ s, i s → i (a s).2

namespace Preserves

variable {i : σ → Prop}

theorem pure (x : α) : Preserves i (Pure.pure x) := fun _ h => h

theorem fail (e : Failure) : Preserves i (Action.fail e : Action σ α) := fun _ h => h

theorem ofExcept (r : Except Failure α) : Preserves i (Action.ofExcept r) := fun _ h => h

theorem read (f : σ → α) : Preserves i (Action.read f) := fun _ h => h

theorem bind {a : Action σ α} {f : α → Action σ β} (h : Preserves i a)
    (hf : ∀ x, Preserves i (f x)) : Preserves i (a >>= f) := by
  intro s hs
  have ht := h s hs
  rw [Action.bind_apply]
  cases ha : a s with
  | mk r t =>
    rw [ha] at ht
    cases r with
    | ok x => exact hf x t ht
    | error e => exact ht

theorem attempt {a : Action σ α} (h : Preserves i a) : Preserves i (Action.attempt a) := h

end Preserves

/-- From a state with the first property the action comes to a value and a state that are good, or
else it fails in a state that is bad. -/
structure Ends (i : σ → Prop) (a : Action σ α) (good : α → σ → Prop) (bad : σ → Prop) : Prop where
  ok : ∀ {s x t}, i s → a s = (.ok x, t) → good x t
  error : ∀ {s e t}, i s → a s = (.error e, t) → bad t

namespace Ends

variable {i bad : σ → Prop} {good : α → σ → Prop}

theorem ofPreserves {a : Action σ α} (h : Preserves i a) : Ends i a (fun _ => i) i where
  ok {s x t} hs ha := by
    have ht := h s hs
    rwa [ha] at ht
  error {s e t} hs ha := by
    have ht := h s hs
    rwa [ha] at ht

theorem pure {x : α} (h : ∀ s, i s → good x s) : Ends i (Pure.pure x) good bad where
  ok hs ha := by
    cases ha
    exact h _ hs
  error _ ha := by cases ha

theorem mono {a : Action σ α} {good' : α → σ → Prop} {bad' : σ → Prop} (h : Ends i a good bad)
    (hgood : ∀ x s, good x s → good' x s) (hbad : ∀ s, bad s → bad' s) : Ends i a good' bad' :=
  ⟨fun hs ha => hgood _ _ (h.ok hs ha), fun hs ha => hbad _ (h.error hs ha)⟩

theorem ofExists {a : Action σ α} {j : β → σ → Prop} (h : ∀ y, Ends (j y) a good bad) :
    Ends (fun s => ∃ y, j y s) a good bad :=
  ⟨fun ⟨y, hy⟩ ha => (h y).ok hy ha, fun ⟨y, hy⟩ ha => (h y).error hy ha⟩

/-- An action on a part of a larger state ends there as it does on the part alone. -/
theorem lift {get : τ → σ} {set : σ → τ → τ} {a : Action σ α} (hset : ∀ s t, get (set s t) = s)
    (h : Ends i a good bad) :
    Ends (fun t => i (get t)) (Action.lift get set a) (fun x t => good x (get t))
      fun t => bad (get t) where
  ok {t x t'} ht ha := by
    rw [Action.lift] at ha
    obtain ⟨hr, rfl⟩ := Prod.mk.inj ha
    rw [hset]
    exact h.ok ht (Prod.ext hr rfl)
  error {t e t'} ht ha := by
    rw [Action.lift] at ha
    obtain ⟨hr, rfl⟩ := Prod.mk.inj ha
    rw [hset]
    exact h.error ht (Prod.ext hr rfl)

theorem bind_of_yields {a : Action σ α} {f : α → Action σ β} {p : α → Prop}
    {last : β → σ → Prop} (h : Ends i a good bad) (hp : Yields a p)
    (hf : ∀ x, p x → Ends (good x) (f x) last bad) : Ends i (a >>= f) last bad where
  ok hs hb := by
    obtain ⟨x, t, ha, hb⟩ := bind_eq_ok_iff.mp hb
    exact (hf x (hp ha)).ok (h.ok hs ha) hb
  error hs hb := by
    rcases bind_eq_error_iff.mp hb with ha | ⟨x, t, ha, hb⟩
    · exact h.error hs ha
    · exact (hf x (hp ha)).error (h.ok hs ha) hb

theorem bind {a : Action σ α} {f : α → Action σ β} {last : β → σ → Prop}
    (h : Ends i a good bad) (hf : ∀ x, Ends (good x) (f x) last bad) :
    Ends i (a >>= f) last bad :=
  h.bind_of_yields (Yields.trivial a) fun x _ => hf x

end Ends

end Action

end Replay
