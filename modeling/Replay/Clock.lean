namespace Replay

/-- A clock as the sequence of its readings, with the number of those already taken. -/
structure Clock (α : Type) where
  reading : Nat → α
  taken : Nat

namespace Clock

variable {α : Type}

def ofReadings (reading : Nat → α) : Clock α := ⟨reading, 0⟩

def next (c : Clock α) : α × Clock α := (c.reading c.taken, { c with taken := c.taken + 1 })

end Clock

end Replay
