import Replay.Json

namespace Replay

/-- For each caller the times of the admitted requests that may still count, the oldest first. -/
structure Limiter where
  windows : Members (List Number)

namespace Limiter

def empty : Limiter := ⟨[]⟩

/-- The times kept for a caller. -/
def times (l : Limiter) (caller : Text) : List Number := (l.windows.get? caller).getD []

/-- Whether a time no longer counts. -/
def isPast (now window time : Number) : Except NumberError Bool := do
  let age ← now.sub time
  pure (window.le age)

/-- Drops times from the front as long as they no longer count. -/
def evict (now window : Number) : List Number → Except NumberError Unit × List Number
  | [] => (.ok (), [])
  | time :: rest =>
    match isPast now window time with
    | .ok true => evict now window rest
    | .ok false => (.ok (), time :: rest)
    | .error e => (.error e, time :: rest)

/-- Admits a request unless as many as the limit still count. -/
def allow (l : Limiter) (now : Number) (caller : Text) (limit window : Number) :
    Except NumberError Bool × Limiter :=
  match evict now window (l.times caller) with
  | (.error e, times) => (.error e, ⟨l.windows.put caller times⟩)
  | (.ok (), times) =>
    if limit.le (.int times.length) then (.ok false, ⟨l.windows.put caller times⟩)
    else (.ok true, ⟨l.windows.put caller (times ++ [now])⟩)

/-- What is added so that a fraction of a second counts as one. -/
def roundingUp : Number := .real (.ofDecimal false 999 (-3))

/-- The seconds until the oldest request stops counting, at least one; none without requests. -/
def retryAfter (l : Limiter) (now : Number) (caller : Text) (window : Number) :
    Except NumberError Int :=
  match l.times caller with
  | [] => .ok 0
  | oldest :: _ => do
    let age ← now.sub oldest
    let remaining ← window.sub age
    let seconds ← (← remaining.add roundingUp).truncate
    pure (max 1 seconds)

def reset (_ : Limiter) : Limiter := empty

end Limiter

end Replay
