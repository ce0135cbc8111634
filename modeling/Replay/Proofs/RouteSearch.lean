import Mathlib.Data.List.Basic
import Replay.Route

namespace Replay

variable {α : Type} {routes : List (Route α)} {ask : Asking} {candidates : List (Candidate α)}
  {misses : Misses} {found : Option (Hit α) × Misses}

namespace Route

/-- Whether a handler belongs to a route of the name that is asked in its way. -/
def Offers (routes : List (Route α)) (ask : Asking) (name : Text) (handler : α) : Prop :=
  ∃ r ∈ routes, r.name = name ∧ r.allows ask.method = true ∧ ask.isSocket = false ∧
    ∃ values, r.handler values = handler

/-- What a search comes upon, if it comes upon a route. -/
def IsSound (routes : List (Route α)) (ask : Asking) (found : Option (Hit α) × Misses) : Prop :=
  ∀ name handler, found.1 = some (.route name handler) → Offers routes ask name handler

theorem isSound_none (misses : Misses) : IsSound routes ask (none, misses) := by
  rintro name handler ⟨⟩

/-- The candidates are routes of the list on their way. -/
def AreOf (routes : List (Route α)) (candidates : List (Candidate α)) : Prop :=
  ∀ c ∈ candidates, c.route ∈ routes

theorem AreOf.follow (h : AreOf routes candidates) (segment : Segment) (values : List Text) :
    AreOf routes (follow segment values candidates) := by
  intro c hc
  obtain ⟨before, hmem, heq⟩ := List.mem_filterMap.mp hc
  split at heq
  · split at heq
    · obtain rfl := Option.some.inj heq
      exact h before hmem
    · cases heq
  · cases heq

theorem AreOf.arrive (h : AreOf routes candidates) (misses : Misses) :
    IsSound routes ask (arrive ask misses candidates) := by
  induction candidates generalizing misses with
  | nil => exact isSound_none misses
  | cons c rest ih =>
    have hrest : AreOf routes rest := fun c hc => h c (List.mem_cons_of_mem _ hc)
    rw [Route.arrive]
    split
    · exact ih hrest misses
    · split
      · exact ih hrest _
      next hallows =>
        split
        · exact ih hrest _
        next hsocket =>
          rintro name handler ⟨⟩
          exact ⟨c.route, h c List.mem_cons_self, rfl, by simpa using hallows,
            by simpa using hsocket, c.values, rfl⟩

theorem AreOf.conclude (h : AreOf routes candidates) (misses : Misses) :
    IsSound routes ask (conclude ask candidates misses) := by
  intro name handler hfound
  rw [Route.conclude] at hfound
  split at hfound
  · dsimp only at hfound
    split at hfound <;> cases hfound
  · exact h.arrive misses name handler hfound

theorem AreOf.searchTail (h : AreOf routes candidates) (misses : Misses) (p : PathPattern)
    (isSlashed : Bool) (t : Text) :
    IsSound routes ask (searchTail ask candidates misses p isSlashed t) := by
  rw [Route.searchTail]
  split
  · exact isSound_none misses
  · dsimp only
    split
    · exact ((h.follow _ _).follow _ _).conclude misses
    · exact (h.follow _ _).conclude misses

theorem AreOf.search (h : AreOf routes candidates) (misses : Misses) (pieces : List Text) :
    IsSound routes ask (search ask candidates misses pieces) := by
  induction pieces generalizing candidates misses with
  | nil => exact h.conclude misses
  | cons piece pieces ih =>
    rw [Route.search]
    -- each segment is tried only while nothing is found, so what is found stays sound
    refine List.foldlRecOn (motive := IsSound routes ask) _ _ (ih (h.follow _ _) misses) ?_
    intro found hfound segment _
    split
    · split
      · exact ih (h.follow _ _) _
      · exact isSound_none _
    · exact h.searchTail _ _ _ _
    · exact hfound

theorem find_isSound (misses : Misses) (path : Text) :
    IsSound routes ask (find routes ask misses path) := by
  refine AreOf.search (fun c hc => ?_) misses _
  obtain ⟨r, hr, rfl⟩ := List.mem_map.mp hc
  exact hr

theorem offers_of_choose {path name : Text} {handler : α}
    (h : choose routes ask path = .found name handler) : Offers routes ask name handler := by
  rw [choose] at h
  split at h
  next hfind =>
    split at h
    · cases h
    · cases h
      exact find_isSound _ _ _ _ (congrArg Prod.fst hfind)
  next => cases h
  next =>
    dsimp only at h
    split at h
    · cases h
    · cases h
    · rw [refused] at h
      split at h
      · cases h
      · split at h <;> cases h

end Route

end Replay
