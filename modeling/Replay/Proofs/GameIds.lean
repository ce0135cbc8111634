import Replay.Proofs.CountedEndpoints
import Replay.Proofs.LogLines

namespace Replay

namespace Game

variable {t : Text} {c : CodePoint}

/-- An ASCII letter or digit, and at most 127 of those, underscores and hyphens after it. -/
inductive IsVersionId : Text → Prop
  | intro {c : CodePoint} {rest : Text} : c.isAlphanum = true → rest.length ≤ 127 →
    (∀ d ∈ rest, d.isAlphanum = true ∨ d = CodePoint.ofChar '_' ∨ d = CodePoint.ofChar '-') →
    IsVersionId (c :: rest)

/-- An id as such or with a line feed after it. -/
def IsAccepted (t : Text) : Prop :=
  IsVersionId t ∨ ∃ id, IsVersionId id ∧ t = id ++ [lineFeed]

theorem IsVersionId.of_mem (h : IsVersionId t) (hc : c ∈ t) :
    c.isAlphanum = true ∨ c = CodePoint.ofChar '_' ∨ c = CodePoint.ofChar '-' := by
  cases h with
  | intro hfirst _ hrest =>
    rcases List.mem_cons.mp hc with rfl | hc
    · exact .inl hfirst
    · exact hrest c hc

theorem IsVersionId.not_mem (h : IsVersionId t) (hc : c.isAlphanum = false)
    (hmarks : c ≠ CodePoint.ofChar '_' ∧ c ≠ CodePoint.ofChar '-') : c ∉ t := by
  intro hmem
  rcases h.of_mem hmem with hletter | hmark | hmark
  · rw [hc] at hletter
    cases hletter
  · exact hmarks.1 hmark
  · exact hmarks.2 hmark

theorem isId_eq_true_iff_withoutLineEnd : isId t = true ↔ IsVersionId (withoutLineEnd t) := by
  rw [isId]
  cases withoutLineEnd t with
  | nil =>
    constructor
    · intro h
      cases h
    · intro h
      cases h
  | cons c rest =>
    have hpart (d : CodePoint) : isIdPart d = true ↔
        d.isAlphanum = true ∨ d = CodePoint.ofChar '_' ∨ d = CodePoint.ofChar '-' := by
      simp [isIdPart, or_assoc]
    have hlimit : rest.length < idLimit ↔ rest.length ≤ 127 := Nat.lt_succ_iff
    simp only [Bool.and_eq_true, List.all_eq_true, decide_eq_true_eq, hpart, hlimit]
    constructor
    · rintro ⟨⟨hfirst, hrest⟩, hlength⟩
      exact .intro hfirst hlength hrest
    · intro h
      cases h with
      | intro hfirst hlength hrest => exact ⟨⟨hfirst, hrest⟩, hlength⟩

theorem isId_eq_true_iff : isId t = true ↔ IsAccepted t := by
  rw [isId_eq_true_iff_withoutLineEnd, IsAccepted, withoutLineEnd]
  split
  next hlast =>
    obtain ⟨id, rfl⟩ := List.getLast?_eq_some_iff.mp hlast
    rw [List.dropLast_concat]
    constructor
    · exact fun h => .inr ⟨id, h, rfl⟩
    · rintro (h | ⟨id', h, heq⟩)
      · have hnot : lineFeed ∉ id ++ [lineFeed] := h.not_mem (by decide) (by decide)
        exact absurd List.mem_concat_self hnot
      · rwa [List.append_cancel_right heq]
  next hlast =>
    constructor
    · exact .inl
    · rintro (h | ⟨id, -, rfl⟩)
      · exact h
      · exact absurd (List.getLast?_concat ..) hlast

-- Of two line feeds only the last one is let through.
example : isId "v1\n" = true ∧ isId "v1\n\n" = false := by decide

/-- A name of one entry of a directory. -/
structure IsComponent (t : Text) : Prop where
  ne_nil : t ≠ []
  ne_dot : t ≠ "."
  ne_dots : t ≠ Path.dots
  no_slash : Path.slash ∉ t

theorem IsAccepted.isComponent (h : IsAccepted t) : IsComponent t := by
  have hmem {c : CodePoint} (hc : c.isAlphanum = false)
      (hmarks : c ≠ CodePoint.ofChar '_' ∧ c ≠ CodePoint.ofChar '-') (hfeed : c ≠ lineFeed) :
      c ∉ t := by
    rcases h with h | ⟨id, h, rfl⟩
    · exact h.not_mem hc hmarks
    · intro hin
      rcases List.mem_append.mp hin with hin | hin
      · exact h.not_mem hc hmarks hin
      · exact hfeed (List.mem_singleton.mp hin)
  have hdot : CodePoint.ofChar '.' ∉ t := hmem (by decide) (by decide) (by decide)
  have hslash : Path.slash ∉ t := hmem (by decide) (by decide) (by decide)
  refine ⟨?_, ?_, ?_, hslash⟩
  · rintro rfl
    rcases h with h | ⟨id, h, heq⟩
    · cases h
    · exact List.cons_ne_nil _ _ (List.append_eq_nil_iff.mp heq.symm).2
  · rintro rfl
    exact hdot (by decide)
  · rintro rfl
    exact hdot (by decide)

/-- A path is extended by the component alone. -/
theorem IsComponent.append_ofText (h : IsComponent t) (root : Path) :
    root ++ Path.ofText t = root.child t := by
  have hstart : t.takeWhile (· = Path.slash) = [] := by
    cases t with
    | nil => rfl
    | cons c rest =>
      have hc : c ≠ Path.slash := fun hc => h.no_slash (hc ▸ List.mem_cons_self)
      exact List.takeWhile_cons_of_neg (by simpa using hc)
  have hpieces : Text.splitOn Path.slash t = [t] := Text.splitOn_of_not_mem h.no_slash
  have htext : Path.ofText t = ⟨0, [t]⟩ := by
    rw [Path.ofText, hstart, hpieces]
    simp [h.ne_nil, h.ne_dot]
  rw [htext]
  rfl

theorem directory_of_isAccepted (h : IsAccepted t) (root : Path) :
    directory root t = .ok (root.child t) := by
  rw [directory, if_pos (isId_eq_true_iff.mpr h)]

theorem directory_of_not_isAccepted (h : ¬ IsAccepted t) (root : Path) :
    directory root t = .error .badGameId := by
  rw [directory, if_neg (mt isId_eq_true_iff.mp h)]

end Game

namespace Service

variable {σ : Type} {plan : ServicePlan σ} {id : Text}

theorem withGame_of_isAccepted (h : Game.IsAccepted id) (body : Path → Action (Session σ) Reply) :
    withGame plan id body = (do
      if ← Session.onMachine
          (Machine.inspect fun fs => fs.isDirectory (plan.settings.gamesRoot.child id)) then
        body (plan.settings.gamesRoot.child id)
      else pure gameMissing) := by
  rw [withGame, Game.directory_of_isAccepted h]
  rfl

/-- Without an id nothing is looked at. -/
theorem withGame_of_not_isAccepted (h : ¬ Game.IsAccepted id)
    (body : Path → Action (Session σ) Reply) :
    withGame plan id body = Action.fail (.request .badGameId) := by
  rw [withGame, Game.directory_of_not_isAccepted h]
  rfl

/-- The endpoints for one game refuse what is no id, and leave everything as it is. -/
theorem body_of_not_isAccepted (h : ¬ Game.IsAccepted id) {e : Endpoint} (he : e.isKeyed = true)
    (call : Call) (s : Served (Session σ)) :
    e.body plan id call s = (.error (.request .badGameId), s) := by
  cases e with
  | validate => cases he
  | headless =>
    show Access.onInner (withGame plan id _) s = _
    rw [withGame_of_not_isAccepted h]
    rfl
  | tile =>
    show Access.onInner (withGame plan id _) s = _
    rw [withGame_of_not_isAccepted h]
    rfl

/-- The ids that the endpoints of games take are those of the grammar, as such or with a line feed
after them. They look up the directory whose path is that of the root of all games and the id as
one component. To any other text they answer that it is no id, whatever files there are, and they
change nothing. -/
theorem games_of_ids (plan : ServicePlan σ) (id : Text) :
    (Game.IsAccepted id →
      Game.IsComponent id ∧
      (∀ root, Game.directory root id = .ok (root.child id) ∧
        root ++ Path.ofText id = root.child id) ∧
      ∀ body, withGame plan id body = (do
        if ← Session.onMachine
            (Machine.inspect fun fs => fs.isDirectory (plan.settings.gamesRoot.child id)) then
          body (plan.settings.gamesRoot.child id)
        else pure gameMissing)) ∧
    (¬ Game.IsAccepted id →
      (∀ root, Game.directory root id = .error .badGameId) ∧
      ∀ e : Endpoint, e.isKeyed = true → ∀ call s,
        Access.inJson (e.body plan id) call s =
          (.ok (.done (.ofError 400 "Invalid game version id")), s)) := by
  constructor
  · intro h
    have hcomponent := h.isComponent
    refine ⟨hcomponent, fun root => ⟨?_, hcomponent.append_ofText root⟩, ?_⟩
    · exact Game.directory_of_isAccepted h root
    · exact withGame_of_isAccepted h
  · intro h
    refine ⟨Game.directory_of_not_isAccepted h, fun e he call s => ?_⟩
    rw [Access.inJson_of_error (body_of_not_isAccepted h he call s)]
    rfl

end Service

end Replay
