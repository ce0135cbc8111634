import Replay.Proofs.ScriptFaults

namespace Replay

namespace ScriptError

/-- The error is about the value as a whole. -/
def IsWhole : ScriptError → Prop
  | notObject | unsupportedField _ | stepsNotArray | noSteps | tooManySteps => True
  | _ => False

variable {limits : Limits} {i : Nat} {frames : Int} {snaps : Nat} {e e' : ScriptError}

theorem eq_of_failure (h : e.failure = .invalid e') : e = e' := by
  rw [failure] at h
  split at h
  next => exact ScriptFailure.invalid.inj h
  next => cases h

/-- What is said of one step begins otherwise than what is said of all pointer events. -/
theorem IsAt.message_ne (h : e.IsAt limits i frames snaps) (hinputs : ∀ j, e ≠ .inputLimit j) :
    e.message ≠ ("input steps cannot exceed 128" : Text) := by
  have hhead : e.message.head? = some (CodePoint.ofChar 's') := by
    cases e with
    | stepNotObject | notOneKind | frameLimit | snapLimit | inputNotObject | field => rfl
    | inputLimit j => exact absurd rfl (hinputs j)
    | _ => cases h
  intro heq
  rw [heq] at hhead
  exact absurd hhead (by decide)

theorem IsWhole.message_ne (h : e.IsWhole) :
    e.message ≠ ("input steps cannot exceed 128" : Text) := by
  cases e with
  | notObject | stepsNotArray | noSteps | tooManySteps => decide
  | unsupportedField name =>
    intro heq
    have hhead : some (CodePoint.ofChar 'U') = some (CodePoint.ofChar 'i') :=
      congrArg List.head? heq
    exact absurd hhead (by decide)
  | _ => cases h

end ScriptError

namespace Script

variable {viewport : Viewport} {limits : Limits} {i : Nat} {p q : Progress} {value : Json}
  {values : List Json} {steps : List Step} {f : ScriptFailure} {e : ScriptError}

theorem Lists.length_le (h : Lists value values) : values.length ≤ ScriptError.maxSteps := by
  cases h with
  | intro _ _ _ hmost => exact hmost

theorem exists_lists_of_read {script : Script} (h : read viewport limits value = .ok script) :
    ∃ values, Lists value values := by
  obtain ⟨members, values, rfl, honly, hsteps, hpos, hmost, -, -⟩ := read_eq_ok_iff.mp h
  exact ⟨values, .intro honly hsteps hpos hmost⟩

namespace Progress

def totals (p : Progress) : Totals := ⟨p.frames, p.inputs, p.snaps⟩

/-- Totals that are counted step by step are those of a recount. -/
theorem totals_foldl_after (steps : List Step) :
    (steps.foldl after start).totals = (Script.mk steps).totals := by
  rw [foldl_after, totals, ← totals_frames ⟨steps⟩]
  simp [start, Script.totals]

end Progress

theorem totals_of_readSteps (h : readSteps viewport limits i .start values = .ok (steps, p)) :
    p.totals = (Script.mk steps).totals := by
  obtain ⟨-, -, rfl⟩ := readSteps_eq_ok_iff.mp h
  exact Progress.totals_foldl_after steps

theorem length_of_readSteps (h : readSteps viewport limits i p values = .ok (steps, q)) :
    steps.length = values.length := by
  obtain ⟨hforms, -, -⟩ := readSteps_eq_ok_iff.mp h
  exact hforms.length_eq.symm

/-- There are no more pointer events than elements. -/
theorem inputs_le_of_readSteps (h : readSteps viewport limits i .start values = .ok (steps, p)) :
    p.inputs ≤ values.length :=
  calc p.inputs = (Script.mk steps).totals.inputs :=
        congrArg Totals.inputs (totals_of_readSteps h)
    _ ≤ steps.length := List.countP_le_length
    _ = values.length := length_of_readSteps h

/-- The reader fails at one of the elements, after it has read those before it. -/
theorem exists_of_readSteps_eq_error (h : readSteps viewport limits i p values = .error f) :
    ∃ k v steps q, values[k]? = some v ∧
      readSteps viewport limits i p (values.take k) = .ok (steps, q) ∧
      readStep viewport limits (i + k) q v = .error f := by
  induction values generalizing i p with
  | nil => cases h
  | cons value rest ih =>
    rcases bind_eq_error_iff.mp h with hstep | ⟨⟨step, p'⟩, hstep, hlater⟩
    · exact ⟨0, value, [], p, rfl, rfl, hstep⟩
    · rcases bind_eq_error_iff.mp hlater with hrest | ⟨_, -, hpure⟩
      · obtain ⟨k, v, steps, q, hv, hread, hfail⟩ := ih hrest
        refine ⟨k + 1, v, step :: steps, q, hv, ?_, ?_⟩
        · exact bind_eq_ok_iff.mpr ⟨_, hstep, bind_eq_ok_iff.mpr ⟨_, hread, rfl⟩⟩
        · rwa [Nat.add_right_comm, Nat.add_assoc] at hfail
      · cases hpure

/-- A value without a list of steps is refused as a whole. -/
theorem read_failsAs (h : ∀ values, ¬ Lists value values) :
    FailsAs ScriptError.IsWhole (read viewport limits value) := by
  unfold read members?
  cases value with
  | object members =>
    dsimp only
    split
    next => exact .refuse trivial
    next honly =>
      split
      next values hsteps =>
        refine .check (fun _ => trivial) fun hempty => ?_
        refine .check (fun _ => trivial) fun hmost => ?_
        have hpos : 1 ≤ values.length := by
          rw [Nat.one_le_iff_ne_zero, ne_eq, List.length_eq_zero_iff]
          simpa using hempty
        have hlists : Lists (.object members) values :=
          .intro (by simpa using honly) hsteps hpos (Nat.not_lt.mp hmost)
        exact absurd hlists (h values)
      next => exact .refuse trivial
  | _ => exact .refuse trivial

/-- An error of a script is not about the number of its pointer events. -/
theorem message_ne_of_read (h : read viewport limits value = .error (.invalid e)) :
    e.message ≠ ("input steps cannot exceed 128" : Text) := by
  by_cases hlists : ∃ values, Lists value values
  · obtain ⟨values, hlists⟩ := hlists
    rw [read_of_lists hlists] at h
    obtain ⟨k, v, steps, q, hv, hread, hstep⟩ :=
      exists_of_readSteps_eq_error (map_eq_error_iff.mp h)
    obtain ⟨e', he', heq⟩ := readStep_failsAs v _ hstep
    obtain rfl := ScriptError.eq_of_failure heq.symm
    refine he'.isAt.message_ne fun j hj => ?_
    -- there are too few elements for that many pointer events
    have hk : k < values.length := (List.getElem?_eq_some_iff.mp hv).1
    have hmost := hlists.length_le
    have hinputs := inputs_le_of_readSteps hread
    have hlimit := he'.inputs j hj
    rw [List.length_take] at hinputs
    have hmax : ScriptError.maxSteps < ScriptError.maxInputs := by decide
    omega
  · obtain ⟨e', he', heq⟩ := read_failsAs (not_exists.mp hlists) _ h
    obtain rfl := ScriptError.eq_of_failure heq.symm
    exact he'.message_ne

/-- The elements of a value are read only if there are 1 to 64 of them and nothing beside them.
After the first `k` of them the reader goes on with totals that are exactly those of the `k` steps
it has made of them, so that it has met at most `k` pointer events. Therefore no script is refused
for too many of them, and of a script that is read the last totals are its own. -/
theorem read_totals (viewport : Viewport) (limits : Limits) (value : Json) :
    (∀ values, Lists value values →
      read viewport limits value =
        ((readSteps viewport limits 0 .start values).map fun r => ⟨r.1⟩) ∧
      ∀ k ≤ values.length, ∀ steps p,
        readSteps viewport limits 0 .start (values.take k) = .ok (steps, p) →
          steps.length = k ∧ p.totals = (Script.mk steps).totals ∧ p.inputs ≤ k ∧ k ≤ 64 ∧
          readSteps viewport limits 0 .start values =
            (readSteps viewport limits k p (values.drop k)).map fun rest =>
              (steps ++ rest.1, rest.2)) ∧
    (∀ e, read viewport limits value = .error (.invalid e) →
      e.message ≠ ("input steps cannot exceed 128" : Text)) ∧
    ∀ script, read viewport limits value = .ok script →
      ∃ values p, Lists value values ∧
        readSteps viewport limits 0 .start values = .ok (script.steps, p) ∧
        p.totals = script.totals := by
  refine ⟨fun values hlists => ⟨read_of_lists hlists, fun k hk steps p hread => ?_⟩,
    fun e => message_ne_of_read, fun script hread => ?_⟩
  · have htake : (values.take k).length = k := List.length_take_of_le hk
    refine ⟨(length_of_readSteps hread).trans htake, totals_of_readSteps hread,
      (inputs_le_of_readSteps hread).trans_eq htake, hk.trans hlists.length_le, ?_⟩
    calc readSteps viewport limits 0 .start values
        = readSteps viewport limits 0 .start (values.take k ++ values.drop k) := by
          rw [List.take_append_drop]
      _ = _ := by
          rw [readSteps_append, hread, htake, Nat.zero_add]
          rfl
  · obtain ⟨values, hlists⟩ := exists_lists_of_read hread
    rw [read_of_lists hlists] at hread
    obtain ⟨⟨steps, p⟩, hsteps, rfl⟩ := map_eq_ok_iff.mp hread
    exact ⟨values, p, hlists, hsteps, totals_of_readSteps hsteps⟩

end Script

end Replay
