import Mathlib.Order.Bounds.Basic
import Replay.Proofs.ScriptGrammar

namespace Replay

namespace ScriptError

/-- The error is about the step, and the totals that it shows are these. -/
def IsAt (limits : Limits) (i : Nat) (frames : Int) (snaps : Nat) : ScriptError → Prop
  | frameLimit j limit total => j = i ∧ limit = limits.frames ∧ total = frames
  | snapLimit j limit count => j = i ∧ limit = limits.snaps ∧ count = snaps
  | stepNotObject j | notOneKind j | inputLimit j | inputNotObject j | field j _ _ => j = i
  | _ => False

/-- What comes of the error: it cannot be told if its message shows an integer of too many
digits. -/
def failure (e : ScriptError) : ScriptFailure :=
  if e.integers.all isWritable then .invalid e else .number .tooManyDigits

variable {limits : Limits} {i : Nat} {frames : Int} {snaps : Nat} {e : ScriptError}

theorem IsAt.path (h : e.IsAt limits i frames snaps) :
    e.path = stepPath i ∨ stepPath i ++ ("." : Text) <+: e.path := by
  have hbelow (place : Text) (hplace : ("." : Text) <+: place) :
      stepPath i ++ ("." : Text) <+: stepPath i ++ place :=
    (List.prefix_append_right_inj _).mpr hplace
  cases e with
  | stepNotObject j => exact .inl (congrArg stepPath h)
  | notOneKind j => exact .inl (congrArg stepPath h)
  | frameLimit j limit total =>
    obtain ⟨rfl, -⟩ := h
    exact .inr (hbelow _ (by decide))
  | inputLimit j =>
    obtain rfl : j = i := h
    exact .inr (hbelow _ (by decide))
  | snapLimit j limit count =>
    obtain ⟨rfl, -⟩ := h
    exact .inr (hbelow _ (by decide))
  | inputNotObject j =>
    obtain rfl : j = i := h
    exact .inr (hbelow _ (by decide))
  | field j f fault =>
    obtain rfl : j = i := h
    exact .inr (hbelow _ (by cases f <;> decide))
  | notObject => cases h
  | unsupportedField name => cases h
  | stepsNotArray => cases h
  | noSteps => cases h
  | tooManySteps => cases h
  | custom message path reason => cases h

theorem IsAt.frames_eq {j : Nat} {limit total : Int} (h : e.IsAt limits i frames snaps)
    (he : e = .frameLimit j limit total) : j = i ∧ limit = limits.frames ∧ total = frames := by
  subst he
  exact h

theorem IsAt.snaps_eq {j : Nat} {limit : Int} {count : Nat} (h : e.IsAt limits i frames snaps)
    (he : e = .snapLimit j limit count) : j = i ∧ limit = limits.snaps ∧ count = snaps := by
  subst he
  exact h

end ScriptError

namespace Script

variable {viewport : Viewport} {limits : Limits} {i : Nat} {p : Progress} {α β : Type}

theorem refuse_eq (e : ScriptError) : (refuse e : Except ScriptFailure α) = .error e.failure := by
  rw [refuse, ScriptError.failure]
  split <;> rfl

/-- Every failure of a reader is that of an error of this kind. -/
def FailsAs (errors : ScriptError → Prop) (r : Except ScriptFailure α) : Prop :=
  ∀ f, r = .error f → ∃ e, errors e ∧ f = e.failure

namespace FailsAs

variable {errors : ScriptError → Prop}

theorem ok (x : α) : FailsAs errors (.ok x) := by
  intro f hf
  cases hf

theorem refuse {e : ScriptError} (h : errors e) :
    FailsAs errors (Script.refuse e : Except _ α) := by
  intro f hf
  rw [refuse_eq] at hf
  exact ⟨e, h, (Except.error.inj hf).symm⟩

theorem bind {r : Except ScriptFailure α} {g : α → Except ScriptFailure β}
    (h : FailsAs errors r) (hg : ∀ x, r = .ok x → FailsAs errors (g x)) :
    FailsAs errors (r >>= g) := by
  intro f hf
  cases hr : r with
  | ok x =>
    rw [hr] at hf
    exact hg x hr f hf
  | error e =>
    rw [hr] at hf
    obtain rfl : e = f := Except.error.inj hf
    exact h e hr

/-- A check ahead of the rest of a reading. -/
theorem check {c : Prop} [Decidable c] {e : ScriptError} {r : Except ScriptFailure α}
    (he : c → errors e) (h : ¬c → FailsAs errors r) :
    FailsAs errors (if c then Script.refuse e else r) := by
  split
  next hc => exact refuse (he hc)
  next hc => exact h hc

end FailsAs

variable {errors : ScriptError → Prop}

theorem readInteger_failsAs {f : StepField} (hfield : ∀ fault, errors (.field i f fault))
    (value : Option Json) : FailsAs errors (readInteger i f value) := by
  unfold readInteger
  split
  next =>
    split
    next => exact .ok _
    next => exact .refuse (hfield _)
  next => exact .refuse (hfield _)

theorem readFinite_failsAs {f : StepField} (hfield : ∀ fault, errors (.field i f fault))
    (value : Option Json) : FailsAs errors (readFinite i f value) := by
  unfold readFinite
  split
  next =>
    split
    next => exact .ok _
    next => exact .refuse (hfield _)
  next => exact .refuse (hfield _)

theorem readChoice_failsAs {f : StepField} (hfield : ∀ fault, errors (.field i f fault))
    (ofText? : Text → Option α) (choices : List Text) (value : Option Json) :
    FailsAs errors (readChoice i f ofText? choices value) := by
  unfold readChoice
  split
  next =>
    split
    next => exact .ok _
    next => exact .refuse (hfield _)
  next => exact .refuse (hfield _)

theorem checkBounds_failsAs {f : StepField} (hfield : ∀ fault, errors (.field i f fault))
    (high value : Number) : FailsAs errors (checkBounds i f high value) :=
  .check (fun _ => hfield _) fun _ => .ok _

theorem readLabel_failsAs (hfield : ∀ fault, errors (.field i .snap fault)) (value : Json) :
    FailsAs errors (readLabel i value) := by
  unfold readLabel
  split
  next => exact .check (fun _ => hfield _) fun _ => .ok _
  next => exact .refuse (hfield _)

theorem readPointer_failsAs (hobject : errors (.inputNotObject i))
    (hfield : ∀ f fault, errors (.field i f fault)) (value : Json) :
    FailsAs errors (readPointer viewport i value) := by
  unfold readPointer
  simp only [refuse_bind]
  split
  next => exact .refuse hobject
  next members =>
    refine (readChoice_failsAs (hfield _) _ _ _).bind fun action _ => ?_
    refine (readInteger_failsAs (hfield _) _).bind fun pointer _ => ?_
    refine .check (fun _ => hfield _ _) fun _ => ?_
    refine (readFinite_failsAs (hfield _) _).bind fun x _ => ?_
    refine (readFinite_failsAs (hfield _) _).bind fun y _ => ?_
    refine (readChoice_failsAs (hfield _) _ _ _).bind fun space _ => ?_
    refine (readChoice_failsAs (hfield _) _ _ _).bind fun emit _ => ?_
    refine (checkBounds_failsAs (hfield _) _ _).bind fun _ _ => ?_
    exact (checkBounds_failsAs (hfield _) _ _).bind fun _ _ => .ok _

theorem readRun_failsAs {value : Json} (hfield : ∀ fault, errors (.field i .run fault))
    (hlimit : ∀ n, ScriptGrammar.whole? value = some n →
      errors (.frameLimit i limits.frames (p.frames + n))) :
    FailsAs errors (readRun limits i p value) := by
  unfold readRun
  simp only [refuse_bind]
  refine (readInteger_failsAs hfield _).bind fun n hn => ?_
  obtain ⟨x, hx, hwhole⟩ := readInteger_eq_ok_iff.mp hn
  refine .check (fun _ => hfield _) fun _ => ?_
  refine .check (fun _ => hlimit n ?_) fun _ => .ok _
  exact ScriptGrammar.whole?_eq_some_iff.mpr ⟨x, Option.some.inj hx, hwhole⟩

theorem readInput_failsAs (hobject : errors (.inputNotObject i))
    (hfield : ∀ f fault, errors (.field i f fault))
    (hlimit : ScriptError.maxInputs ≤ p.inputs → errors (.inputLimit i)) (value : Json) :
    FailsAs errors (readInput viewport i p value) := by
  unfold readInput
  simp only [refuse_bind]
  refine .check (fun hlt => hlimit (Nat.le_of_lt_succ hlt)) fun _ => ?_
  exact (readPointer_failsAs hobject hfield _).bind fun _ _ => .ok _

theorem readSnap_failsAs (hfield : ∀ fault, errors (.field i .snap fault))
    (hlimit : errors (.snapLimit i limits.snaps (p.snaps + 1))) (value : Json) :
    FailsAs errors (readSnap limits i p value) := by
  unfold readSnap
  simp only [refuse_bind]
  refine (readLabel_failsAs hfield _).bind fun label _ => ?_
  exact .check (fun _ => hlimit) fun _ => .ok _

/-- The error is about the step that is read after these totals. It shows the totals of the steps
before it and its own, and there are too many pointer events only if the totals say so. -/
structure Blames (limits : Limits) (i : Nat) (p : Progress) (value : Json) (e : ScriptError) :
    Prop where
  isAt : e.IsAt limits i (p.frames + ScriptGrammar.frames value)
    (p.snaps + [value].countP ScriptGrammar.isSnap)
  inputs : ∀ j, e = .inputLimit j → ScriptError.maxInputs ≤ p.inputs

/-- A step that cannot be read is refused at its own place. -/
theorem readStep_failsAs (value : Json) :
    FailsAs (Blames limits i p value) (readStep viewport limits i p value) := by
  unfold readStep members?
  cases value with
  | object members =>
    dsimp only
    split
    next run hrun hinput hsnap =>
      refine readRun_failsAs (fun _ => ⟨rfl, by simp⟩) fun n hn => ⟨⟨rfl, rfl, ?_⟩, by simp⟩
      simp [ScriptGrammar.frames, Json.member?, hrun, hn]
    next input hrun hinput hsnap =>
      refine readInput_failsAs ⟨rfl, by simp⟩ (fun _ _ => ⟨rfl, by simp⟩) (fun hle => ⟨rfl, ?_⟩) _
      exact fun _ _ => hle
    next snap hrun hinput hsnap =>
      refine readSnap_failsAs (fun _ => ⟨rfl, by simp⟩) ⟨⟨rfl, rfl, ?_⟩, by simp⟩ _
      simp [ScriptGrammar.isSnap, Json.member?, hsnap]
    next => exact .refuse ⟨rfl, by simp⟩
  | _ => exact .refuse ⟨rfl, by simp⟩

/-- Steps one after the other: of the first ones only their number and their totals matter. -/
theorem readSteps_append (xs ys : List Json) :
    readSteps viewport limits i p (xs ++ ys) =
      (readSteps viewport limits i p xs >>= fun first =>
        (readSteps viewport limits (i + xs.length) first.2 ys).map fun rest =>
          (first.1 ++ rest.1, rest.2)) := by
  induction xs generalizing i p with
  | nil =>
    rw [List.nil_append, readSteps, List.length_nil, Nat.add_zero]
    show _ = (readSteps viewport limits i p ys).map _
    cases readSteps viewport limits i p ys <;> rfl
  | cons value rest ih =>
    rw [List.cons_append, readSteps, readSteps, List.length_cons]
    cases readStep viewport limits i p value with
    | error f => rfl
    | ok first =>
      obtain ⟨step, q⟩ := first
      have hindex : i + (rest.length + 1) = i + 1 + rest.length := by omega
      rw [hindex]
      show (readSteps viewport limits (i + 1) q (rest ++ ys) >>= _) = _
      rw [ih]
      show _ = (readSteps viewport limits (i + 1) q rest >>= _) >>= _
      cases readSteps viewport limits (i + 1) q rest with
      | error f => rfl
      | ok others =>
        show ((readSteps viewport limits (i + 1 + rest.length) others.2 ys).map _ >>= _) =
          (readSteps viewport limits (i + 1 + rest.length) others.2 ys).map _
        cases readSteps viewport limits (i + 1 + rest.length) others.2 ys <;> rfl

namespace Progress

theorem frames_after (p : Progress) (step : Step) :
    (p.after step).frames = p.frames + step.frames := by
  cases step <;> simp [after, Step.frames]

theorem snaps_after (p : Progress) (step : Step) :
    (p.after step).snaps = p.snaps + if step.isSnap = true then 1 else 0 := by
  cases step <;> simp [after, Step.isSnap]

end Progress

variable {values : List Json} {f : ScriptFailure}

/-- Of steps that cannot be read there is a first one at which the reader fails. It comes to it with
the totals of those before it. -/
theorem readSteps_refused (h : readSteps viewport limits i p values = .error f) :
    ∃ k < values.length,
      (∀ j, (∃ g, readSteps viewport limits i p (values.take (j + 1)) = .error g) → k ≤ j) ∧
      readSteps viewport limits i p (values.take (k + 1)) = .error f ∧
      ∃ e : ScriptError, f = e.failure ∧
        e.IsAt limits (i + k) (p.frames + ((values.take (k + 1)).map ScriptGrammar.frames).sum)
          (p.snaps + (values.take (k + 1)).countP ScriptGrammar.isSnap) := by
  induction values generalizing i p with
  | nil => cases h
  | cons value rest ih =>
    cases hstep : readStep viewport limits i p value with
    | error g =>
      have hfirst (others : List Json) :
          readSteps viewport limits i p (value :: others) = .error g := by
        rw [readSteps, hstep]
        rfl
      obtain rfl : g = f := Except.error.inj ((hfirst rest).symm.trans h)
      obtain ⟨e, he, hg⟩ := readStep_failsAs value g hstep
      refine ⟨0, Nat.succ_pos _, fun j _ => Nat.zero_le j, hfirst _, e, hg, ?_⟩
      simpa using he.isAt
    | ok first =>
      obtain ⟨step, q⟩ := first
      have hnext (others : List Json) (g : ScriptFailure) :
          readSteps viewport limits i p (value :: others) = .error g ↔
            readSteps viewport limits (i + 1) q others = .error g := by
        rw [readSteps, hstep]
        show (readSteps viewport limits (i + 1) q others >>= _) = _ ↔ _
        cases readSteps viewport limits (i + 1) q others <;>
          simp [bind, Except.bind, pure, Except.pure]
      obtain ⟨k, hk, hleast, hcut, e, hf, he⟩ := ih ((hnext rest f).mp h)
      refine ⟨k + 1, Nat.succ_lt_succ hk, ?_, (hnext _ f).mpr hcut, e, hf, ?_⟩
      · rintro (_ | j) ⟨g, hg⟩
        · cases (hnext [] g).mp hg
        · exact Nat.succ_le_succ (hleast j ⟨g, (hnext _ g).mp hg⟩)
      · -- the totals of the steps before are those that their values say
        obtain ⟨hform, -, rfl⟩ := readStep_eq_ok_iff.mp hstep
        obtain ⟨hframes, hsnap⟩ := ScriptGrammar.frames_eq hform
        have hindex : i + (k + 1) = i + 1 + k := by omega
        have htotal : p.frames + ((value :: rest.take (k + 1)).map ScriptGrammar.frames).sum =
            (p.after step).frames + ((rest.take (k + 1)).map ScriptGrammar.frames).sum := by
          rw [List.map_cons, List.sum_cons, hframes, Progress.frames_after]
          omega
        have hcount : p.snaps + (value :: rest.take (k + 1)).countP ScriptGrammar.isSnap =
            (p.after step).snaps + (rest.take (k + 1)).countP ScriptGrammar.isSnap := by
          rw [List.countP_cons, hsnap, Progress.snaps_after]
          omega
        rw [List.take_succ_cons, hindex, htotal, hcount]
        exact he

/-- A value whose elements are read as steps: an object of nothing but an array of 1 to 64 of
them. -/
inductive Lists : Json → List Json → Prop
  | intro {members : Members Json} {values : List Json}
    (only : ∀ m ∈ members, m.1 = ("steps" : Text))
    (steps : members.get? "steps" = some (.array values)) (pos : 1 ≤ values.length)
    (most : values.length ≤ ScriptError.maxSteps) : Lists (.object members) values

theorem read_of_lists {value : Json} (h : Lists value values) :
    read viewport limits value =
      (readSteps viewport limits 0 .start values).map fun r => ⟨r.1⟩ := by
  cases h with
  | @intro members _ honly hsteps hpos hmost =>
    have hfind : members.find? (fun m => m.1 != ("steps" : Text)) = none :=
      List.find?_eq_none.mpr fun m hm => by simp [honly m hm]
    have hempty : values.isEmpty = false := by
      simpa using List.ne_nil_of_length_pos hpos
    simp only [read, members?, hfind, hsteps, hempty, Nat.not_lt.mpr hmost, if_false,
      Bool.false_eq_true]
    cases readSteps viewport limits 0 .start values <;> rfl

/-- The object of nothing but these steps. -/
def ofValues (values : List Json) : Json := .object [("steps", .array values)]

theorem read_ofValues (hpos : 1 ≤ values.length) (hmax : values.length ≤ ScriptError.maxSteps) :
    read viewport limits (ofValues values) =
      (readSteps viewport limits 0 .start values).map fun r => ⟨r.1⟩ :=
  read_of_lists (.intro (by simp) rfl hpos hmax)

/-- A script is refused for its first step at which it cannot be read: cut off after that step it is
refused alike, whatever comes after it, and the error is about that step. The total that a limit is
held against is the one up to there; only where a number is too long for the message there is none,
and the script fails for that. -/
theorem read_refused (hpos : 1 ≤ values.length) (hmax : values.length ≤ ScriptError.maxSteps)
    (h : read viewport limits (ofValues values) = .error f) :
    ∃ k < values.length,
      IsLeast {j | ∃ g, read viewport limits (ofValues (values.take (j + 1))) = .error g} k ∧
      read viewport limits (ofValues (values.take (k + 1))) = .error f ∧
      (∀ others, (values.take (k + 1) ++ others).length ≤ ScriptError.maxSteps →
        read viewport limits (ofValues (values.take (k + 1) ++ others)) = .error f) ∧
      ∃ e : ScriptError, f = e.failure ∧
        (e.path = ScriptError.stepPath k ∨ ScriptError.stepPath k ++ ("." : Text) <+: e.path) ∧
        (∀ j limit total, e = .frameLimit j limit total → j = k ∧ limit = limits.frames ∧
          total = ((values.take (k + 1)).map ScriptGrammar.frames).sum) ∧
        ∀ j limit count, e = .snapLimit j limit count → j = k ∧ limit = limits.snaps ∧
          count = (values.take (k + 1)).countP ScriptGrammar.isSnap := by
  have hcuts (j : Nat) : 1 ≤ (values.take (j + 1)).length ∧
      (values.take (j + 1)).length ≤ ScriptError.maxSteps := by
    rw [List.length_take]
    omega
  have hread {xs : List Json} (hone : 1 ≤ xs.length) (hxs : xs.length ≤ ScriptError.maxSteps)
      (g : ScriptFailure) : read viewport limits (ofValues xs) = .error g ↔
        readSteps viewport limits 0 .start xs = .error g := by
    rw [read_ofValues hone hxs]
    cases readSteps viewport limits 0 .start xs <;> simp [Except.map]
  obtain ⟨k, hk, hleast, hcut, e, hf, he⟩ := readSteps_refused ((hread hpos hmax f).mp h)
  rw [Nat.zero_add] at he
  have hrefused := (hread (hcuts k).1 (hcuts k).2 f).mpr hcut
  refine ⟨k, hk, ⟨⟨f, hrefused⟩, ?_⟩, hrefused, fun others hothers => ?_, e, hf, he.path, ?_, ?_⟩
  · rintro j ⟨g, hg⟩
    exact hleast j ⟨g, (hread (hcuts j).1 (hcuts j).2 g).mp hg⟩
  · have hone : 1 ≤ (values.take (k + 1) ++ others).length := by
      rw [List.length_append]
      exact Nat.le_add_right_of_le (hcuts k).1
    refine (hread hone hothers f).mpr ?_
    rw [readSteps_append, hcut]
    rfl
  · intro j limit total hlimit
    obtain ⟨hj, hl, ht⟩ := he.frames_eq hlimit
    exact ⟨hj, hl, by simpa [Progress.start] using ht⟩
  · intro j limit count hlimit
    obtain ⟨hj, hl, hc⟩ := he.snaps_eq hlimit
    exact ⟨hj, hl, by simpa [Progress.start] using hc⟩

/-- The largest integer that has a text. -/
def longest : Int := ((10 ^ digitLimit - 1 : Nat) : Int)

/-- A total of one digit too many cannot be told, so that the script fails without the error about
the step that exceeds the limit; steps after it leave that as it is. -/
theorem read_refused_of_long_total :
    let values : List Json := [.object [("run", .int 120)], .object [("run", .int longest)]]
    (ScriptError.frameLimit 1 120 (120 + longest)).failure = .number .tooManyDigits ∧
      ∀ others, others.length ≤ 62 →
        read .standard .standard (ofValues (values ++ others)) =
          .error (.number .tooManyDigits) := by
  intro values
  have hfirst : read .standard .standard (ofValues (values.take 1)) = .ok ⟨[.run 120]⟩ := by
    decide +kernel
  have h : read .standard .standard (ofValues values) = .error (.number .tooManyDigits) := by
    decide +kernel
  obtain ⟨k, hk, hleast, -, hothers, -⟩ := read_refused (by decide) (by decide) h
  have hone : k = 1 := by
    have hlt : k < 2 := hk
    have hne : k ≠ 0 := by
      rintro rfl
      obtain ⟨g, hg⟩ := hleast.1
      cases hg.symm.trans hfirst
    omega
  subst hone
  refine ⟨by decide +kernel, fun others hlength => hothers others ?_⟩
  have htwo : (values.take (1 + 1)).length = 2 := rfl
  have hmax : ScriptError.maxSteps = 64 := rfl
  rw [List.length_append]
  omega

end Script

end Replay
