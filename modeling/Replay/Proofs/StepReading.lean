import Mathlib.Algebra.Order.Ring.Int
import Replay.Proofs.Outcome
import Replay.ScriptReader

namespace Replay

theorem exists_of_getElem?_right {α β : Type} {r : α → β → Prop} {xs : List α} {ys : List β}
    (h : List.Forall₂ r xs ys) {i : Nat} {y : β} (hy : ys[i]? = some y) :
    ∃ x, xs[i]? = some x ∧ r x y := by
  obtain ⟨hi, rfl⟩ := List.getElem?_eq_some_iff.mp hy
  have hix : i < xs.length := h.length_eq ▸ hi
  exact ⟨xs[i], List.getElem?_eq_getElem hix, h.get hix hi⟩

theorem exists_of_mem_right {α β : Type} {r : α → β → Prop} {xs : List α} {ys : List β}
    (h : List.Forall₂ r xs ys) {y : β} (hy : y ∈ ys) : ∃ x ∈ xs, r x y := by
  obtain ⟨i, hi⟩ := List.mem_iff_getElem?.mp hy
  obtain ⟨x, hx, hxy⟩ := exists_of_getElem?_right h hi
  exact ⟨x, List.mem_of_getElem? hx, hxy⟩

theorem PointerAction.ofText?_eq_some_iff {t : Text} {a : PointerAction} :
    ofText? t = some a ↔ t = a.text := by
  constructor
  · intro h
    simpa [eq_comm] using List.find?_some h
  · rintro rfl
    cases a <;> decide

theorem Space.ofText?_eq_some_iff {t : Text} {s : Space} : ofText? t = some s ↔ t = s.text := by
  constructor
  · intro h
    simpa [eq_comm] using List.find?_some h
  · rintro rfl
    cases s <;> decide

theorem Emit.ofText?_eq_some_iff {t : Text} {e : Emit} : ofText? t = some e ↔ t = e.text := by
  constructor
  · intro h
    simpa [eq_comm] using List.find?_some h
  · rintro rfl
    cases e <;> decide

namespace Script

variable {viewport : Viewport} {limits : Limits} {i : Nat} {α : Type}

@[simp] theorem refuse_eq_ok_iff {e : ScriptError} {x : α} : refuse e = .ok x ↔ False := by
  unfold refuse
  split <;> simp

@[simp] theorem refuse_bind {β : Type} {e : ScriptError} {f : α → Except ScriptFailure β} :
    refuse e >>= f = refuse e := by
  unfold refuse
  split <;> rfl

/-- A check that refuses lets the rest of the reading go on only if it does not apply. -/
theorem unless_eq_ok_iff {c : Prop} [Decidable c] {e : ScriptError} {r : Except ScriptFailure α}
    {b : α} : (if c then refuse e else r) = .ok b ↔ ¬c ∧ r = .ok b := by
  by_cases h : c <;> simp [h]

theorem readInteger_eq_ok_iff {f : StepField} {value : Option Json} {n : Int} :
    readInteger i f value = .ok n ↔ ∃ x, value = some (.number x) ∧ x.toInt? = some n := by
  unfold readInteger
  split
  next x =>
    split
    next m h => simp [h]
    next h => simp [h]
  next h =>
    simp only [refuse_eq_ok_iff, false_iff]
    rintro ⟨x, hx, _⟩
    exact h x hx

theorem readFinite_eq_ok_iff {f : StepField} {value : Option Json} {x : Number} :
    readFinite i f value = .ok x ↔ value = some (.number x) ∧ x.isFinite = true := by
  unfold readFinite
  split
  next y =>
    by_cases h : y.isFinite = true
    · simp only [h, if_true, Except.ok.injEq, Option.some.injEq, Json.number.injEq]
      exact ⟨fun e => ⟨e, e ▸ h⟩, fun e => e.1⟩
    · rw [if_neg h]
      simp only [refuse_eq_ok_iff, Option.some.injEq, Json.number.injEq, false_iff]
      rintro ⟨rfl, hx⟩
      exact h hx
  next h =>
    simp only [refuse_eq_ok_iff, false_iff]
    rintro ⟨hx, _⟩
    exact h x hx

theorem readChoice_eq_ok_iff {f : StepField} {ofText? : Text → Option α} {choices : List Text}
    {value : Option Json} {a : α} :
    readChoice i f ofText? choices value = .ok a ↔
      ∃ t, value = some (.text t) ∧ ofText? t = some a := by
  unfold readChoice
  split
  next t =>
    split
    next b h => simp [h]
    next h => simp [h]
  next h =>
    simp only [refuse_eq_ok_iff, false_iff]
    rintro ⟨t, ht, _⟩
    exact h t ht

theorem checkBounds_eq_ok_iff {f : StepField} {high value : Number} {u : Unit} :
    checkBounds i f high value = .ok u ↔ value.lt (.int 0) = false ∧ high.lt value = false := by
  unfold checkBounds
  split
  next h =>
    simp only [refuse_eq_ok_iff, false_iff]
    rintro ⟨h0, h1⟩
    simp [h0, h1] at h
  next h => simpa using h

theorem readLabel_eq_ok_iff {value : Json} {label : Text} :
    readLabel i value = .ok label ↔ ∃ t, value = .text t ∧ t.trim ≠ [] ∧ label = t.trim := by
  unfold readLabel
  split
  next t =>
    by_cases h : t.trim = []
    · simp [h]
    · have he : t.trim.isEmpty = false := by simpa using h
      simp only [he, Bool.false_eq_true, if_false, Except.ok.injEq, Json.text.injEq,
        exists_eq_left']
      exact ⟨fun e => ⟨h, e.symm⟩, fun e => e.2.symm⟩
  next h =>
    simp only [refuse_eq_ok_iff, false_iff]
    rintro ⟨t, ht, _⟩
    exact h t ht

theorem totals_frames (script : Script) :
    script.totals.frames = (script.steps.map Step.frames).sum := by
  rw [totals, List.sum, List.foldr_map]

/-- The members of an object that stands for a pointer step. -/
structure PointerForm (viewport : Viewport) (members : Members Json) (step : PointerStep) :
    Prop where
  action : members.get? "action" = some (.text step.action.text)
  pointer : ∃ n, members.get? "pointerId" = some (.number n) ∧ n.toInt? = some step.pointer
  int64 : isInt64 step.pointer = true
  x : members.get? "x" = some (.number step.x)
  xFinite : step.x.isFinite = true
  y : members.get? "y" = some (.number step.y)
  yFinite : step.y.isFinite = true
  space : orDefault (members.get? "space") Space.norm01.text = some (.text step.space.text)
  emit : orDefault (members.get? "emit") Emit.both.text = some (.text step.emit.text)
  xInside : step.x.lt (.int 0) = false ∧ (bounds viewport step.space).1.lt step.x = false
  yInside : step.y.lt (.int 0) = false ∧ (bounds viewport step.space).2.lt step.y = false

theorem readPointer_eq_ok_iff {value : Json} {step : PointerStep} :
    readPointer viewport i value = .ok step ↔
      ∃ members, value = .object members ∧ PointerForm viewport members step := by
  unfold readPointer members?
  cases value with
  | object members =>
    simp only [refuse_bind, bind_eq_ok_iff, unless_eq_ok_iff]
    simp only [readChoice_eq_ok_iff, readInteger_eq_ok_iff, readFinite_eq_ok_iff,
      checkBounds_eq_ok_iff, PointerAction.ofText?_eq_some_iff, Space.ofText?_eq_some_iff,
      Emit.ofText?_eq_some_iff, Json.object.injEq, exists_eq_left']
    constructor
    · rintro ⟨action, ⟨_, ha, rfl⟩, pointer, hp, h64, x, hx, y, hy, space, ⟨_, hs, rfl⟩, emit,
        ⟨_, he, rfl⟩, _, hbx, _, hby, h⟩
      obtain rfl := Except.ok.inj h
      exact ⟨ha, hp, by simpa using h64, hx.1, hx.2, hy.1, hy.2, hs, he, hbx, hby⟩
    · intro h
      exact ⟨step.action, ⟨_, h.action, rfl⟩, step.pointer, h.pointer, by simp [h.int64], step.x,
        ⟨h.x, h.xFinite⟩, step.y, ⟨h.y, h.yFinite⟩, step.space, ⟨_, h.space, rfl⟩, step.emit,
        ⟨_, h.emit, rfl⟩, (), h.xInside, (), h.yInside, rfl⟩
  | _ => simp

/-- The form of a step: an object with one of the three kinds, whatever else it holds. -/
inductive StepForm (viewport : Viewport) : Json → Step → Prop
  | run {members : Members Json} {x : Number} {frames : Int}
      (run : members.get? "run" = some (.number x)) (input : members.get? "input" = none)
      (snap : members.get? "snap" = none) (whole : x.toInt? = some frames)
      (positive : 0 < frames) : StepForm viewport (.object members) (.run frames)
  | input {members fields : Members Json} {step : PointerStep}
      (run : members.get? "run" = none) (input : members.get? "input" = some (.object fields))
      (snap : members.get? "snap" = none) (form : PointerForm viewport fields step) :
      StepForm viewport (.object members) (.input step)
  | snap {members : Members Json} {t : Text}
      (run : members.get? "run" = none) (input : members.get? "input" = none)
      (snap : members.get? "snap" = some (.text t)) (named : t.trim ≠ []) :
      StepForm viewport (.object members) (.snap t.trim)

namespace Progress

/-- The totals with one more step. -/
def after (p : Progress) : Step → Progress
  | .run n => { p with frames := p.frames + n }
  | .input _ => { p with inputs := p.inputs + 1 }
  | .snap _ => { p with snaps := p.snaps + 1 }

/-- Whether the total that a step adds to stays within its limit. -/
def Allows (limits : Limits) (p : Progress) : Step → Prop
  | .run n => p.frames + n ≤ limits.frames
  | .input _ => p.inputs + 1 ≤ ScriptError.maxInputs
  | .snap _ => (p.snaps : Int) + 1 ≤ limits.snaps

/-- Whether all steps are allowed, one after the other. -/
def AllowsAll (limits : Limits) : Progress → List Step → Prop
  | _, [] => True
  | p, step :: rest => p.Allows limits step ∧ AllowsAll limits (p.after step) rest

/-- Whether all totals are within their limits. -/
structure Within (limits : Limits) (p : Progress) : Prop where
  frames : p.frames ≤ limits.frames
  inputs : p.inputs ≤ ScriptError.maxInputs
  snaps : p.snaps ≤ limits.snaps

theorem allows_iff_within_after {p : Progress} {step : Step} (h : p.Within limits) :
    p.Allows limits step ↔ (p.after step).Within limits := by
  cases step with
  | run n => exact ⟨fun hle => ⟨hle, h.inputs, h.snaps⟩, fun hw => hw.frames⟩
  | input step => exact ⟨fun hle => ⟨h.frames, hle, h.snaps⟩, fun hw => hw.inputs⟩
  | snap label =>
    have hcast : (((p.after (.snap label)).snaps : Nat) : Int) = (p.snaps : Int) + 1 := by
      simp [after]
    exact ⟨fun hle => ⟨h.frames, h.inputs, hcast.trans_le hle⟩,
      fun hw => hcast.symm.trans_le hw.snaps⟩

/-- No step takes anything back from the totals. -/
theorem Within.of_after {p : Progress} {step : Step} (hpos : 0 ≤ step.frames)
    (h : (p.after step).Within limits) : p.Within limits := by
  obtain ⟨hf, hi, hs⟩ := h
  cases step with
  | run n =>
    simp only [after, Step.frames] at hf hpos
    exact ⟨by omega, hi, hs⟩
  | input step =>
    simp only [after] at hi
    exact ⟨hf, by omega, hs⟩
  | snap label =>
    simp only [after] at hs
    exact ⟨hf, hi, by omega⟩

theorem Within.of_foldl {p : Progress} {steps : List Step} (hpos : ∀ step ∈ steps, 0 ≤ step.frames)
    (h : (steps.foldl after p).Within limits) : p.Within limits := by
  induction steps generalizing p with
  | nil => exact h
  | cons step rest ih =>
    exact (ih (fun s hs => hpos s (List.mem_cons_of_mem step hs)) h).of_after
      (hpos step List.mem_cons_self)

/-- The totals stay within their limits at every step if they are within them at the end. -/
theorem allowsAll_iff {p : Progress} {steps : List Step} (hp : p.Within limits)
    (hpos : ∀ step ∈ steps, 0 ≤ step.frames) :
    p.AllowsAll limits steps ↔ (steps.foldl after p).Within limits := by
  induction steps generalizing p with
  | nil => exact ⟨fun _ => hp, fun _ => trivial⟩
  | cons step rest ih =>
    have hrest := fun s hs => hpos s (List.mem_cons_of_mem step hs)
    rw [AllowsAll, allows_iff_within_after hp]
    constructor
    · rintro ⟨hw, hall⟩
      exact (ih hw hrest).mp hall
    · intro h
      have hw : (p.after step).Within limits := .of_foldl hrest h
      exact ⟨hw, (ih hw hrest).mpr h⟩

/-- The totals after some steps, counted over all of them. -/
theorem foldl_after (p : Progress) (steps : List Step) :
    steps.foldl after p = ⟨p.frames + (steps.map Step.frames).sum,
      p.inputs + steps.countP Step.isInput, p.snaps + steps.countP Step.isSnap⟩ := by
  induction steps generalizing p with
  | nil => simp
  | cons step rest ih =>
    rw [List.foldl_cons, ih]
    cases step with
    | run n => simp [after, Step.frames, Step.isInput, Step.isSnap, add_assoc]
    | input step =>
      simp [after, List.countP_cons, Step.frames, Step.isInput, Step.isSnap, Nat.add_right_comm,
        Nat.add_assoc]
    | snap label =>
      simp [after, List.countP_cons, Step.frames, Step.isInput, Step.isSnap, Nat.add_right_comm,
        Nat.add_assoc]

end Progress

theorem StepForm.frames_nonneg {value : Json} {step : Step} (h : StepForm viewport value step) :
    0 ≤ step.frames := by
  cases h with
  | run _ _ _ _ hpos => exact hpos.le
  | input => exact le_rfl
  | snap => exact le_rfl

theorem frames_nonneg_of_forms {values : List Json} {steps : List Step}
    (h : List.Forall₂ (StepForm viewport) values steps) : ∀ step ∈ steps, 0 ≤ step.frames := by
  intro step hstep
  obtain ⟨_, -, hform⟩ := exists_of_mem_right h hstep
  exact hform.frames_nonneg

theorem readRun_eq_ok_iff {p q : Progress} {value : Json} {step : Step} :
    readRun limits i p value = .ok (step, q) ↔
      ∃ x frames, value = .number x ∧ x.toInt? = some frames ∧ 0 < frames ∧ step = .run frames ∧
        p.Allows limits step ∧ q = p.after step := by
  unfold readRun
  simp only [refuse_bind, bind_eq_ok_iff, unless_eq_ok_iff, readInteger_eq_ok_iff,
    Option.some.injEq]
  constructor
  · rintro ⟨frames, ⟨x, hv, hx⟩, hpos, hle, h⟩
    obtain ⟨rfl, rfl⟩ := Prod.mk.inj (Except.ok.inj h)
    exact ⟨x, frames, hv, hx, by omega, rfl, Int.not_lt.mp hle, rfl⟩
  · rintro ⟨x, frames, hv, hx, hpos, rfl, hle, rfl⟩
    exact ⟨frames, ⟨x, hv, hx⟩, by omega, Int.not_lt.mpr hle, rfl⟩

theorem readInput_eq_ok_iff {p q : Progress} {value : Json} {step : Step} :
    readInput viewport i p value = .ok (step, q) ↔
      ∃ fields pointer, value = .object fields ∧ PointerForm viewport fields pointer ∧
        step = .input pointer ∧ p.Allows limits step ∧ q = p.after step := by
  unfold readInput
  simp only [refuse_bind, bind_eq_ok_iff, unless_eq_ok_iff, readPointer_eq_ok_iff]
  constructor
  · rintro ⟨hle, pointer, ⟨fields, hv, hf⟩, h⟩
    obtain ⟨rfl, rfl⟩ := Prod.mk.inj (Except.ok.inj h)
    exact ⟨fields, pointer, hv, hf, rfl, Nat.not_lt.mp hle, rfl⟩
  · rintro ⟨fields, pointer, hv, hf, rfl, hle, rfl⟩
    exact ⟨Nat.not_lt.mpr hle, pointer, ⟨fields, hv, hf⟩, rfl⟩

theorem readSnap_eq_ok_iff {p q : Progress} {value : Json} {step : Step} :
    readSnap limits i p value = .ok (step, q) ↔
      ∃ t, value = .text t ∧ t.trim ≠ [] ∧ step = .snap t.trim ∧ p.Allows limits step ∧
        q = p.after step := by
  unfold readSnap
  simp only [refuse_bind, bind_eq_ok_iff, unless_eq_ok_iff, readLabel_eq_ok_iff]
  constructor
  · rintro ⟨label, ⟨t, hv, ht, rfl⟩, hle, h⟩
    obtain ⟨rfl, rfl⟩ := Prod.mk.inj (Except.ok.inj h)
    exact ⟨t, hv, ht, rfl, by simpa [Progress.Allows] using hle, rfl⟩
  · rintro ⟨t, hv, ht, rfl, hle, rfl⟩
    exact ⟨t.trim, ⟨t, hv, ht, rfl⟩, by simpa [Progress.Allows] using hle, rfl⟩

/-- A step is read if it has the form of one and its total stays within its limit. -/
theorem readStep_eq_ok_iff {p q : Progress} {value : Json} {step : Step} :
    readStep viewport limits i p value = .ok (step, q) ↔
      StepForm viewport value step ∧ p.Allows limits step ∧ q = p.after step := by
  constructor
  · intro h
    unfold readStep members? at h
    cases value with
    | object members =>
      simp only at h
      split at h
      next run hr hi hs =>
        obtain ⟨x, frames, rfl, hx, hpos, rfl, hle, hq⟩ := readRun_eq_ok_iff.mp h
        exact ⟨.run hr hi hs hx hpos, hle, hq⟩
      next input hr hi hs =>
        obtain ⟨fields, pointer, rfl, hf, rfl, hle, hq⟩ :=
          (@readInput_eq_ok_iff viewport limits i p q input step).mp h
        exact ⟨.input hr hi hs hf, hle, hq⟩
      next snap hr hi hs =>
        obtain ⟨t, rfl, ht, rfl, hle, hq⟩ := readSnap_eq_ok_iff.mp h
        exact ⟨.snap hr hi hs ht, hle, hq⟩
      next => simp at h
    | _ => simp at h
  · rintro ⟨hform, hle, hq⟩
    unfold readStep members?
    cases hform with
    | run hr hi hs hx hpos =>
      simp only [hr, hi, hs]
      exact readRun_eq_ok_iff.mpr ⟨_, _, rfl, hx, hpos, rfl, hle, hq⟩
    | input hr hi hs hf =>
      simp only [hr, hi, hs]
      exact readInput_eq_ok_iff.mpr ⟨_, _, rfl, hf, rfl, hle, hq⟩
    | snap hr hi hs ht =>
      simp only [hr, hi, hs]
      exact readSnap_eq_ok_iff.mpr ⟨_, rfl, ht, rfl, hle, hq⟩

theorem readSteps_eq_ok_iff {p q : Progress} {values : List Json} {steps : List Step} :
    readSteps viewport limits i p values = .ok (steps, q) ↔
      List.Forall₂ (StepForm viewport) values steps ∧ p.AllowsAll limits steps ∧
        q = steps.foldl Progress.after p := by
  induction values generalizing i p q steps with
  | nil =>
    simp only [readSteps, Except.ok.injEq, Prod.mk.injEq, List.forall₂_nil_left_iff]
    constructor
    · rintro ⟨rfl, rfl⟩
      exact ⟨rfl, trivial, rfl⟩
    · rintro ⟨rfl, _, hq⟩
      exact ⟨rfl, hq.symm⟩
  | cons value rest ih =>
    simp only [readSteps, bind_eq_ok_iff, Prod.exists, readStep_eq_ok_iff, ih,
      List.forall₂_cons_left_iff]
    constructor
    · rintro ⟨first, _, ⟨hform, hle, rfl⟩, others, _, ⟨hforms, hall, rfl⟩, h⟩
      obtain ⟨rfl, rfl⟩ := Prod.mk.inj (Except.ok.inj h)
      exact ⟨⟨first, others, hform, hforms, rfl⟩, ⟨hle, hall⟩, rfl⟩
    · rintro ⟨⟨first, others, hform, hforms, rfl⟩, ⟨hle, hall⟩, rfl⟩
      exact ⟨first, _, ⟨hform, hle, rfl⟩, others, _, ⟨hforms, hall, rfl⟩, rfl⟩

/-- A value is read as a script if it is an object of nothing but an array of 1 to 64 steps, and
the totals stay within the limits at every step. -/
theorem read_eq_ok_iff {value : Json} {script : Script} :
    read viewport limits value = .ok script ↔
      ∃ members values, value = .object members ∧ (∀ m ∈ members, m.1 = ("steps" : Text)) ∧
        Members.get? members "steps" = some (.array values) ∧ 1 ≤ values.length ∧
        values.length ≤ ScriptError.maxSteps ∧
        List.Forall₂ (StepForm viewport) values script.steps ∧
        Progress.start.AllowsAll limits script.steps := by
  constructor
  · intro h
    unfold read members? at h
    cases value with
    | object members =>
      simp only at h
      split at h
      next m hm => simp at h
      next hm =>
        split at h
        next values hv =>
          split at h
          next he => simp at h
          next he =>
            split at h
            next hl => simp at h
            next hl =>
              split at h
              next steps q hs =>
                obtain rfl := Except.ok.inj h
                obtain ⟨hforms, hall, _⟩ := readSteps_eq_ok_iff.mp hs
                have hne : values ≠ [] := by simpa using he
                refine ⟨members, values, rfl, ?_, hv, List.length_pos_iff.mpr hne, by omega, hforms,
                  hall⟩
                intro m hmem
                simpa using List.find?_eq_none.mp hm m hmem
              next => simp at h
        next => simp at h
    | _ => simp at h
  · rintro ⟨members, values, rfl, honly, hv, hpos, hmax, hforms, hall⟩
    have hfind : members.find? (fun m => m.1 != ("steps" : Text)) = none := by
      apply List.find?_eq_none.mpr
      intro m hm
      simp [honly m hm]
    have hne : values ≠ [] := List.ne_nil_of_length_pos hpos
    have he : values.isEmpty = false := by simpa using hne
    have hs := (readSteps_eq_ok_iff (i := 0)).mpr ⟨hforms, hall, rfl⟩
    simp [read, members?, hfind, hv, he, Nat.not_lt.mpr hmax, hs]

theorem frames_nonneg_of_read {value : Json} {script : Script}
    (h : read viewport limits value = .ok script) : ∀ step ∈ script.steps, 0 ≤ step.frames := by
  obtain ⟨_, _, -, -, -, -, -, hforms, -⟩ := read_eq_ok_iff.mp h
  exact frames_nonneg_of_forms hforms

end Script

end Replay
