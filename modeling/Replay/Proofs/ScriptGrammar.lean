import Mathlib.Data.Rat.Lemmas
import Replay.Proofs.NumberValue
import Replay.Proofs.StepReading

namespace Replay

namespace ScriptGrammar

/-- The integer that a value is: an integer, or a finite double without a fraction. -/
def whole? : Json → Option Int
  | .number x => x.value?.bind fun q => if q.den = 1 then some q.num else none
  | _ => none

/-- A finite number from zero to `high`. -/
def Within (high : ℚ) (value : Option Json) : Prop :=
  ∃ x q, value = some (.number x) ∧ x.value? = some q ∧ 0 ≤ q ∧ q ≤ high

/-- The value of a member that counts as the standard one if it is missing or null. -/
def stated (fields : Members Json) (name standard : Text) : Json :=
  match fields.get? name with
  | none | some .null => .text standard
  | some value => value

/-- The members of a pointer event on a screen of the given size. -/
structure IsPointer (width height : Nat) (fields : Members Json) : Prop where
  action : ∃ t ∈ (["down", "move", "up", "cancel"] : List Text),
    fields.get? "action" = some (.text t)
  pointer : ∃ value n, fields.get? "pointerId" = some value ∧ whole? value = some n ∧
    -2 ^ 63 ≤ n ∧ n ≤ 2 ^ 63 - 1
  position :
    (stated fields "space" "norm01" = .text "norm01" ∧ Within 1 (fields.get? "x") ∧
      Within 1 (fields.get? "y")) ∨
    (stated fields "space" "norm01" = .text "pixels" ∧ Within width (fields.get? "x") ∧
      Within height (fields.get? "y"))
  emit : ∃ t ∈ (["touch", "mouse", "both"] : List Text), stated fields "emit" "both" = .text t

/-- A step is an object with exactly one of the keys `run`, `input` and `snap`. -/
inductive IsStep (width height : Nat) : Json → Prop
  | run {members : Members Json} {value : Json} {frames : Int}
      (run : members.get? "run" = some value) (input : members.get? "input" = none)
      (snap : members.get? "snap" = none) (whole : whole? value = some frames)
      (positive : 0 < frames) : IsStep width height (.object members)
  | input {members fields : Members Json} (run : members.get? "run" = none)
      (input : members.get? "input" = some (.object fields)) (snap : members.get? "snap" = none)
      (pointer : IsPointer width height fields) : IsStep width height (.object members)
  | snap {members : Members Json} {t : Text} (run : members.get? "run" = none)
      (input : members.get? "input" = none) (snap : members.get? "snap" = some (.text t))
      (named : t.trim ≠ []) : IsStep width height (.object members)

/-- The frames that a step asks for. -/
def frames (value : Json) : Int := ((value.member? "run").bind whole?).getD 0

def isSnap (value : Json) : Bool := (value.member? "snap").isSome

/-- A script is an object of nothing but an array of 1 to 64 steps, whose frames and snapshots
stay within the limits on the whole. -/
def IsScript (width height maxFrames maxSnaps : Nat) (value : Json) : Prop :=
  ∃ (members : Members Json) (values : List Json),
    value = .object members ∧ (∀ m ∈ members, m.1 = ("steps" : Text)) ∧
      members.get? "steps" = some (.array values) ∧ 1 ≤ values.length ∧ values.length ≤ 64 ∧
      (∀ v ∈ values, IsStep width height v) ∧ (values.map frames).sum ≤ maxFrames ∧
      values.countP isSnap ≤ maxSnaps

theorem whole?_eq_some_iff {value : Json} {n : Int} :
    whole? value = some n ↔ ∃ x, value = .number x ∧ x.toInt? = some n := by
  cases value with
  | number x =>
    simp only [whole?, Json.number.injEq, exists_eq_left', Number.toInt?_eq_some_iff,
      Option.bind_eq_some_iff, Option.ite_none_right_eq_some, Option.some.injEq]
    constructor
    · rintro ⟨q, hq, hd, rfl⟩
      rw [hq, (Rat.den_eq_one_iff q).mp hd]
    · intro h
      exact ⟨n, h, Rat.den_intCast n, Rat.num_intCast n⟩
  | _ => simp [whole?]

/-- The check of a coordinate against the bound of its space. -/
theorem within_iff {value : Option Json} {high : Number} {bound : ℚ}
    (hb : high.value? = some bound) :
    Within bound value ↔ ∃ x, value = some (.number x) ∧ x.isFinite = true ∧
      x.lt (.int 0) = false ∧ high.lt x = false := by
  constructor
  · rintro ⟨x, q, rfl, hq, h0, h1⟩
    refine ⟨x, rfl, Number.isFinite_iff.mpr ⟨q, hq⟩, ?_, ?_⟩
    · rw [← Bool.not_eq_true, Number.lt_iff hq (Number.value?_int 0)]
      exact_mod_cast h0.not_gt
    · rw [← Bool.not_eq_true, Number.lt_iff hb hq]
      exact h1.not_gt
  · rintro ⟨x, rfl, hf, h0, h1⟩
    obtain ⟨q, hq⟩ := Number.isFinite_iff.mp hf
    rw [← Bool.not_eq_true, Number.lt_iff hq (Number.value?_int 0)] at h0
    rw [← Bool.not_eq_true, Number.lt_iff hb hq] at h1
    exact ⟨x, q, rfl, hq, by exact_mod_cast not_lt.mp h0, not_lt.mp h1⟩

theorem orDefault_eq_stated {fields : Members Json} {name standard : Text} :
    Script.orDefault (fields.get? name) standard = some (stated fields name standard) := by
  unfold stated
  cases fields.get? name with
  | none => rfl
  | some value => cases value <;> rfl

theorem mem_actions_iff {t : Text} :
    t ∈ (["down", "move", "up", "cancel"] : List Text) ↔ ∃ a : PointerAction, t = a.text := by
  simp only [List.mem_cons, List.not_mem_nil, or_false]
  constructor
  · rintro (rfl | rfl | rfl | rfl)
    exacts [⟨.down, rfl⟩, ⟨.move, rfl⟩, ⟨.up, rfl⟩, ⟨.cancel, rfl⟩]
  · rintro ⟨a, rfl⟩
    cases a <;> simp [PointerAction.text]

theorem mem_emits_iff {t : Text} :
    t ∈ (["touch", "mouse", "both"] : List Text) ↔ ∃ e : Emit, t = e.text := by
  simp only [List.mem_cons, List.not_mem_nil, or_false]
  constructor
  · rintro (rfl | rfl | rfl)
    exacts [⟨.touch, rfl⟩, ⟨.mouse, rfl⟩, ⟨.both, rfl⟩]
  · rintro ⟨e, rfl⟩
    cases e <;> simp [Emit.text]

theorem isInt64_iff {n : Int} : Script.isInt64 n = true ↔ -2 ^ 63 ≤ n ∧ n ≤ 2 ^ 63 - 1 := by
  simp only [Script.isInt64, Bool.and_eq_true, decide_eq_true_eq]
  omega

section

variable {width height : Nat} {dpr : Number}

/-- The reader's view of a pointer event agrees with the grammar. -/
theorem isPointer_iff {fields : Members Json} :
    IsPointer width height fields ↔
      ∃ step, Script.PointerForm ⟨.int width, .int height, dpr⟩ fields step := by
  have hone : (Number.int 1).value? = some (1 : ℚ) := by simp
  have hwidth : (Number.int width).value? = some (width : ℚ) := by simp
  have hheight : (Number.int height).value? = some (height : ℚ) := by simp
  constructor
  · rintro ⟨⟨_, ht, ha⟩, ⟨_, n, hp, hn, h64⟩, hpos, ⟨_, hu, he⟩⟩
    obtain ⟨action, rfl⟩ := mem_actions_iff.mp ht
    obtain ⟨emit, rfl⟩ := mem_emits_iff.mp hu
    obtain ⟨m, rfl, hm⟩ := whole?_eq_some_iff.mp hn
    have hemit : Script.orDefault (fields.get? "emit") Emit.both.text = some (.text emit.text) :=
      orDefault_eq_stated.trans (congrArg some he)
    rcases hpos with ⟨hs, hx, hy⟩ | ⟨hs, hx, hy⟩
    · obtain ⟨x, hx, hxf, hxb⟩ := (within_iff hone).mp hx
      obtain ⟨y, hy, hyf, hyb⟩ := (within_iff hone).mp hy
      exact ⟨⟨action, n, x, y, .norm01, emit⟩, ha, ⟨m, hp, hm⟩, isInt64_iff.mpr h64, hx, hxf, hy,
        hyf, orDefault_eq_stated.trans (congrArg some hs), hemit, hxb, hyb⟩
    · obtain ⟨x, hx, hxf, hxb⟩ := (within_iff hwidth).mp hx
      obtain ⟨y, hy, hyf, hyb⟩ := (within_iff hheight).mp hy
      exact ⟨⟨action, n, x, y, .pixels, emit⟩, ha, ⟨m, hp, hm⟩, isInt64_iff.mpr h64, hx, hxf, hy,
        hyf, orDefault_eq_stated.trans (congrArg some hs), hemit, hxb, hyb⟩
  · rintro ⟨⟨action, n, x, y, space, emit⟩, h⟩
    obtain ⟨m, hp, hm⟩ := h.pointer
    refine ⟨⟨_, mem_actions_iff.mpr ⟨_, rfl⟩, h.action⟩,
      ⟨_, n, hp, whole?_eq_some_iff.mpr ⟨m, rfl, hm⟩, isInt64_iff.mp h.int64⟩, ?_,
      ⟨_, mem_emits_iff.mpr ⟨_, rfl⟩, Option.some.inj (orDefault_eq_stated.symm.trans h.emit)⟩⟩
    have hs := Option.some.inj (orDefault_eq_stated.symm.trans h.space)
    cases space with
    | norm01 =>
      exact Or.inl ⟨hs, (within_iff hone).mpr ⟨x, h.x, h.xFinite, h.xInside⟩,
        (within_iff hone).mpr ⟨y, h.y, h.yFinite, h.yInside⟩⟩
    | pixels =>
      exact Or.inr ⟨hs, (within_iff hwidth).mpr ⟨x, h.x, h.xFinite, h.xInside⟩,
        (within_iff hheight).mpr ⟨y, h.y, h.yFinite, h.yInside⟩⟩

theorem isStep_iff {value : Json} :
    IsStep width height value ↔
      ∃ step, Script.StepForm ⟨.int width, .int height, dpr⟩ value step := by
  constructor
  · rintro (⟨hr, hi, hs, hw, hpos⟩ | ⟨hr, hi, hs, hp⟩ | ⟨hr, hi, hs, ht⟩)
    · obtain ⟨x, rfl, hx⟩ := whole?_eq_some_iff.mp hw
      exact ⟨_, .run hr hi hs hx hpos⟩
    · obtain ⟨step, hf⟩ := isPointer_iff.mp hp
      exact ⟨_, .input hr hi hs hf⟩
    · exact ⟨_, .snap hr hi hs ht⟩
  · rintro ⟨step, ⟨hr, hi, hs, hx, hpos⟩ | ⟨hr, hi, hs, hf⟩ | ⟨hr, hi, hs, ht⟩⟩
    · exact .run hr hi hs (whole?_eq_some_iff.mpr ⟨_, rfl, hx⟩) hpos
    · exact .input hr hi hs (isPointer_iff.mpr ⟨_, hf⟩)
    · exact .snap hr hi hs ht

end

/-- What a step adds to the totals can be read off its value. -/
theorem frames_eq {viewport : Viewport} {value : Json} {step : Step}
    (h : Script.StepForm viewport value step) :
    frames value = step.frames ∧ isSnap value = step.isSnap := by
  cases h with
  | @run members x n hr hi hs hx hpos =>
    have hw : whole? (.number x) = some n := whole?_eq_some_iff.mpr ⟨x, rfl, hx⟩
    simp [frames, isSnap, Json.member?, hr, hs, hw, Step.frames, Step.isSnap]
  | input hr hi hs hf => simp [frames, isSnap, Json.member?, hr, hs, Step.frames, Step.isSnap]
  | snap hr hi hs ht => simp [frames, isSnap, Json.member?, hr, hs, Step.frames, Step.isSnap]

theorem totals_eq {viewport : Viewport} {values : List Json} {steps : List Step}
    (h : List.Forall₂ (Script.StepForm viewport) values steps) :
    (values.map frames).sum = (steps.map Step.frames).sum ∧
      values.countP isSnap = steps.countP Step.isSnap := by
  induction h with
  | nil => exact ⟨rfl, rfl⟩
  | cons hform _ ih =>
    obtain ⟨hf, hs⟩ := frames_eq hform
    simp only [List.map_cons, List.sum_cons, List.countP_cons, hf, hs, ih.1, ih.2, and_self]

section

variable {viewport : Viewport} {limits : Limits} {values : List Json} {steps : List Step}

/-- The check of all running totals is one of the totals of the whole script. The number of pointer
events needs no check of its own, as there are fewer steps than would exceed it. -/
theorem allowsAll_iff (hframes : 0 ≤ limits.frames) (hsnaps : 0 ≤ limits.snaps)
    (hmax : values.length ≤ ScriptError.maxSteps)
    (hforms : List.Forall₂ (Script.StepForm viewport) values steps) :
    Script.Progress.start.AllowsAll limits steps ↔
      (values.map frames).sum ≤ limits.frames ∧
        (values.countP isSnap : Int) ≤ limits.snaps := by
  have hstart : Script.Progress.start.Within limits := ⟨hframes, by decide, hsnaps⟩
  have hpos : ∀ step ∈ steps, 0 ≤ step.frames := Script.frames_nonneg_of_forms hforms
  have hinputs : steps.countP Step.isInput ≤ ScriptError.maxInputs :=
    calc steps.countP Step.isInput ≤ steps.length := List.countP_le_length
      _ = values.length := hforms.length_eq.symm
      _ ≤ ScriptError.maxSteps := hmax
      _ ≤ ScriptError.maxInputs := by decide
  obtain ⟨hf, hs⟩ := totals_eq hforms
  rw [Script.Progress.allowsAll_iff hstart hpos, Script.Progress.foldl_after, hf, hs]
  constructor
  · intro h
    exact ⟨by simpa [Script.Progress.start] using h.frames,
      by simpa [Script.Progress.start] using h.snaps⟩
  · rintro ⟨hf, hs⟩
    exact ⟨by simpa [Script.Progress.start] using hf,
      by simpa [Script.Progress.start] using hinputs,
      by simpa [Script.Progress.start] using hs⟩

/-- Each value that has the form of a step is some step. -/
theorem exists_forall₂_of_forall {α β : Type} {r : α → β → Prop} {xs : List α}
    (h : ∀ x ∈ xs, ∃ y, r x y) : ∃ ys, List.Forall₂ r xs ys := by
  induction xs with
  | nil => exact ⟨[], .nil⟩
  | cons x xs ih =>
    obtain ⟨y, hy⟩ := h x List.mem_cons_self
    obtain ⟨ys, hys⟩ := ih fun z hz => h z (List.mem_cons_of_mem x hz)
    exact ⟨y :: ys, .cons hy hys⟩

end

end ScriptGrammar

/-- A value is read as a script exactly if it is one by the grammar. -/
theorem Script.read_isOk_iff (width height maxFrames maxSnaps : Nat) (dpr : Number) (value : Json) :
    (∃ script, read ⟨.int width, .int height, dpr⟩ ⟨maxFrames, maxSnaps⟩ value = .ok script) ↔
      ScriptGrammar.IsScript width height maxFrames maxSnaps value := by
  simp only [read_eq_ok_iff]
  have hf : (0 : Int) ≤ maxFrames := Int.natCast_nonneg maxFrames
  have hs : (0 : Int) ≤ maxSnaps := Int.natCast_nonneg maxSnaps
  constructor
  · rintro ⟨⟨steps⟩, members, values, hv, honly, hsteps, hpos, hmax, hforms, hall⟩
    obtain ⟨hframes, hsnaps⟩ := (ScriptGrammar.allowsAll_iff hf hs hmax hforms).mp hall
    refine ⟨members, values, hv, honly, hsteps, hpos, hmax, ?_, hframes, Int.ofNat_le.mp hsnaps⟩
    intro v hmem
    obtain ⟨step, _, hform⟩ := exists_of_mem_right hforms.flip hmem
    exact ScriptGrammar.isStep_iff.mpr ⟨step, hform⟩
  · rintro ⟨members, values, hv, honly, hsteps, hpos, hmax, hform, hframes, hsnaps⟩
    obtain ⟨steps, hforms⟩ := ScriptGrammar.exists_forall₂_of_forall fun v hv =>
      ScriptGrammar.isStep_iff.mp (hform v hv)
    exact ⟨⟨steps⟩, members, values, hv, honly, hsteps, hpos, hmax, hforms,
      (ScriptGrammar.allowsAll_iff hf hs hmax hforms).mpr ⟨hframes, Int.ofNat_le.mpr hsnaps⟩⟩

end Replay
