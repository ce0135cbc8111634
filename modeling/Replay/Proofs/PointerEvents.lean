import Mathlib.Tactic.NormNum
import Replay.Proofs.CallLog
import Replay.Proofs.ReplayTrace
import Replay.Proofs.Rounding
import Replay.Proofs.ScriptGrammar

namespace Replay

variable {σ : Type}

namespace Number

/-- A number that is not below zero and not above another one, by its value. -/
theorem value_of_inside {x high : Number} {h : ℚ} (hfinite : x.isFinite = true)
    (hhigh : high.value? = some h) (hin : x.lt (.int 0) = false ∧ high.lt x = false) :
    ∃ a, x.value? = some a ∧ 0 ≤ a ∧ a ≤ h := by
  obtain ⟨a, ha⟩ := isFinite_iff.mp hfinite
  have hzero : (Number.int 0).value? = some 0 := by simp
  refine ⟨a, ha, ?_, ?_⟩
  · refine not_lt.mp fun hlt => ?_
    rw [(lt_iff ha hzero).mpr hlt] at hin
    exact absurd hin.1 (by decide)
  · refine not_lt.mp fun hlt => ?_
    rw [(lt_iff hhigh ha).mpr hlt] at hin
    exact absurd hin.2 (by decide)

/-- The units of a double from zero to one. -/
theorem units_of_unit {s : Bool} {u : Nat} (h0 : (0 : ℚ) ≤ Double.signed s u / Double.one)
    (h1 : (Double.signed s u / Double.one : ℚ) ≤ 1) : (s = true → u = 0) ∧ u ≤ Double.one := by
  have hone := Double.one_pos
  rw [le_div_iff₀ hone, zero_mul] at h0
  rw [div_le_iff₀ hone, one_mul] at h1
  have h0 : 0 ≤ Double.signed s u := by exact_mod_cast h0
  have h1 : Double.signed s u ≤ (Double.one : Int) := by exact_mod_cast h1
  generalize Double.one = k at h1 ⊢
  cases s with
  | false =>
    have h1 : (u : Int) ≤ k := h1
    exact ⟨fun h => absurd h (by decide), by omega⟩
  | true =>
    have h0 : 0 ≤ -(u : Int) := h0
    have hu : u = 0 := by omega
    exact ⟨fun _ => hu, hu ▸ Nat.zero_le k⟩

/-- A fraction of a length, as it is rounded: it is not beyond a length that is a double. -/
theorem mul_length {x y : Number} {a : ℚ} {n : Nat} (ha : x.value? = some a) (h0 : 0 ≤ a)
    (h1 : a ≤ 1) (hmul : x.mul (.int n) = .ok y) :
    ∃ r, y.value? = some r ∧ 0 ≤ r ∧ (r = a * n ∨ n ≤ 2 ^ 53 → r ≤ n) := by
  have hexact : a * n ≤ n := by
    calc a * n ≤ 1 * n := mul_le_mul_of_nonneg_right h1 (Nat.cast_nonneg n)
      _ = n := one_mul _
  cases x with
  | int m =>
    obtain rfl := Except.ok.inj hmul
    obtain rfl := Option.some.inj ha
    have hvalue : ((m * (n : Int) : Int) : ℚ) = (m : ℚ) * n := by push_cast; ring
    refine ⟨(m * (n : Int) : Int), rfl, ?_, fun _ => ?_⟩
    · rw [hvalue]
      exact mul_nonneg h0 (Nat.cast_nonneg n)
    · rw [hvalue]
      exact hexact
  | real x =>
    obtain ⟨x', hx, hmul⟩ := bind_eq_ok_iff.mp hmul
    obtain ⟨d, hd, hmul⟩ := bind_eq_ok_iff.mp hmul
    obtain rfl := Except.ok.inj hx
    obtain rfl := Except.ok.inj hmul
    obtain ⟨s, u, rfl, rfl⟩ := Double.value?_eq_some_iff.mp ha
    obtain ⟨rfl, hfits⟩ := toDouble_natCast hd
    obtain ⟨hzero, hone⟩ := units_of_unit h0 h1
    generalize hv : Double.nearest (n * Double.one) 1 = v at hfits
    have hkept : Double.IsKept v := hv ▸ Double.isKept_nearest Nat.one_pos
    have hle : Double.nearest (u * v) Double.one ≤ v := by
      refine Double.nearest_le Double.units_pos hkept ?_
      rw [Nat.mul_comm v]
      exact Nat.mul_le_mul_right v hone
    have hproduct : (Double.finite s u).mul (.finite false v) =
        .finite (s != false) (Double.nearest (u * v) Double.one) := by
      rw [Double.mul, Double.ofUnits_of_lt _ (Nat.lt_of_le_of_lt hle hfits)]
    have hnone : s = true → Double.nearest (u * v) Double.one = 0 := by
      intro hs
      rw [hzero hs, Nat.zero_mul]
      exact Nat.le_zero.mp (Double.nearest_le Double.units_pos (Double.isKept_of_lt (by decide))
        (Nat.zero_le _))
    rw [hproduct]
    generalize Double.nearest (u * v) Double.one = r at hle hnone ⊢
    have hvalue : (Double.signed (s != false) r : Int) = (r : Int) := by
      cases s with
      | false => rfl
      | true =>
        rw [hnone rfl]
        rfl
    refine ⟨(Double.signed (s != false) r : Int) / Double.one, rfl, ?_, ?_⟩
    · rw [hvalue, Int.cast_natCast]
      exact div_nonneg (Nat.cast_nonneg r) Double.one_pos.le
    · rintro (heq | hshort)
      · rw [heq]
        exact hexact
      · rw [hvalue, div_le_iff₀ Double.one_pos]
        rw [nearest_natCast hshort] at hv
        rw [Int.cast_natCast, ← Nat.cast_mul, hv]
        exact Nat.cast_le.mpr hle

end Number

/-- The event that a call hands over. -/
def HostCall.event? : HostCall → Option Event
  | applyInput e => some e
  | _ => none

def Step.pointer? : Step → Option PointerStep
  | input step => some step
  | _ => none

/-- The pointer steps of a script, in order. -/
def Script.pointers (script : Script) : List PointerStep := script.steps.filterMap Step.pointer?

namespace HostCall

variable {viewport : Viewport}

/-- The calls of steps hand over the events of the first pointer steps. -/
theorem events_ofSteps (viewport : Viewport) (steps : List Step) :
    ∃ n, List.Forall₂ (fun step e => Event.ofStep viewport step = .ok e)
      ((steps.filterMap Step.pointer?).take n) ((ofSteps viewport steps).filterMap event?) := by
  induction steps with
  | nil => exact ⟨0, .nil⟩
  | cons step rest ih =>
    obtain ⟨n, hn⟩ := ih
    cases step with
    | run frames => exact ⟨n, hn⟩
    | snap label => exact ⟨n, hn⟩
    | input step =>
      cases he : Event.ofStep viewport step with
      | ok e =>
        have hcall : ofStep viewport (.input step) = .ok (.applyInput e) := by
          rw [ofStep, he]
          rfl
        refine ⟨n + 1, ?_⟩
        rw [ofSteps, hcall]
        exact .cons he hn
      | error e =>
        have hcall : ofStep viewport (.input step) = .error e := by
          rw [ofStep, he]
          rfl
        refine ⟨0, ?_⟩
        rw [ofSteps, hcall]
        exact .nil

end HostCall

namespace Driver

/-- Whatever becomes of a replay, the driver has received first ones of the calls of the script. -/
theorem received_starts (driver : Driver σ) (budget : Budget) (viewport : Viewport)
    (script : Script) (start : Timed σ) :
    driver.received budget viewport script start <+:
      HostCall.ofSteps viewport script.steps ++ [.readFrameCount] := by
  obtain ⟨made, hmade, hcalls, -⟩ := replay_makes (recorded_notes driver) budget viewport script
    ⟨⟨start.host, []⟩, start.clock⟩
  have hreceived : driver.received budget viewport script start = made := hcalls
  rw [hreceived]
  exact hmade

end Driver

/-- What a coordinate of the space is multiplied by on an axis of the length. -/
def Space.scale (space : Space) (length : Nat) : ℚ :=
  match space with
  | norm01 => length
  | pixels => 1

/-- A coordinate is shown on an axis of the length by a number that is not below zero. In exact
arithmetic it is not beyond the length; as it is rounded it is not beyond a length that is a
double. -/
def Space.Shows (space : Space) (length : Nat) (given shown : Number) : Prop :=
  ∃ a r : ℚ, given.value? = some a ∧ shown.value? = some r ∧ 0 ≤ r ∧
    0 ≤ a * space.scale length ∧ a * space.scale length ≤ length ∧
    (r = a * space.scale length ∨ length ≤ 2 ^ 53 → r ≤ length)

namespace Event

/-- The event is that of the step, and it is well formed on a screen of the size. -/
structure Answers (width height : Nat) (step : PointerStep) (e : Event) : Prop where
  action : e.action = step.action.text
  pointer : e.pointer = step.pointer
  source : e.source = step.emit.text
  known : e.action ∈ (["down", "move", "up", "cancel"] : List Text)
  int64 : -2 ^ 63 ≤ e.pointer ∧ e.pointer ≤ 2 ^ 63 - 1
  devices : e.source ∈ (["touch", "mouse", "both"] : List Text)
  x : step.space.Shows width step.x e.position.x
  y : step.space.Shows height step.y e.position.y

variable {viewport : Viewport} {width height : Nat}

/-- A coordinate between the bounds of its space is shown on its axis. -/
theorem shows_of_inside {space : Space} {length : Nat} {high given shown : Number}
    (hfinite : given.isFinite = true)
    (hin : given.lt (.int 0) = false ∧ high.lt given = false)
    (hspace : (space = .pixels ∧ high = .int length ∧ shown = given) ∨
      (space = .norm01 ∧ high = .int 1 ∧ given.mul (.int length) = .ok shown)) :
    space.Shows length given shown := by
  rcases hspace with ⟨rfl, rfl, rfl⟩ | ⟨rfl, rfl, hmul⟩
  · obtain ⟨a, ha, h0, hle⟩ := Number.value_of_inside hfinite (Number.value?_int length) hin
    have hscale : a * Space.scale .pixels length = a := mul_one a
    have hle : a ≤ length := by simpa using hle
    refine ⟨a, a, ha, ha, h0, ?_, ?_, fun _ => hle⟩
    · rwa [hscale]
    · rwa [hscale]
  · obtain ⟨a, ha, h0, h1⟩ := Number.value_of_inside hfinite (Number.value?_int 1) hin
    have h1 : a ≤ 1 := by simpa using h1
    obtain ⟨r, hr, hr0, hbound⟩ := Number.mul_length ha h0 h1 hmul
    have hlength : (0 : ℚ) ≤ length := Nat.cast_nonneg length
    refine ⟨a, r, ha, hr, hr0, mul_nonneg h0 hlength, ?_, hbound⟩
    calc a * Space.scale .norm01 length ≤ 1 * length := mul_le_mul_of_nonneg_right h1 hlength
      _ = length := one_mul _

theorem answers_of_form {fields : Members Json} {step : PointerStep} {e : Event}
    (hwidth : viewport.width = .int width) (hheight : viewport.height = .int height)
    (hform : Script.PointerForm viewport fields step) (he : ofStep viewport step = .ok e) :
    e.Answers width height step := by
  obtain ⟨position, hposition, he⟩ := bind_eq_ok_iff.mp he
  obtain rfl := Except.ok.inj he
  have hint : -2 ^ 63 ≤ step.pointer ∧ step.pointer ≤ 2 ^ 63 - 1 := by
    have h64 := hform.int64
    simp only [Script.isInt64, Bool.and_eq_true, decide_eq_true_eq] at h64
    omega
  have hknown : step.action.text ∈ (["down", "move", "up", "cancel"] : List Text) := by
    cases step.action <;> decide
  have hdevices : step.emit.text ∈ (["touch", "mouse", "both"] : List Text) := by
    cases step.emit <;> decide
  have hx := hform.xInside
  have hy := hform.yInside
  have hshown : step.space.Shows width step.x position.x ∧
      step.space.Shows height step.y position.y := by
    cases hs : step.space with
    | pixels =>
      rw [hs] at hposition hx hy
      obtain rfl := Except.ok.inj hposition
      exact ⟨shows_of_inside hform.xFinite hx (.inl ⟨rfl, hwidth, rfl⟩),
        shows_of_inside hform.yFinite hy (.inl ⟨rfl, hheight, rfl⟩)⟩
    | norm01 =>
      rw [hs] at hposition hx hy
      obtain ⟨x, hxmul, hposition⟩ := bind_eq_ok_iff.mp hposition
      obtain ⟨y, hymul, hposition⟩ := bind_eq_ok_iff.mp hposition
      obtain rfl := Except.ok.inj hposition
      exact ⟨shows_of_inside hform.xFinite hx (.inr ⟨rfl, rfl, hwidth ▸ hxmul⟩),
        shows_of_inside hform.yFinite hy (.inr ⟨rfl, rfl, hheight ▸ hymul⟩)⟩
  exact ⟨rfl, rfl, rfl, hknown, hint, hdevices, hshown.1, hshown.2⟩

end Event

/-- The pointer steps of a script that is accepted have the form of one. -/
theorem Script.form_of_mem_pointers {viewport : Viewport} {limits : Limits} {input : Json}
    {script : Script} (hread : read viewport limits input = .ok script) {step : PointerStep}
    (hstep : step ∈ script.pointers) : ∃ fields, PointerForm viewport fields step := by
  obtain ⟨_, hmem, hpointer⟩ := List.mem_filterMap.mp hstep
  obtain ⟨members, values, -, -, -, -, -, hforms, -⟩ := read_eq_ok_iff.mp hread
  obtain ⟨value, -, hform⟩ := exists_of_mem_right hforms hmem
  cases hform with
  | run => cases hpointer
  | snap => cases hpointer
  | input _ _ _ hfields =>
    obtain rfl := Option.some.inj hpointer
    exact ⟨_, hfields⟩

/-- Every event that a driver receives is that of a pointer step of the accepted script, one for
each of the first ones and in their order, and it is well formed, whatever the driver answers and
whenever the replay ends. -/
theorem Driver.received_events (driver : Driver σ) (budget : Budget) {viewport : Viewport}
    {limits : Limits} {input : Json} {script : Script} {width height : Nat} (start : Timed σ)
    (hread : Script.read viewport limits input = .ok script)
    (hwidth : viewport.width = .int width) (hheight : viewport.height = .int height) :
    ∃ n, List.Forall₂ (Event.Answers width height) (script.pointers.take n)
      ((driver.received budget viewport script start).filterMap HostCall.event?) := by
  obtain ⟨n, hn⟩ := HostCall.events_ofSteps viewport script.steps
  have hfirst := (received_starts driver budget viewport script start).filterMap HostCall.event?
  rw [List.filterMap_append] at hfirst
  have hlast : [HostCall.readFrameCount].filterMap HostCall.event? = [] := rfl
  rw [hlast, List.append_nil, List.prefix_iff_eq_take] at hfirst
  rw [hfirst]
  generalize ((driver.received budget viewport script start).filterMap HostCall.event?).length = k
  have htaken := List.forall₂_take k hn
  rw [List.take_take] at htaken
  refine ⟨min k n, ?_⟩
  have hforms : ∀ step ∈ script.pointers.take (min k n),
      ∃ fields, Script.PointerForm viewport fields step := fun step hstep =>
    Script.form_of_mem_pointers hread (List.mem_of_mem_take hstep)
  refine List.Forall₂.imp ?_ ((List.forall₂_and_left (p := fun step => ∃ fields,
    Script.PointerForm viewport fields step) _ _).mpr ⟨hforms, htaken⟩)
  rintro step e ⟨⟨fields, hform⟩, he⟩
  exact Event.answers_of_form hwidth hheight hform he

/-- A touch at the far corner of the screen is an event at its last point. -/
theorem Driver.received_events_of_corner :
    let driver := Rehearsal.driver ⟨.null, none, none, none⟩
    let script : Script := ⟨[.run 1, .input ⟨.down, 7, .int 1, .int 1, .norm01, .touch⟩]⟩
    let received := driver.received Timing.standardBudget .standard script
      ⟨⟨.int 0, []⟩, .ofReadings fun _ => .int 0⟩
    received.filterMap HostCall.event? = [⟨"down", 7, ⟨.int 360, .int 640⟩, "touch"⟩] ∧
      ∃ n, List.Forall₂ (Event.Answers 360 640) (script.pointers.take n)
        (received.filterMap HostCall.event?) := by
  intro driver script received
  have hread : Script.read .standard .standard script.payload = .ok script := by decide +kernel
  exact ⟨rfl, driver.received_events Timing.standardBudget _ hread rfl rfl⟩

end Replay
