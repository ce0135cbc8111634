import Replay.Proofs.HostCalls
import Replay.Proofs.NumberValue

namespace Replay

variable {σ τ κ : Type}

/-- A product that is finite has finite factors, and a finite number has an integer part. -/
theorem Number.truncate_of_mul {x y z : Number} {q : ℚ} (h : x.mul z = .ok y)
    (hy : y.value? = some q) : ∃ n, x.truncate = .ok n := by
  cases x with
  | int n => exact ⟨n, rfl⟩
  | real x =>
    have hd : (do
        let x ← (real x).toDouble
        let z ← z.toDouble
        pure (real (x.mul z))) = Except.ok y := by cases z <;> exact h
    obtain ⟨x', hx, hd⟩ := bind_eq_ok_iff.mp hd
    obtain ⟨z', -, hd⟩ := bind_eq_ok_iff.mp hd
    obtain rfl : x = x' := Except.ok.inj hx
    obtain rfl : real (x.mul z') = y := Except.ok.inj hd
    cases x with
    | nan => simp [value?, Double.value?, Double.mul] at hy
    | infinity s =>
      cases z' with
      | nan => simp [value?, Double.value?, Double.mul] at hy
      | infinity t => simp [value?, Double.value?, Double.mul] at hy
      | finite t v => by_cases hv : v = 0 <;> simp [value?, Double.value?, Double.mul, hv] at hy
    | finite s u => exact ⟨_, rfl⟩

/-- Finite readings of a clock whose distances from the first one are exact. -/
structure ExactReadings (clock : Nat → Number) (reading : Nat → ℚ) : Prop where
  value : ∀ k, (clock k).value? = some (reading k)
  elapsed : ∀ k, ∃ d, (clock (k + 1)).sub (clock 0) = .ok d ∧
    d.value? = some (reading (k + 1) - reading 0)

/-- At the check ahead of step `k` more than `most` has passed since the start. -/
def Late (reading : Nat → ℚ) (most : ℚ) (k : Nat) : Prop := most < reading (k + 1) - reading 0

theorem Timed.onHost_apply {α : Type} (a : Action σ α) (s : σ) (c : Clock Number) :
    Timed.onHost a ⟨s, c⟩ = ((a s).1, ⟨(a s).2, c⟩) := rfl

namespace Timing

variable {clock : Nat → Number} {reading : Nat → ℚ} {budget : Budget} {most : Number} {b : ℚ}
  {k : Nat}

theorem begin_apply (hm : budget.seconds.mul (.int 1000) = .ok most) (s : σ) :
    (Timing.begin budget : Action (Timed σ) Timing) ⟨s, .ofReadings clock⟩ =
      (.ok ⟨clock 0, budget, most⟩, ⟨s, clock, 1⟩) := by
  rw [Timing.begin, hm]
  rfl

theorem check_apply (t : Timing) (s : σ) (i : Nat) :
    t.check k ⟨s, clock, i⟩ = (t.judge k (clock i), ⟨s, clock, i + 1⟩) := rfl

theorem judge_in_time (budget : Budget) (hc : ExactReadings clock reading)
    (hb : most.value? = some b) (hk : ¬ Late reading b k) :
    (⟨clock 0, budget, most⟩ : Timing).judge k (clock (k + 1)) = .ok () := by
  obtain ⟨d, hd, hv⟩ := hc.elapsed k
  have hle : d.le most = true := (Number.le_iff hv hb).mpr (not_lt.mp hk)
  simp [judge, hd, hle]

theorem judge_late (hc : ExactReadings clock reading)
    (hm : budget.seconds.mul (.int 1000) = .ok most) (hb : most.value? = some b)
    (hk : Late reading b k) :
    ∃ o : Overrun,
      (⟨clock 0, budget, most⟩ : Timing).judge k (clock (k + 1)) = .error (.overrun o) ∧
      o.step = k ∧ o.budget = budget.seconds ∧
      o.elapsed.value? = some (reading (k + 1) - reading 0) := by
  obtain ⟨d, hd, hv⟩ := hc.elapsed k
  obtain ⟨n, hn⟩ := Number.truncate_of_mul hm hb
  have hle : ¬ d.le most = true := fun h => absurd ((Number.le_iff hv hb).mp h) (not_le.mpr hk)
  exact ⟨⟨k, budget.seconds, n, d⟩, by simp [judge, hd, hle, hn], rfl, rfl, hv⟩

end Timing

namespace Driver

variable {driver : Driver σ} {timing : Timing} {viewport : Viewport} {steps : List Step}
  {calls : List HostCall} {clock : Nat → Number} {s t : σ} {l : List HostCall} {i m : Nat}
  {first : Step} {rest : List Step}

/-- The calls that the driver receives while the script is replayed. -/
def received (driver : Driver σ) (budget : Budget) (viewport : Viewport) (script : Script)
    (start : Timed σ) : List HostCall :=
  (driver.recorded.replay budget viewport script ⟨⟨start.host, []⟩, start.clock⟩).2.host.calls

theorem replay_of_recorded {budget : Budget} {script : Script} {r : Except Failure Execution}
    {c c' : Clock Number}
    (h : driver.recorded.replay budget viewport script ⟨⟨s, []⟩, c⟩ = (r, ⟨⟨t, l⟩, c'⟩)) :
    driver.replay budget viewport script ⟨s, c⟩ = (r, ⟨t, c'⟩) ∧
      driver.received budget viewport script ⟨s, c⟩ = l := by
  obtain ⟨hr, hs⟩ := replay_follows driver.recorded_follows budget viewport script
    ⟨⟨s, []⟩, c⟩
  rw [h] at hr hs
  refine ⟨Prod.ext hr.symm hs.symm, ?_⟩
  rw [received, h]

theorem performSteps_of_error {e : Failure} (h : timing.judge i (clock (i + 1)) = .error e) :
    driver.performSteps timing viewport i steps ⟨s, clock, i + 1⟩ =
      (.error e, ⟨s, clock, i + 2⟩) := by
  cases steps <;> rw [performSteps, Action.bind_apply, Timing.check_apply, h]

theorem performSteps_nil_of_ok (h : timing.judge i (clock (i + 1)) = .ok ()) :
    driver.performSteps timing viewport i [] ⟨s, clock, i + 1⟩ =
      (.ok [], ⟨s, clock, i + 2⟩) := by
  rw [performSteps, Action.bind_apply, Timing.check_apply, h]
  rfl

/-- After a step that is carried out in time the rest of the steps follow. -/
theorem performSteps_cons_of_ok {shot : Option LabelledSnapshot}
    (h : timing.judge i (clock (i + 1)) = .ok ())
    (hstep : driver.performStep viewport first s = (.ok shot, t)) :
    driver.performSteps timing viewport i (first :: rest) ⟨s, clock, i + 1⟩ =
      ((shot.toList ++ ·) <$> driver.performSteps timing viewport (i + 1) rest)
        ⟨t, clock, i + 2⟩ := by
  rw [performSteps, Action.bind_apply, Timing.check_apply, h]
  show (Timed.onHost _ >>= _) _ = _
  rw [Action.bind_apply, Timed.onHost_apply, hstep]
  rfl

theorem performSteps_cons_of_error {e : Failure} (h : timing.judge i (clock (i + 1)) = .ok ())
    (hstep : driver.performStep viewport first s = (.error e, t)) :
    driver.performSteps timing viewport i (first :: rest) ⟨s, clock, i + 1⟩ =
      (.error e, ⟨t, clock, i + 2⟩) := by
  rw [performSteps, Action.bind_apply, Timing.check_apply, h]
  show (Timed.onHost _ >>= _) _ = _
  rw [Action.bind_apply, Timed.onHost_apply, hstep]

/-- A driver on larger states that does, in a part of them, what another driver does, and adds to a
list an entry for each call that is carried out. -/
structure Lists (viewport : Viewport) (part : τ → σ) (list : τ → List κ) (entry : HostCall → κ)
    (larger : Driver τ) (driver : Driver σ) : Prop where
  performStep : ∀ {step call u}, HostCall.ofStep viewport step = .ok call →
    (driver.obey call (part u)).1 = .ok () →
    ∃ shot v, larger.performStep viewport step u = (.ok shot, v) ∧
      part v = (driver.obey call (part u)).2 ∧ list v = list u ++ [entry call]

theorem recorded_lists (driver : Driver σ) (viewport : Viewport) :
    driver.recorded.Lists viewport Recorded.host Recorded.calls id driver where
  performStep {step call u} hcall hok := by
    obtain ⟨shot, hstep⟩ : ∃ shot, driver.recorded.performStep viewport step u = _ :=
      performStep_recorded hcall u.host u.calls
    rw [hok] at hstep
    exact ⟨shot, _, hstep, rfl, rfl⟩

/-- Steps whose calls are all carried out in time leave it to the rest of the steps to go on. -/
theorem performSteps_of_served {larger : Driver τ} {part : τ → σ} {list : τ → List κ}
    {entry : HostCall → κ} {u : τ} (h : larger.Lists viewport part list entry driver)
    (hcalls : List.Forall₂ (fun step call => HostCall.ofStep viewport step = .ok call) steps calls)
    (hm : m ≤ steps.length)
    (htime : ∀ k < m, timing.judge (i + k) (clock (i + k + 1)) = .ok ())
    (hserve : driver.serve (calls.take m) (part u) = (.ok (), t)) :
    ∃ (shots : List LabelledSnapshot) (v : τ),
      larger.performSteps timing viewport i steps ⟨u, clock, i + 1⟩ =
        ((shots ++ ·) <$> larger.performSteps timing viewport (i + m) (steps.drop m))
          ⟨v, clock, i + m + 1⟩ ∧
      part v = t ∧ list v = list u ++ (calls.take m).map entry := by
  induction m generalizing steps calls u i with
  | zero =>
    have hs : part u = t := by simpa [serve] using hserve
    refine ⟨[], u, ?_, hs, by simp⟩
    rw [List.drop_zero, Nat.add_zero, Action.map_apply]
    simp only [List.nil_append]
    cases larger.performSteps timing viewport i steps ⟨u, clock, i + 1⟩ with
    | mk r w => cases r <;> rfl
  | succ m ih =>
    cases hcalls with
    | nil => simp at hm
    | @cons first call rest others hcall hothers =>
      rw [List.take_succ_cons, serve] at hserve
      obtain ⟨_, _, hobey, hserve⟩ := Action.bind_eq_ok_iff.mp hserve
      obtain ⟨shot, w, hstep, hpart, hlist⟩ :=
        h.performStep hcall (congrArg Prod.fst hobey)
      rw [hobey] at hpart
      have htime' : ∀ k < m, timing.judge (i + 1 + k) (clock (i + 1 + k + 1)) = .ok () := by
        intro k hk
        have := htime (k + 1) (by omega)
        rwa [show i + (k + 1) = i + 1 + k by omega] at this
      obtain ⟨shots, v, hrest, hv, hlists⟩ :=
        ih hothers (by simpa using hm) htime' (by rw [hpart]; exact hserve)
      refine ⟨shot.toList ++ shots, v, ?_, hv, ?_⟩
      · have hnow : timing.judge i (clock (i + 1)) = .ok () := htime 0 (by omega)
        rw [performSteps_cons_of_ok hnow hstep, List.drop_succ_cons,
          show i + (m + 1) = i + 1 + m by omega, Action.map_apply, hrest, Action.map_apply,
          Action.map_apply]
        cases (larger.performSteps timing viewport (i + 1 + m) (rest.drop m)
          ⟨v, clock, i + 1 + m + 1⟩).1 with
        | ok later => simp [Except.map]
        | error e => rfl
      · rw [hlists, hlist, List.append_assoc, List.take_succ_cons, List.map_cons]
        rfl

/-- What a replay does after its start is to perform the steps and to read the frame count. -/
theorem replay_apply {budget : Budget} {most : Number}
    (hm : budget.seconds.mul (.int 1000) = .ok most) (script : Script) :
    driver.replay budget viewport script ⟨s, .ofReadings clock⟩ =
      (do
        let captures ← driver.performSteps ⟨clock 0, budget, most⟩ viewport 0 script.steps
        let frameCount ← Timed.onHost driver.readFrameCount
        pure ⟨frameCount, captures⟩ : Action (Timed σ) Execution) ⟨s, clock, 1⟩ := by
  rw [replay, Action.bind_ok _ (Timing.begin_apply hm s)]

theorem onHost_readFrameCount (c : Clock Number) :
    Timed.onHost driver.recorded.readFrameCount ⟨⟨s, l⟩, c⟩ =
      ((driver.readFrameCount s).1, ⟨⟨(driver.readFrameCount s).2, l ++ [.readFrameCount]⟩, c⟩) :=
  rfl

section

variable {reading : Nat → ℚ} {budget : Budget} {most : Number} {b : ℚ} {script : Script}
  {j k : Nat} {e : Failure}

/-- When the first `k` calls are carried out in time, a replay goes on with the other steps. -/
theorem replay_of_listed {larger : Driver τ} {part : τ → σ} {list : τ → List κ}
    {entry : HostCall → κ} {u : τ} (h : larger.Lists viewport part list entry driver)
    (hcalls : script.calls viewport = .ok calls)
    (hm : budget.seconds.mul (.int 1000) = .ok most) (hk : k ≤ script.length)
    (hjudge : ∀ i < k, (⟨clock 0, budget, most⟩ : Timing).judge i (clock (i + 1)) = .ok ())
    (hserve : driver.serve (calls.take k) (part u) = (.ok (), t)) :
    ∃ (shots : List LabelledSnapshot) (v : τ),
      larger.replay budget viewport script ⟨u, .ofReadings clock⟩ =
        (do
          let captures ← (shots ++ ·) <$> larger.performSteps
            ⟨clock 0, budget, most⟩ viewport k (script.steps.drop k)
          let frameCount ← Timed.onHost larger.readFrameCount
          pure ⟨frameCount, captures⟩ : Action (Timed τ) Execution)
          ⟨v, clock, k + 1⟩ ∧
      part v = t ∧ list v = list u ++ (calls.take k).map entry := by
  obtain ⟨l, hl, rfl⟩ := Script.calls_eq_ok_iff.mp hcalls
  have hkl : k ≤ l.length := hl.length_eq ▸ hk
  rw [List.take_append_of_le_length hkl] at hserve ⊢
  obtain ⟨shots, v, hsteps, hv⟩ := performSteps_of_served (i := 0) h hl hk
    (fun i hi => by rw [Nat.zero_add]; exact hjudge i hi) hserve
  simp only [Nat.zero_add] at hsteps
  refine ⟨shots, v, ?_, hv⟩
  rw [replay_apply hm, Action.bind_apply, Action.bind_apply, hsteps]

theorem replay_of_served (hcalls : script.calls viewport = .ok calls)
    (hm : budget.seconds.mul (.int 1000) = .ok most) (hk : k ≤ script.length)
    (hjudge : ∀ i < k, (⟨clock 0, budget, most⟩ : Timing).judge i (clock (i + 1)) = .ok ())
    (hserve : driver.serve (calls.take k) s = (.ok (), t)) :
    ∃ shots : List LabelledSnapshot,
      driver.recorded.replay budget viewport script ⟨⟨s, []⟩, .ofReadings clock⟩ =
        (do
          let captures ← (shots ++ ·) <$> driver.recorded.performSteps
            ⟨clock 0, budget, most⟩ viewport k (script.steps.drop k)
          let frameCount ← Timed.onHost driver.recorded.readFrameCount
          pure ⟨frameCount, captures⟩ : Action (Timed (Recorded σ)) Execution)
          ⟨⟨t, calls.take k⟩, clock, k + 1⟩ := by
  obtain ⟨shots, ⟨host, noted⟩, hrun, rfl, hnoted⟩ := replay_of_listed (u := ⟨s, []⟩)
    (driver.recorded_lists viewport) hcalls hm hk hjudge hserve
  obtain rfl : noted = calls.take k := by simpa using hnoted
  exact ⟨shots, hrun⟩

/-- A script whose calls are all carried out in time is replayed to its end. -/
theorem replay_ok (hcalls : script.calls viewport = .ok calls)
    (hm : budget.seconds.mul (.int 1000) = .ok most)
    (hjudge : ∀ k ≤ script.length,
      (⟨clock 0, budget, most⟩ : Timing).judge k (clock (k + 1)) = .ok ())
    (hserve : driver.serve calls s = (.ok (), t)) :
    ∃ result, driver.recorded.replay budget viewport script ⟨⟨s, []⟩, .ofReadings clock⟩ =
      (.ok result, ⟨⟨t, calls⟩, clock, script.length + 2⟩) := by
  obtain ⟨l, hl, rfl⟩ := Script.calls_eq_ok_iff.mp hcalls
  have htake : (l ++ [HostCall.readFrameCount]).take script.length = l :=
    List.take_left' hl.length_eq.symm
  obtain ⟨u, hsteps, hlast⟩ := exists_serve_of_append hserve
  obtain ⟨count, hcount⟩ : ∃ count, driver.readFrameCount u = (.ok count, t) := by
    obtain ⟨_, v, hobey, hlast⟩ := Action.bind_eq_ok_iff.mp hlast
    obtain ⟨count, w, hread, hobey⟩ := Action.bind_eq_ok_iff.mp hobey
    cases hobey
    cases hlast
    exact ⟨count, hread⟩
  obtain ⟨shots, hrun⟩ := replay_of_served hcalls hm le_rfl
    (fun i hi => hjudge i (Nat.le_of_lt hi)) (by rw [htake]; exact hsteps)
  have hdrop : script.steps.drop script.length = [] := List.drop_length
  refine ⟨⟨count, shots ++ []⟩, ?_⟩
  rw [hrun, Action.bind_apply, Action.map_apply, hdrop,
    performSteps_nil_of_ok (hjudge script.length le_rfl)]
  show (Timed.onHost _ >>= _) _ = _
  rw [Action.bind_apply, onHost_readFrameCount, hcount, htake]
  rfl

/-- The first `k` calls are carried out in time, then the budget is found to be spent. -/
theorem replay_late (hcalls : script.calls viewport = .ok calls)
    (hc : ExactReadings clock reading) (hm : budget.seconds.mul (.int 1000) = .ok most)
    (hb : most.value? = some b) (hk : k ≤ script.length) (hlate : Late reading b k)
    (htime : ∀ i < k, ¬ Late reading b i)
    (hfault : ∀ j e, driver.FaultAt calls s j e → k ≤ j) :
    ∃ (o : Overrun) (t : σ),
      driver.recorded.replay budget viewport script ⟨⟨s, []⟩, .ofReadings clock⟩ =
        (.error (.overrun o), ⟨⟨t, calls.take k⟩, clock, k + 2⟩) ∧
      o.step = k ∧ o.budget = budget.seconds ∧
      o.elapsed.value? = some (reading (k + 1) - reading 0) := by
  have hlen := Script.length_calls hcalls
  obtain ⟨t, ht⟩ := serve_take_of_fault_le (by omega) hfault
  obtain ⟨shots, hrun⟩ := replay_of_served hcalls hm hk
    (fun i hi => Timing.judge_in_time budget hc hb (htime i hi)) ht
  obtain ⟨o, ho, hfacts⟩ := Timing.judge_late hc hm hb hlate
  refine ⟨o, t, ?_, hfacts⟩
  rw [hrun, Action.bind_apply, Action.map_apply, performSteps_of_error ho]
  rfl

/-- The calls up to the first that fails are made in time, and the replay fails as that one. -/
theorem replay_fault (hcalls : script.calls viewport = .ok calls)
    (hc : ExactReadings clock reading) (hm : budget.seconds.mul (.int 1000) = .ok most)
    (hb : most.value? = some b) (hfault : driver.FaultAt calls s j e)
    (htime : ∀ i ≤ j, ¬ Late reading b i) :
    ∃ t, driver.recorded.replay budget viewport script ⟨⟨s, []⟩, .ofReadings clock⟩ =
      (.error e, ⟨⟨t, calls.take (j + 1)⟩, clock, j + 2⟩) := by
  obtain ⟨call, t, hcall, ht, he⟩ := hfault
  have hlen := Script.length_calls hcalls
  have hj : j < calls.length := (List.getElem?_eq_some_iff.mp hcall).1
  obtain ⟨shots, hrun⟩ := replay_of_served hcalls hm (by omega)
    (fun i hi => Timing.judge_in_time budget hc hb (htime i (by omega))) ht
  have hnow := Timing.judge_in_time budget hc hb (htime j le_rfl)
  have htake : calls.take (j + 1) = calls.take j ++ [call] := by
    rw [List.take_add_one, hcall, Option.toList_some]
  refine ⟨(driver.obey call t).2, ?_⟩
  rw [hrun, Action.bind_apply, Action.map_apply, htake]
  by_cases hstep : j < script.length
  · obtain ⟨step, hof, hdrop⟩ := Script.drop_steps_of_getElem?_calls hcalls hstep hcall
    obtain ⟨shot, hperform⟩ := performStep_recorded hof t (calls.take j)
    rw [he] at hperform
    rw [hdrop, performSteps_cons_of_error hnow hperform]
    rfl
  · obtain rfl : j = script.length := by omega
    have hdrop : script.steps.drop script.length = [] := List.drop_length
    obtain rfl : HostCall.readFrameCount = call :=
      Option.some.inj ((Script.getElem?_calls_length hcalls).symm.trans hcall)
    rw [hdrop, performSteps_nil_of_ok hnow]
    show (Timed.onHost _ >>= _) _ = _
    rw [Action.bind_apply, onHost_readFrameCount]
    cases hr : driver.readFrameCount t with
    | mk r u =>
      rw [obey, Action.bind_apply, hr] at he
      rw [obey, Action.bind_apply, hr]
      cases r with
      | ok count => simp at he
      | error e' =>
        obtain rfl : e' = e := Except.error.inj he
        rfl

/-- A call for every step and one for the frame count, if nothing fails and time suffices. -/
theorem replay_in_time (hcalls : script.calls viewport = .ok calls)
    (hc : ExactReadings clock reading) (hm : budget.seconds.mul (.int 1000) = .ok most)
    (hb : most.value? = some b) (htime : ∀ k ≤ script.length, ¬ Late reading b k)
    (hfault : ∀ j e, ¬ driver.FaultAt calls s j e) :
    ∃ result t, driver.recorded.replay budget viewport script ⟨⟨s, []⟩, .ofReadings clock⟩ =
      (.ok result, ⟨⟨t, calls⟩, clock, script.length + 2⟩) := by
  obtain ⟨t, ht⟩ := serve_take_of_fault_le (m := calls.length) le_rfl
    fun j e h => absurd h (hfault j e)
  rw [List.take_length] at ht
  obtain ⟨result, hrun⟩ := replay_ok hcalls hm
    (fun k hk => Timing.judge_in_time budget hc hb (htime k hk)) ht
  exact ⟨result, t, hrun⟩

end

/-- What becomes of a replay, where the first call to fail may come before or after the first check
that finds the budget spent: in time and without a failure every step leads to its call and the
frame count is read; the budget ends the replay at a step whose number is reported, with the calls
of the steps before it; and a failing call is the last one, and its failure that of the replay. -/
theorem replay_trace {clock : Nat → Number} {reading : Nat → ℚ} {budget : Budget} {most : Number}
    {b : ℚ} {viewport : Viewport} {script : Script} {calls : List HostCall} (driver : Driver σ)
    (s : σ)
    (hcalls : script.calls viewport = .ok calls) (hc : ExactReadings clock reading)
    (hm : budget.seconds.mul (.int 1000) = .ok most) (hb : most.value? = some b) :
    let start : Timed σ := ⟨s, .ofReadings clock⟩
    let run := driver.replay budget viewport script start
    let received := driver.received budget viewport script start
    ((∀ k ≤ script.length, ¬ Late reading b k) → (∀ j e, ¬ driver.FaultAt calls s j e) →
      (∃ result, run.1 = .ok result) ∧ received = calls ∧
        run.2.clock.taken = script.length + 2) ∧
    (∀ k ≤ script.length, Late reading b k → (∀ i < k, ¬ Late reading b i) →
      (∀ j e, driver.FaultAt calls s j e → k ≤ j) →
      (∃ o : Overrun, run.1 = .error (.overrun o) ∧ o.step = k ∧ o.budget = budget.seconds ∧
        o.elapsed.value? = some (reading (k + 1) - reading 0)) ∧
      received = calls.take k ∧ run.2.clock.taken = k + 2) ∧
    (∀ j e, driver.FaultAt calls s j e → (∀ i ≤ j, ¬ Late reading b i) →
      run.1 = .error e ∧ received = calls.take (j + 1) ∧ run.2.clock.taken = j + 2) := by
  intro start run received
  refine ⟨fun htime hfault => ?_, fun k hk hlate htime hfault => ?_, fun j e hfault htime => ?_⟩
  · obtain ⟨result, t, hrun⟩ := replay_in_time hcalls hc hm hb htime hfault
    obtain ⟨hreplay, hreceived⟩ := replay_of_recorded hrun
    exact ⟨⟨result, congrArg Prod.fst hreplay⟩, hreceived,
      congrArg (fun r => r.2.clock.taken) hreplay⟩
  · obtain ⟨o, t, hrun, hfacts⟩ := replay_late hcalls hc hm hb hk hlate htime hfault
    obtain ⟨hreplay, hreceived⟩ := replay_of_recorded hrun
    exact ⟨⟨o, congrArg Prod.fst hreplay, hfacts⟩, hreceived,
      congrArg (fun r => r.2.clock.taken) hreplay⟩
  · obtain ⟨t, hrun⟩ := replay_fault hcalls hc hm hb hfault htime
    obtain ⟨hreplay, hreceived⟩ := replay_of_recorded hrun
    exact ⟨congrArg Prod.fst hreplay, hreceived, congrArg (fun r => r.2.clock.taken) hreplay⟩

/-- A host that fails at the first snapshot receives one call before it and none after it. -/
theorem replay_tile_without_snapshot :
    let driver := Rehearsal.driver ⟨.null, none, none, some ⟨.captureSnapshot, 1, .driver "dark"⟩⟩
    let start : Timed Stage := ⟨⟨.int 0, []⟩, .ofReadings fun _ => .int 0⟩
    let run := driver.replay Timing.standardBudget .standard Script.tile start
    run.1 = .error (.driver "dark") ∧
      driver.received Timing.standardBudget .standard Script.tile start =
        [.runFrames (.int 120), .captureSnapshot] ∧
      run.2.clock.taken = 3 := by
  intro driver start run
  have hcalls : Script.tile.calls .standard =
      .ok [.runFrames (.int 120), .captureSnapshot, .readFrameCount] := rfl
  have hclock : ExactReadings (fun _ => .int 0) fun _ => 0 :=
    ⟨fun _ => by simp, fun _ => ⟨.int 0, rfl, by simp⟩⟩
  have hfault : driver.FaultAt [.runFrames (.int 120), .captureSnapshot, .readFrameCount]
      ⟨.int 0, []⟩ 1 (.driver "dark") :=
    ⟨.captureSnapshot, ⟨.int 120, [.runFrames (.int 120)]⟩, rfl, rfl, rfl⟩
  have htime : ∀ i ≤ 1, ¬ Late (fun _ => 0) 20000 i := by
    intro i _
    norm_num [Late]
  exact (replay_trace driver ⟨.int 0, []⟩ hcalls hclock rfl rfl).2.2 1 _ hfault htime

end Driver

end Replay
