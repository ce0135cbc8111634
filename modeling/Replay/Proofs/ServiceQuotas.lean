import Replay.Browser
import Replay.Proofs.LimiterRetry
import Replay.Proofs.ServiceVisits

namespace Replay

/-- A service that knows some keys. Its games would be played in a browser that answers nothing. -/
def ServicePlan.idle (keys : List Text) (quota : Int) : ServicePlan Unit :=
  ⟨⟨.ofLocation [], 0, quota, 60, keys⟩, [], 985,
    BrowserHost.host (fun _ => pure .null) .standard, fun _ => .int 0, fun _ => .int 0⟩

/-- A session on a machine without any files. -/
def Session.idle : Session Unit :=
  ⟨(), ⟨⟨[], [], fun _ => none, fun _ _ => none⟩,
    .ofReadings fun _ => ⟨1970, 1, 1, 0, 0, 0, 0⟩⟩, []⟩

/-- A request of a caller at this machine. -/
def Request.post (path key : Text) : Request :=
  ⟨"POST", ⟨"http", "localhost", path, [], path⟩, [(Access.keyHeader, key)], none, "127.0.0.1"⟩

namespace Service

variable {σ : Type}

/-- On a clock that counts in doubles and does not go back, no key gets a view that starts a browser
more often than five times within `60 / (1 + 2 ^ -53)` seconds, and where the differences between
readings are exact, within a minute. What is refused for its size or its key is not counted, and
nobody is refused for the requests of other callers or to another endpoint, where the callers of
these views are told apart by their keys. -/
theorem browser_visits (plan : ServicePlan σ) (inner : Session σ) (arrivals : List Arrival)
    {e : Endpoint} (hkeyed : e.isKeyed = true) :
    let readings := arrivals.map Arrival.time
    let visited (key : Text) := visits plan e key ⟨inner, .empty⟩ arrivals
    (Limiter.IsMonotonic readings → ∀ key start,
      (visited key).countP (Number.isWithin start (Limiter.leastAge 60)) ≤ 5) ∧
    (readings.Pairwise Limiter.ExactlyAfter → ∀ key start,
      (visited key).countP (Number.isWithin start 60) ≤ 5) ∧
    (∀ (s : Served (Session σ)) (a : Arrival),
      (isReached plan s a = true → ∃ e, endpoint? plan a.request = some e ∧ IsLeftTo plan s a e) ∧
      (isReached plan s a = false →
        (handle plan a.time a.request s).2.inner = s.inner) ∧
      ((handle plan a.time a.request s).1.status ∈ ([401, 413] : List Int) →
        (handle plan a.time a.request s).2.limiter = s.limiter)) ∧
    (∀ r, e.callerOf r = Access.givenKey r) ∧
    ∀ (s : Served (Session σ)) (a : Arrival) (e : Endpoint),
      endpoint? plan a.request = some e →
      isReached plan (serveAll plan s arrivals) a =
        isReached plan (serveAll plan s (arrivals.filter fun b =>
          endpoint? plan b.request = some e && e.callerOf b.request = e.callerOf a.request)) a := by
  intro readings visited
  have hlimit : e.limit plan = .int 5 := by rw [Endpoint.limit, if_pos hkeyed]
  have hwindow : e.window plan = .int (60 : Nat) := by
    rw [Endpoint.window, if_pos hkeyed]
    rfl
  have hquota {age : ℚ} (hages : readings.Pairwise (Limiter.Ages (e.window plan) age))
      (key : Text) (start : ℚ) : (visited key).countP (Number.isWithin start age) ≤ 5 :=
    countP_visits_le rfl hlimit hages start
  refine ⟨fun hclock => ?_, fun hexact => ?_, fun s a => ⟨?_, ?_, ?_⟩, fun r => ?_,
    fun s a e hend => isReached_serveAll_filter hend s arrivals⟩
  · have hages := hclock.ages (n := 60) (k := 6) (by decide) (by decide)
    rw [← hwindow, Nat.cast_ofNat] at hages
    exact hquota hages
  · refine hquota (hexact.imp fun h => ?_)
    rw [hwindow]
    exact Limiter.ages_of_exactlyAfter rfl h
  · intro hreached
    obtain ⟨e, id, hend, -, hhandle, -⟩ := handle_of_reached hreached
    exact ⟨e, hend, id, _, hhandle⟩
  · intro hmissed
    rw [handle_of_not_reached hmissed]
    cases demand? plan a <;> rfl
  · intro hstatus
    cases hd : demand? plan a with
    | none => rw [(handle_of_not_counted hd s).1]
    | some d =>
      have hother := handle_status_of_counted (s := s) hd
      simp only [List.mem_cons, List.not_mem_nil, or_false] at hstatus hother
      omega
  · rw [Endpoint.callerOf, if_pos hkeyed]

/-- Of six visits at once the last one is refused, and a minute later there is room again. -/
theorem browser_visits_of_full_minute :
    let plan := ServicePlan.idle ["secret"] 20
    let minute : Double := .ofDecimal false 60 0
    let readings := (List.replicate 6 Double.zero ++ [minute]).map Number.real
    let arrivals := readings.map fun time =>
      (⟨time, .post "/api/games/x/headless" "secret"⟩ : Arrival)
    let start : Served (Session Unit) := ⟨.idle, .empty⟩
    let visited := visits plan .headless "secret" start arrivals
    let stranger : Arrival := ⟨.real minute, .post "/api/games/x/headless" "other"⟩
    let caller : Arrival := ⟨.real minute, .post "/api/games/x/headless" "secret"⟩
    visited.length = 6 ∧ visited.countP (Number.isWithin 0 (Limiter.leastAge 60)) ≤ 5 ∧
      visited.countP (Number.isWithin 0 60) ≤ 5 ∧
      (handle plan stranger.time stranger.request start).2.limiter = start.limiter ∧
      isReached plan (serveAll plan start [stranger]) caller = isReached plan start caller := by
  intro plan minute readings arrivals start visited stranger caller
  have hclock : Limiter.IsMonotonic readings :=
    Limiter.isMonotonic_of_le (by decide +kernel) (by decide +kernel)
  have hexact : readings.Pairwise Limiter.ExactlyAfter := by
    have hsame : Limiter.ExactlyAfter (.real .zero) (.real .zero) :=
      ⟨0, 0, .real (Double.zero.sub .zero), by decide +kernel, by decide +kernel, le_rfl, rfl,
        by decide +kernel⟩
    have hlater : Limiter.ExactlyAfter (.real .zero) (.real minute) :=
      ⟨0, 60, .real (minute.sub .zero), by decide +kernel, by decide +kernel, by norm_num, rfl,
        by decide +kernel⟩
    refine List.pairwise_map.mpr (List.pairwise_append.mpr
      ⟨List.pairwise_replicate.mpr (.inr hsame), List.pairwise_singleton _ _, ?_⟩)
    intro x hx y hy
    rw [List.eq_of_mem_replicate hx, List.mem_singleton.mp hy]
    exact hlater
  obtain ⟨hrounded, hminute, hanswers, -⟩ :=
    browser_visits plan .idle arrivals (e := .headless) (by decide)
  obtain ⟨-, -, -, -, hothers⟩ := browser_visits plan .idle [stranger] (e := .headless) (by decide)
  have hreadings : arrivals.map Arrival.time = readings := by
    rw [List.map_map]
    exact List.map_id readings
  refine ⟨by decide +kernel, hrounded (hreadings ▸ hclock) "secret" 0,
    hminute (hreadings ▸ hexact) "secret" 0, (hanswers start stranger).2.2 (by decide +kernel), ?_⟩
  refine (hothers start caller .headless (by decide +kernel)).trans ?_
  have hnone : [stranger].filter (fun b => endpoint? plan b.request = some .headless &&
      Endpoint.headless.callerOf b.request = Endpoint.headless.callerOf caller.request) = [] := by
    decide +kernel
  rw [hnone]
  rfl

/-- A double next to `0.1` and one next to `60.1` are less than a minute apart, but their difference
is rounded to a minute, so that five visits at the first one no longer count at the other. -/
theorem browser_visits_of_rounded_minute :
    let plan := ServicePlan.idle ["secret"] 20
    let early : Double := .ofDecimal false 100000000000002 (-15)
    let late : Double := .ofDecimal false 601 (-1)
    let readings := [early, early, early, early, early, late].map Number.real
    let arrivals := readings.map fun time =>
      (⟨time, .post "/api/games/x/headless" "secret"⟩ : Arrival)
    Limiter.IsMonotonic readings ∧ ∃ start,
      (visits plan .headless "secret" ⟨.idle, .empty⟩ arrivals).countP
        (Number.isWithin start 60) = 6 := by
  intro plan early late readings arrivals
  refine ⟨Limiter.isMonotonic_of_le (by decide +kernel) (by decide +kernel),
    early.value?.getD 0, by decide +kernel⟩

end Service

/-- Whether a request is refused for its size or for the number of requests before it. -/
def Response.isRefusal (r : Response) : Bool := r.status = 413 || r.status = 429

namespace Service

variable {σ : Type} {plan : ServicePlan σ} {a : Arrival} {s : Served (Session σ)}

/-- Whether a request is answered, and not refused. -/
def isAnswered (plan : ServicePlan σ) (s : Served (Session σ)) (a : Arrival) : Bool :=
  !(handle plan a.time a.request s).1.isRefusal

/-- The times at which requests of a caller to check a script are answered. -/
def answers (plan : ServicePlan σ) (caller : Text) (s : Served (Session σ))
    (arrivals : List Arrival) : List Number :=
  timesOf plan (fun s a => endpoint? plan a.request = some .validate &&
    Access.identity .standard a.request = caller && isAnswered plan s a) s arrivals

theorem isAnswered_of_reached (h : isReached plan s a = true) : isAnswered plan s a = true := by
  obtain ⟨e, id, -, -, hhandle, hstatus, -⟩ := handle_of_reached h
  rw [isAnswered, hhandle]
  generalize answer _ = response at hstatus ⊢
  have hother : response.status ≠ 413 ∧ response.status ≠ 429 := by
    simp only [viewStatuses, List.mem_cons, List.not_mem_nil, or_false] at hstatus
    omega
  simp [Response.isRefusal, Response.sent, hother.1, hother.2]

/-- On a clock that counts in doubles a request that is counted is refused exactly if it does not
reach its view. -/
theorem isAnswered_eq_isReached {e : Endpoint} {w k : Nat} (hk : k + 2 < 1024)
    (hwindow : e.window plan = .int w) (hsize : w ≤ 2 ^ k)
    (hend : endpoint? plan a.request = some e) (hopen : e.isOpen plan a.request = true)
    {later : List Number} (hclock : Limiter.IsMonotonic (a.time :: later))
    (hkept : s.limiter.IsBefore (a.time :: later)) :
    isAnswered plan s a = isReached plan s a := by
  obtain ⟨y, q, hy, hq⟩ := hclock.doubles a.time List.mem_cons_self
  have htimes : ∀ t ∈ s.limiter.times (e.demand plan a).caller,
      ∃ x p, t = .real x ∧ x.value? = some p ∧ p ≤ q := by
    intro t ht
    obtain ⟨x, p, hx, hp, hle⟩ := hkept _ t ht
    exact ⟨x, p, hx, hp, hle a.time List.mem_cons_self q (by rw [hy]; exact hq)⟩
  rcases Limiter.ask_of_doubles (d := e.demand plan a) hk hy hq hwindow hsize htimes with
    hadmitted | ⟨hask, seconds, hretry⟩
  · have hreached : isReached plan s a = true := isReached_iff.mpr ⟨e, hend, hopen, hadmitted⟩
    rw [hreached, isAnswered_of_reached hreached]
  · have hmissed : isReached plan s a = false := by
      rw [isReached, demand?_eq_some_iff.mpr ⟨e, hend, hopen, rfl⟩]
      simp [Limiter.isAdmitted, hask, Except.toOption]
    rw [hmissed, isAnswered, Response.isRefusal,
      handle_status_of_refused hend hopen hask hretry]
    rfl

theorem answers_eq_visits {w k : Nat} (hk : k + 2 < 1024) (hwindow : plan.settings.window = w)
    (hsize : w ≤ 2 ^ k) (caller : Text) {arrivals : List Arrival}
    (hclock : Limiter.IsMonotonic (arrivals.map Arrival.time))
    (hkept : s.limiter.IsBefore (arrivals.map Arrival.time)) :
    answers plan caller s arrivals = visits plan .validate caller s arrivals := by
  have hlimit : Endpoint.validate.window plan = .int w := congrArg Number.int hwindow
  induction arrivals generalizing s with
  | nil => rfl
  | cons a rest ih =>
    have hnext : (handle plan a.time a.request s).2.limiter.IsBefore (rest.map Arrival.time) := by
      rw [limiter_handle]
      cases hd : demand? plan a with
      | none => exact hkept.of_subset (List.subset_cons_self _ _)
      | some d =>
        obtain ⟨e, -, -, rfl⟩ := demand?_eq_some_iff.mp hd
        exact Limiter.IsBefore.ask (d := e.demand plan a) hkept hclock
    rw [answers, visits, timesOf, timesOf]
    refine congrArg₂ _ (if_congr ?_ rfl rfl) (ih hclock.tail hnext)
    by_cases hend : endpoint? plan a.request = some .validate
    · rw [isAnswered_eq_isReached hk hlimit hsize hend rfl hclock hkept]
      rfl
    · simp [hend]

/-- A caller of whom nothing is kept reaches the view. -/
theorem isReached_of_no_times {q : Nat} (hquota : plan.settings.quota = q) (hpos : 0 < q)
    (hend : endpoint? plan a.request = some .validate)
    (hnone : s.limiter.times (Endpoint.validate.demand plan a).caller = []) :
    isReached plan s a = true := by
  refine isReached_iff.mpr ⟨.validate, hend, rfl, ?_⟩
  have hlimit : (Endpoint.validate.demand plan a).limit = .int q := congrArg Number.int hquota
  have hroom : (Number.int q).le (.int ([] : List Number).length) = false := by
    rw [← Bool.not_eq_true, Number.le_iff (Number.value?_int _) (Number.value?_int _), not_le]
    exact_mod_cast hpos
  rw [Limiter.isAdmitted, Limiter.ask, Limiter.allow, hnone, hlimit]
  simp only [Limiter.evict, hroom]
  rfl

/-- Requests that are counted under different names are all answered. -/
theorem timesOf_isAnswered {q : Nat} (hquota : plan.settings.quota = q) (hpos : 0 < q)
    {arrivals : List Arrival} (hend : ∀ a ∈ arrivals, endpoint? plan a.request = some .validate)
    (hdistinct : (arrivals.map fun a => (Endpoint.validate.demand plan a).caller).Nodup)
    (hnone : ∀ a ∈ arrivals, s.limiter.times (Endpoint.validate.demand plan a).caller = []) :
    timesOf plan (isAnswered plan) s arrivals = arrivals.map Arrival.time := by
  induction arrivals generalizing s with
  | nil => rfl
  | cons a rest ih =>
    obtain ⟨hfirst, hdistinct⟩ := List.nodup_cons.mp hdistinct
    have hcounted : demand? plan a = some (Endpoint.validate.demand plan a) :=
      demand?_eq_some_iff.mpr ⟨_, hend a List.mem_cons_self, rfl, rfl⟩
    have hreached : isReached plan s a = true :=
      isReached_of_no_times hquota hpos (hend a List.mem_cons_self) (hnone a List.mem_cons_self)
    have hnext : ∀ b ∈ rest, (handle plan a.time a.request s).2.limiter.times
        (Endpoint.validate.demand plan b).caller = [] := by
      intro b hb
      rw [limiter_handle, hcounted]
      refine (Limiter.times_ask_of_ne fun hsame => ?_).trans (hnone b (List.mem_cons_of_mem _ hb))
      exact hfirst (List.mem_map.mpr ⟨b, hb, hsame⟩)
    rw [timesOf, if_pos (isAnswered_of_reached hreached),
      ih (fun b hb => hend b (List.mem_cons_of_mem _ hb)) hdistinct hnext]
    rfl

/-- The check of scripts is answered to each caller no more often than its quota allows; but a
caller is whatever key a request carries, and requests that carry different keys are all answered,
wherever they come from. -/
theorem answers_within_quota {q w : Nat} (hquota : plan.settings.quota = q) (hpos : 0 < q)
    (hwindow : plan.settings.window = w) (hsize : w ≤ 2 ^ 1000) (inner : Session σ)
    (arrivals : List Arrival) :
    let readings := arrivals.map Arrival.time
    let answered (caller : Text) := answers plan caller ⟨inner, .empty⟩ arrivals
    (Limiter.IsMonotonic readings → ∀ caller start,
      (answered caller).countP (Number.isWithin start (Limiter.leastAge w)) ≤ q ∧
      (readings.Pairwise Limiter.ExactlyAfter →
        (answered caller).countP (Number.isWithin start w) ≤ q)) ∧
    ((∀ a ∈ arrivals, endpoint? plan a.request = some .validate ∧
        Access.givenKey a.request ≠ []) →
      (arrivals.map fun a => Access.givenKey a.request).Nodup →
      timesOf plan (isAnswered plan) ⟨inner, .empty⟩ arrivals = readings) := by
  intro readings answered
  have hlimit : Endpoint.validate.limit plan = .int q := congrArg Number.int hquota
  have hnumber : Endpoint.validate.window plan = .int w := congrArg Number.int hwindow
  refine ⟨fun hclock caller start => ?_, fun hend hdistinct => ?_⟩
  · have hvisits : answered caller = visits plan .validate caller ⟨inner, .empty⟩ arrivals :=
      answers_eq_visits (k := 1000) (by decide) hwindow hsize caller hclock
        (Limiter.isBefore_empty _)
    rw [hvisits]
    constructor
    · refine countP_visits_le rfl hlimit ?_ start
      rw [hnumber]
      exact hclock.ages (by decide) hsize
    · intro hexact
      refine countP_visits_le rfl hlimit (hexact.imp fun h => ?_) start
      rw [hnumber]
      exact Limiter.ages_of_exactlyAfter (Number.value?_int _) h
  · refine timesOf_isAnswered hquota hpos (fun a ha => (hend a ha).1) ?_ fun a ha => rfl
    have hcaller : ∀ a ∈ arrivals, (Endpoint.validate.demand plan a).caller =
        Endpoint.validate.bucket (Access.givenKey a.request) := by
      intro a ha
      have hidentity := Access.identity_of_key (hend a ha).2
      exact (Endpoint.demand_caller rfl).trans (congrArg Endpoint.validate.bucket hidentity)
    have hbuckets := hdistinct.map (f := Endpoint.validate.bucket) fun x y h =>
      (Endpoint.bucket_inj h).2
    rw [List.map_map] at hbuckets
    rwa [List.map_congr_left hcaller]

/-- Although only one request a minute is allowed, a caller with two keys of its own making is
answered twice at once. -/
theorem answers_within_quota_of_two_keys :
    let plan := ServicePlan.idle [] 1
    let arrivals : List Arrival :=
      [⟨.real .zero, .post "/api/headless/validate" "a"⟩,
        ⟨.real .zero, .post "/api/headless/validate" "b"⟩]
    let start : Served (Session Unit) := ⟨.idle, .empty⟩
    timesOf plan (isAnswered plan) start arrivals = [.real .zero, .real .zero] ∧
      (answers plan "a" start arrivals).countP (Number.isWithin 0 (Limiter.leastAge 60)) ≤ 1 := by
  intro plan arrivals start
  have hclock : Limiter.IsMonotonic ([Double.zero, .zero].map Number.real) :=
    Limiter.isMonotonic_of_le (by decide +kernel) (by decide +kernel)
  have hquota : plan.settings.quota = (1 : Nat) := rfl
  have hwindow : plan.settings.window = (60 : Nat) := rfl
  obtain ⟨hwithin, hall⟩ := answers_within_quota hquota (by decide) hwindow (by decide +kernel)
    .idle arrivals
  refine ⟨hall ?_ (by decide +kernel), (hwithin hclock "a" 0).1⟩
  decide +kernel

end Service

end Replay
