import Replay.Proofs.CountedEndpoints

namespace Replay

namespace Service

section

variable {σ : Type} {plan : ServicePlan σ} {a : Arrival} {d : Limiter.Demand}
  {s : Served (Session σ)}

/-- Whether a request reaches the view of an endpoint that is counted. -/
def isReached (plan : ServicePlan σ) (s : Served (Session σ)) (a : Arrival) : Bool :=
  (demand? plan a).any s.limiter.isAdmitted

theorem isReached_iff :
    isReached plan s a = true ↔ ∃ e, endpoint? plan a.request = some e ∧
      e.isOpen plan a.request = true ∧ s.limiter.isAdmitted (e.demand plan a) = true := by
  rw [isReached, Option.any_eq_true]
  constructor
  · rintro ⟨d, hd, hadmitted⟩
    obtain ⟨e, hend, hopen, rfl⟩ := demand?_eq_some_iff.mp hd
    exact ⟨e, hend, hopen, hadmitted⟩
  · rintro ⟨e, hend, hopen, hadmitted⟩
    exact ⟨_, demand?_eq_some_iff.mpr ⟨e, hend, hopen, rfl⟩, hadmitted⟩

/-- Whether the answer to a request is left to the view of an endpoint, from which on it is in
JSON. -/
def IsLeftTo (plan : ServicePlan σ) (s : Served (Session σ)) (a : Arrival) (e : Endpoint) : Prop :=
  ∃ id limiter, let result := Access.inJson (e.body plan id) (e.call a) { s with limiter }
    handle plan a.time a.request s = ((answer result.1).sent a.request.methodName, result.2)

/-- A request that reaches the view of its endpoint is answered by that view. -/
theorem handle_of_reached (h : isReached plan s a = true) :
    ∃ e id, endpoint? plan a.request = some e ∧ e.isOpen plan a.request = true ∧
      let result := Access.inJson (e.body plan id) (e.call a) (s.asked (e.demand plan a))
      handle plan a.time a.request s = ((answer result.1).sent a.request.methodName, result.2) ∧
        (answer result.1).status ∈ viewStatuses ∧
        result.2.limiter = (s.limiter.ask (e.demand plan a)).2 := by
  obtain ⟨e, hend, hopen, hadmitted⟩ := isReached_iff.mp h
  obtain ⟨id, hhandle⟩ := handle_of_counted hend hopen
  refine ⟨e, id, hend, hopen, ?_, ?_, ?_⟩
  · rw [hhandle, Endpoint.counted, Access.limited_of_admitted (e.chosen_limit plan)
      (e.chosen_window plan) hadmitted]
    rfl
  · exact Access.inJson_status (e.body_isPlain plan id _) _
  · exact Access.inJson_preserves (e.body_preserves plan id _ _) _ rfl

/-- Any other request changes no more than what the limiter keeps. -/
theorem handle_of_not_reached (h : isReached plan s a = false) :
    (handle plan a.time a.request s).2 = (demand? plan a).elim s s.asked := by
  cases hd : demand? plan a with
  | none => exact (handle_of_not_counted hd s).1
  | some d =>
    obtain ⟨e, hend, hopen, rfl⟩ := demand?_eq_some_iff.mp hd
    obtain ⟨id, hhandle⟩ := handle_of_counted hend hopen
    rw [isReached, hd] at h
    rw [hhandle, Endpoint.counted]
    exact (Access.limited_of_not_admitted (e.chosen_limit plan) (e.chosen_window plan) _ h).1

theorem limiter_handle (plan : ServicePlan σ) (a : Arrival) (s : Served (Session σ)) :
    (handle plan a.time a.request s).2.limiter =
      (demand? plan a).elim s.limiter fun d => (s.limiter.ask d).2 := by
  cases h : isReached plan s a with
  | true =>
    obtain ⟨e, id, hend, hopen, hhandle, -, hlimiter⟩ := handle_of_reached h
    rw [hhandle, hlimiter, demand?_eq_some_iff.mpr ⟨e, hend, hopen, rfl⟩]
    rfl
  | false =>
    rw [handle_of_not_reached h]
    cases demand? plan a <;> rfl

/-- An answer about a key or about the size of a request is given before the limiter is asked. -/
theorem handle_status_of_counted (h : demand? plan a = some d) :
    (handle plan a.time a.request s).1.status ∈ ([200, 400, 404, 422, 429, 500] : List Int) := by
  cases hreached : isReached plan s a with
  | true =>
    obtain ⟨e, id, -, -, hhandle, hstatus, -⟩ := handle_of_reached hreached
    have hsub : viewStatuses ⊆ ([200, 400, 404, 422, 429, 500] : List Int) := by decide
    rw [hhandle]
    exact hsub hstatus
  | false =>
    obtain ⟨e, hend, hopen, rfl⟩ := demand?_eq_some_iff.mp h
    obtain ⟨id, hhandle⟩ := handle_of_counted hend hopen
    rw [isReached, h] at hreached
    have hrefused := (Access.limited_of_not_admitted (e.chosen_limit plan)
      (e.chosen_window plan) (Access.inJson (e.body plan id)) hreached).2
    rw [hhandle, Endpoint.counted]
    show (answer _).status ∈ _
    rcases hrefused with h | h
    · rw [h]; decide
    · rw [h]; decide

/-- A request that is refused is told how long to wait, if that can be said. -/
theorem handle_status_of_refused {e : Endpoint} {seconds : Int}
    (hend : endpoint? plan a.request = some e) (hopen : e.isOpen plan a.request = true)
    (hask : (s.limiter.ask (e.demand plan a)).1 = .ok false)
    (hretry : (s.limiter.ask (e.demand plan a)).2.retryAfter a.time (e.demand plan a).caller
      (e.window plan) = .ok seconds) :
    (handle plan a.time a.request s).1.status = 429 := by
  obtain ⟨id, hhandle⟩ := handle_of_counted hend hopen
  have hanswer := Access.limited_of_refused (e.chosen_limit plan) (e.chosen_window plan)
    (Access.inJson (e.body plan id)) hask
  have hwait : (s.limiter.ask (Access.demand e.quota (e.limit plan) (e.window plan)
      (e.call a))).2.retryAfter (e.call a).time (Access.countedAs e.quota (e.call a))
      (e.window plan) = .ok seconds := hretry
  rw [hwait] at hanswer
  rw [hhandle, Endpoint.counted, hanswer]
  rfl

/-- The state after requests one after the other. -/
def serveAll (plan : ServicePlan σ) (s : Served (Session σ)) (arrivals : List Arrival) :
    Served (Session σ) :=
  arrivals.foldl (fun s a => (handle plan a.time a.request s).2) s

/-- The times of the requests that have a property in the state in which they arrive. -/
def timesOf (plan : ServicePlan σ) (p : Served (Session σ) → Arrival → Bool)
    (s : Served (Session σ)) : List Arrival → List Number
  | [] => []
  | a :: rest =>
    (if p s a = true then [a.time] else [])
      ++ timesOf plan p (handle plan a.time a.request s).2 rest

/-- The times at which requests of a caller reach the view of an endpoint. -/
def visits (plan : ServicePlan σ) (e : Endpoint) (caller : Text) (s : Served (Session σ))
    (arrivals : List Arrival) : List Number :=
  timesOf plan (fun s a => endpoint? plan a.request = some e && e.callerOf a.request = caller
    && isReached plan s a) s arrivals

theorem limiter_serveAll (plan : ServicePlan σ) (s : Served (Session σ))
    (arrivals : List Arrival) :
    (serveAll plan s arrivals).limiter = s.limiter.serve (arrivals.filterMap (demand? plan)) := by
  induction arrivals generalizing s with
  | nil => rfl
  | cons a rest ih =>
    have hstep := limiter_handle plan a s
    rw [serveAll, List.foldl_cons]
    refine (ih _).trans ?_
    rw [hstep]
    cases hd : demand? plan a with
    | none =>
      rw [List.filterMap_cons_none hd]
      rfl
    | some d =>
      rw [List.filterMap_cons_some hd]
      rfl

/-- Requests that are counted under other names leave what is kept of a caller as it is. -/
theorem times_serveAll_filter {caller : Text} {arrivals : List Arrival} (p : Arrival → Bool)
    (hp : ∀ b ∈ arrivals, ∀ d, demand? plan b = some d → d.caller = caller → p b = true)
    (s : Served (Session σ)) :
    (serveAll plan s arrivals).limiter.times caller =
      (serveAll plan s (arrivals.filter p)).limiter.times caller := by
  have hdemands : ((arrivals.filter p).filterMap (demand? plan)).filter (·.caller = caller) =
      (arrivals.filterMap (demand? plan)).filter (·.caller = caller) := by
    clear s
    induction arrivals with
    | nil => rfl
    | cons b rest ih =>
      have hrest := ih fun b hb => hp b (List.mem_cons_of_mem _ hb)
      cases hd : demand? plan b with
      | none =>
        rw [List.filterMap_cons_none hd, List.filter_cons]
        split
        · rw [List.filterMap_cons_none hd, hrest]
        · exact hrest
      | some d =>
        rw [List.filterMap_cons_some hd]
        by_cases hcaller : d.caller = caller
        · rw [List.filter_cons_of_pos (hp b List.mem_cons_self d hd hcaller),
            List.filterMap_cons_some hd, List.filter_cons_of_pos (by simpa using hcaller),
            List.filter_cons_of_pos (by simpa using hcaller), hrest]
        · rw [List.filter_cons_of_neg (a := d) (by simpa using hcaller), List.filter_cons]
          split
          · rw [List.filterMap_cons_some hd, List.filter_cons_of_neg (by simpa using hcaller),
              hrest]
          · exact hrest
  have hsame : s.limiter.times caller = s.limiter.times caller := rfl
  rw [limiter_serveAll, limiter_serveAll, Limiter.times_serve_filter _ hsame,
    Limiter.times_serve_filter ((arrivals.filter p).filterMap _) hsame, hdemands]

/-- Whether a request reaches its view does not depend on requests of other callers, or to other
endpoints. -/
theorem isReached_serveAll_filter {e : Endpoint} (hend : endpoint? plan a.request = some e)
    (s : Served (Session σ)) (arrivals : List Arrival) :
    isReached plan (serveAll plan s arrivals) a =
      isReached plan (serveAll plan s (arrivals.filter fun b =>
        endpoint? plan b.request = some e && e.callerOf b.request = e.callerOf a.request)) a := by
  rw [isReached, isReached]
  cases hd : demand? plan a with
  | none => rfl
  | some d =>
    obtain ⟨e', hend', hopen, rfl⟩ := demand?_eq_some_iff.mp hd
    obtain rfl : e = e' := Option.some.inj (hend.symm.trans hend')
    refine Limiter.isAdmitted_congr (times_serveAll_filter _ (fun b _ d hb hcaller => ?_) s)
    obtain ⟨e', hendb, hopenb, rfl⟩ := demand?_eq_some_iff.mp hb
    rw [Endpoint.demand_caller hopenb, Endpoint.demand_caller hopen] at hcaller
    obtain ⟨rfl, hsame⟩ := Endpoint.bucket_inj hcaller
    simp [hendb, hsame]

/-- The visits are the admissions by the limiter. -/
theorem visits_eq_admissions (e : Endpoint) (caller : Text) (s : Served (Session σ))
    (arrivals : List Arrival) :
    visits plan e caller s arrivals =
      Limiter.admissions (e.bucket caller) s.limiter (arrivals.filterMap (demand? plan)) := by
  induction arrivals generalizing s with
  | nil => rfl
  | cons a rest ih =>
    have hstep := limiter_handle plan a s
    rw [visits, timesOf]
    refine (congrArg _ (ih _)).trans ?_
    rw [hstep]
    cases hd : demand? plan a with
    | none => simp [isReached, hd, List.filterMap_cons_none hd]
    | some d =>
      obtain ⟨e', hend, hopen, rfl⟩ := demand?_eq_some_iff.mp hd
      rw [List.filterMap_cons_some hd, Limiter.admissions]
      congr 1
      refine if_congr ?_ rfl rfl
      rw [isReached, hd, Endpoint.demand_caller hopen]
      simp only [Bool.and_eq_true, decide_eq_true_iff, hend, Option.some.injEq, Option.any_some]
      refine and_congr_left fun _ => ⟨?_, fun h => ?_⟩
      · rintro ⟨rfl, rfl⟩
        rfl
      · obtain ⟨rfl, rfl⟩ := Endpoint.bucket_inj h
        exact ⟨rfl, rfl⟩

theorem now_sublist (plan : ServicePlan σ) (arrivals : List Arrival) :
    ((arrivals.filterMap (demand? plan)).map Limiter.Demand.now).Sublist
      (arrivals.map Arrival.time) := by
  induction arrivals with
  | nil => exact .slnil
  | cons a rest ih =>
    cases hd : demand? plan a with
    | none =>
      rw [List.filterMap_cons_none hd]
      exact ih.cons _
    | some d =>
      obtain ⟨e, -, -, rfl⟩ := demand?_eq_some_iff.mp hd
      rw [List.filterMap_cons_some hd]
      exact ih.cons_cons _

/-- No stretch of the least age at which a visit may no longer count has more visits than the
limit of the endpoint. -/
theorem countP_visits_le {e : Endpoint} {caller : Text} {limit : Int} {age : ℚ}
    {arrivals : List Arrival} (hempty : s.limiter.times (e.bucket caller) = [])
    (hlimit : e.limit plan = .int limit)
    (hclock : (arrivals.map Arrival.time).Pairwise (Limiter.Ages (e.window plan) age))
    (start : ℚ) :
    (visits plan e caller s arrivals).countP (Number.isWithin start age) ≤ limit.toNat := by
  rw [visits_eq_admissions]
  refine Limiter.countP_admissions_le hempty (hclock.sublist (now_sublist plan arrivals))
    (fun d hd hcaller => ?_) start
  obtain ⟨a, -, ha⟩ := List.mem_filterMap.mp hd
  obtain ⟨e', -, hopen, rfl⟩ := demand?_eq_some_iff.mp ha
  rw [Endpoint.demand_caller hopen] at hcaller
  obtain ⟨rfl, -⟩ := Endpoint.bucket_inj hcaller
  exact ⟨hlimit, rfl⟩

end

end Service

end Replay
