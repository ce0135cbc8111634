import Replay.Proofs.LimiterQuota
import Replay.Proofs.Outcome
import Replay.Service

namespace Replay

variable {σ : Type} {rules : AccessRules} {view : View σ} {call : Call} {s : Served σ}

/-- The state after the limiter was asked. -/
def Served.asked (s : Served σ) (d : Limiter.Demand) : Served σ :=
  { s with limiter := (s.limiter.ask d).2 }

namespace Reply

/-- A value, alone or with one of the statuses that views give. -/
def IsPlain : Reply → Prop
  | value _ => True
  | row items => ∃ v, ∃ status ∈ ([200, 404, 422] : List Int), items = [v, .number (.int status)]
  | finished _ _ => False

theorem isPlain_withStatus {status : Int} (v : Json)
    (h : status ∈ ([200, 404, 422] : List Int)) : (withStatus v status).IsPlain :=
  ⟨v, status, h, rfl⟩

end Reply

namespace Service

/-- The response that is made of what a view gives. -/
def answer (r : Except Failure Reply) : Response :=
  (r.toOption.bind fun reply => reply.response.toOption).getD errorPage

@[simp] theorem answer_done (r : Response) : answer (.ok (.done r)) = r := rfl

theorem serve_eq (name : Text) (view : View σ) (time : Number) (r : Request) (s : Served σ) :
    serve name view time r s =
      (answer (view ⟨r, name, time, none⟩ s).1, (view ⟨r, name, time, none⟩ s).2) := by
  rw [serve]
  rcases view ⟨r, name, time, none⟩ s with ⟨e | reply, s⟩ <;> rfl

/-- The statuses of answers that no guard gives. -/
def viewStatuses : List Int := [200, 400, 404, 422, 500]

end Service

namespace Access

theorem failed_status (e : Failure) : (failed e).status = 400 ∨ (failed e).status = 500 := by
  have hother : (if e.isValueError then Response.ofError 400 e.message
      else .ofError 500 "Internal server error").status = 400 ∨
      (if e.isValueError then Response.ofError 400 e.message
      else .ofError 500 "Internal server error").status = 500 := by
    split
    · exact .inl rfl
    · exact .inr rfl
  cases e with
  | script e => exact .inl rfl
  | _ => exact hother

theorem inJson_of_error {e : Failure} {t : Served σ} (h : view call s = (.error e, t)) :
    inJson view call s = (.ok (.done (failed e)), t) := by
  have hattempt : Action.attempt (view call) s = (.ok (.error e), t) := by
    rw [Action.attempt_apply, h]
  rw [inJson, Action.bind_ok _ hattempt]
  rfl

theorem inJson_of_ok {reply : Reply} {t : Served σ} (h : view call s = (.ok reply, t)) :
    inJson view call s = (reply.inJson, t) := by
  have hattempt : Action.attempt (view call) s = (.ok (.ok reply), t) := by
    rw [Action.attempt_apply, h]
  rw [inJson, Action.bind_ok _ hattempt]
  rfl

/-- The answer in JSON to a view that gives plain replies. -/
theorem inJson_status (h : Action.Yields (view call) Reply.IsPlain) (s : Served σ) :
    (Service.answer (inJson view call s).1).status ∈ Service.viewStatuses := by
  rcases hview : view call s with ⟨e | reply, t⟩
  · rw [inJson_of_error hview]
    rcases failed_status e with h | h <;> simp [h, Service.viewStatuses]
  · rw [inJson_of_ok hview]
    have hplain := h hview
    cases reply with
    | value v =>
      have hanswer : (Service.answer (Reply.value v).inJson).status = 200 := rfl
      rw [hanswer]
      decide
    | row items =>
      obtain ⟨v, status, hstatus, rfl⟩ := hplain
      have hanswer : (Service.answer (Reply.row [v, .number (.int status)]).inJson).status =
          status := rfl
      rw [hanswer]
      have hsub : ([200, 404, 422] : List Int) ⊆ Service.viewStatuses := by decide
      exact hsub hstatus
    | finished r given => exact hplain.elim

theorem inJson_preserves {i : Served σ → Prop} (h : Action.Preserves i (view call)) :
    Action.Preserves i (inJson view call) := by
  refine h.attempt.bind fun r => ?_
  cases r with
  | error e => exact .pure _
  | ok reply => exact .ofExcept _

theorem onInner_preserves {α : Type} (a : Action σ α) (limiter : Limiter) :
    Action.Preserves (fun s : Served σ => s.limiter = limiter) (onInner a) := fun _ h => h

theorem onInner_yields {α : Type} {a : Action σ α} {p : α → Prop} (h : Action.Yields a p) :
    Action.Yields (onInner a) p := h.lift

/-- A known key opens the view. -/
theorem keyed_of_admits (h : admits rules.keys call.request = .ok true) (s : Served σ) :
    keyed rules view call s = view { call with key := some (givenKey call.request) } s := by
  have hadmits : (Action.ofExcept (admits rules.keys call.request) : Action (Served σ) Bool) s =
      (.ok true, s) := congrArg (·, s) h
  rw [keyed, Action.bind_ok _ hadmits]
  rfl

/-- Without a known key nothing is done. -/
theorem keyed_of_not_admits (h : admits rules.keys call.request ≠ .ok true) (s : Served σ) :
    (keyed rules view call s).2 = s ∧
      ((Service.answer (keyed rules view call s).1).status = 401 ∨
        (Service.answer (keyed rules view call s).1).status = 500) := by
  cases hadmits : admits rules.keys call.request with
  | error e =>
    have hfails : (Action.ofExcept (admits rules.keys call.request) : Action (Served σ) Bool) s =
        (.error e, s) := congrArg (·, s) hadmits
    rw [keyed, Action.bind_error _ hfails]
    exact ⟨rfl, .inr rfl⟩
  | ok known =>
    obtain rfl : known = false := by simpa [hadmits] using h
    have hfalse : (Action.ofExcept (admits rules.keys call.request) : Action (Served σ) Bool) s =
        (.ok false, s) := congrArg (·, s) hadmits
    rw [keyed, Action.bind_ok _ hfalse]
    exact ⟨rfl, .inl rfl⟩

/-- A key that a request carries goes before its address. -/
theorem identity_of_key {r : Request} (h : givenKey r ≠ []) :
    identity .standard r = givenKey r := by
  simp [identity, Quota.standard, nonEmpty?, h]

variable {q : Quota} {limit window : Number}

/-- What a view with a quota asks of the limiter. -/
def demand (q : Quota) (limit window : Number) (call : Call) : Limiter.Demand :=
  ⟨call.time, countedAs q call, limit, window⟩

theorem askLimiter_eq {r : Except NumberError Bool}
    (h : (s.limiter.ask (demand q limit window call)).1 = r) :
    askLimiter call.time (countedAs q call) limit window s =
      (r.mapError Failure.number, s.asked (demand q limit window call)) := by
  subst h
  rfl

section

variable (hlimit : chosen q.limit rules.quota = .ok limit)
  (hwindow : chosen q.window rules.window = .ok window)

include hlimit hwindow

theorem limited_apply (view : View σ) (s : Served σ) :
    limited rules q view call s =
      (askLimiter call.time (countedAs q call) limit window >>= fun admitted =>
        if admitted then view call
        else do
          let limiter ← Action.read Served.limiter
          let seconds ← Action.ofExcept
            ((limiter.retryAfter call.time (countedAs q call) window).mapError Failure.number)
          pure (.done (tooMany seconds))) s := by
  have hfirst : (Action.ofExcept (chosen q.limit rules.quota) : Action (Served σ) Number) s =
      (.ok limit, s) := congrArg (·, s) hlimit
  have hsecond : (Action.ofExcept (chosen q.window rules.window) : Action (Served σ) Number) s =
      (.ok window, s) := congrArg (·, s) hwindow
  rw [limited, Action.bind_ok _ hfirst, Action.bind_ok _ hsecond]

/-- A request within the quota gets to the view. -/
theorem limited_of_admitted (h : s.limiter.isAdmitted (demand q limit window call) = true) :
    limited rules q view call s = view call (s.asked (demand q limit window call)) := by
  have hok : (s.limiter.ask (demand q limit window call)).1 = .ok true :=
    toOption_eq_some_iff.mp (of_decide_eq_true h)
  rw [limited_apply hlimit hwindow, Action.bind_ok _ (askLimiter_eq hok)]
  rfl

/-- A request beyond the quota is told when to come back. -/
theorem limited_of_refused (view : View σ)
    (h : (s.limiter.ask (demand q limit window call)).1 = .ok false) :
    limited rules q view call s =
      ((((s.limiter.ask (demand q limit window call)).2.retryAfter call.time
          (countedAs q call) window).mapError Failure.number).map
        fun seconds => .done (tooMany seconds), s.asked (demand q limit window call)) := by
  rw [limited_apply hlimit hwindow, Action.bind_ok _ (askLimiter_eq h)]
  cases hseconds : (s.limiter.ask (demand q limit window call)).2.retryAfter call.time
      (countedAs q call) window <;>
    simp [Action.bind_apply, Action.read, Action.ofExcept, Served.asked, hseconds,
      Except.mapError, Except.map]

/-- A request that is not admitted does not get to the view. -/
theorem limited_of_not_admitted (view : View σ)
    (h : s.limiter.isAdmitted (demand q limit window call) = false) :
    (limited rules q view call s).2 = s.asked (demand q limit window call) ∧
      ((Service.answer (limited rules q view call s).1).status = 429 ∨
        (Service.answer (limited rules q view call s).1).status = 500) := by
  cases hasked : (s.limiter.ask (demand q limit window call)).1 with
  | error e =>
    rw [limited_apply hlimit hwindow, Action.bind_error _ (askLimiter_eq hasked)]
    exact ⟨rfl, .inr rfl⟩
  | ok admitted =>
    obtain rfl : admitted = false := by
      simpa [Limiter.isAdmitted, hasked, Except.toOption] using h
    rw [limited_of_refused hlimit hwindow view hasked]
    cases (s.limiter.ask (demand q limit window call)).2.retryAfter call.time
        (countedAs q call) window with
    | error e => exact ⟨rfl, .inr rfl⟩
    | ok seconds => exact ⟨rfl, .inl rfl⟩

end

end Access

end Replay
