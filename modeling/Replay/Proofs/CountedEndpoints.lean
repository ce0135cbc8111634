import Replay.Proofs.GuardedViews
import Replay.Proofs.KeyedAccess
import Replay.Proofs.RouteSearch

namespace Replay

namespace Service

variable {σ : Type} {plan : ServicePlan σ}

/-- A request at a time of the limiter's clock. -/
structure Arrival where
  time : Number
  request : Request

/-- The endpoints whose requests are counted. -/
inductive Endpoint where
  | validate
  | headless
  | tile
deriving DecidableEq

namespace Endpoint

def all : List Endpoint := [validate, headless, tile]

def name : Endpoint → Text
  | validate => "validate"
  | headless => "headless"
  | tile => "tile"

def ofName? (t : Text) : Option Endpoint := all.find? fun e => e.name = t

/-- Whether only callers with an API key are counted. -/
def isKeyed (e : Endpoint) : Bool := e ≠ validate

def quota (e : Endpoint) : Quota := if e.isKeyed then browserQuota else .standard

def limit (plan : ServicePlan σ) (e : Endpoint) : Number :=
  if e.isKeyed then .int 5 else .int plan.settings.quota

def window (plan : ServicePlan σ) (e : Endpoint) : Number :=
  if e.isKeyed then .int 60 else .int plan.settings.window

/-- What is done for a request that gets through. -/
def body (plan : ServicePlan σ) (id : Text) : Endpoint → View (Session σ)
  | validate => Service.validate plan.depth
  | headless => fun call =>
    Access.onInner (withGame plan id (runScript plan id call.request))
  | tile => fun _ => Access.onInner (withGame plan id (takeTile plan id))

/-- The view with the guard that counts. -/
def counted (plan : ServicePlan σ) (id : Text) (e : Endpoint) : View (Session σ) :=
  Access.limited (.ofSettings plan.settings) e.quota (Access.inJson (e.body plan id))

/-- The view with all guards. -/
def view (plan : ServicePlan σ) (id : Text) (e : Endpoint) : View (Session σ) :=
  if e.isKeyed then Access.keyed (.ofSettings plan.settings) (e.counted plan id)
  else e.counted plan id

/-- Whether a request may be counted. -/
def isOpen (plan : ServicePlan σ) (e : Endpoint) (r : Request) : Bool :=
  !e.isKeyed || (Access.admits (AccessRules.ofSettings plan.settings).keys r).toOption = some true

/-- The call that gets to the guard that counts. -/
def call (e : Endpoint) (a : Arrival) : Call :=
  ⟨a.request, e.name, a.time, if e.isKeyed then some (Access.givenKey a.request) else none⟩

/-- What is asked of the limiter. -/
def demand (plan : ServicePlan σ) (e : Endpoint) (a : Arrival) : Limiter.Demand :=
  Access.demand e.quota (e.limit plan) (e.window plan) (e.call a)

/-- Whom a request is counted for. -/
def callerOf (e : Endpoint) (r : Request) : Text :=
  if e.isKeyed then Access.givenKey r else Access.identity .standard r

/-- The name under which a caller is counted. -/
def bucket (e : Endpoint) (caller : Text) : Text := e.name ++ ":" ++ caller

/-- The name under which a request is counted tells its endpoint and its caller. -/
theorem bucket_inj {e e' : Endpoint} {caller caller' : Text}
    (h : e.bucket caller = e'.bucket caller') : e = e' ∧ caller = caller' := by
  have hfirst (e : Endpoint) (caller : Text) : (e.bucket caller).head? = e.name.head? := by
    cases e <;> rfl
  have hheads : e.name.head? = e'.name.head? := by
    rw [← hfirst e caller, h, hfirst]
  have he : e = e' := by
    revert hheads
    cases e <;> cases e' <;> decide
  subst he
  exact ⟨rfl, List.append_cancel_left h⟩

theorem ofName?_name (e : Endpoint) : ofName? e.name = some e := by
  cases e <;> decide

theorem isOpen_iff {e : Endpoint} {r : Request} :
    e.isOpen plan r = true ↔ e.isKeyed = true →
      Access.admits (AccessRules.ofSettings plan.settings).keys r = .ok true := by
  rw [isOpen, ← toOption_eq_some_iff]
  cases e.isKeyed <;> simp

theorem givenKey_ne_nil {e : Endpoint} {r : Request} (h : e.isOpen plan r = true)
    (hkeyed : e.isKeyed = true) : Access.givenKey r ≠ [] := by
  intro hnil
  have hadmits := isOpen_iff.mp h hkeyed
  simp [Access.admits, hnil] at hadmits

/-- A request is counted under the name of its caller. -/
theorem demand_caller {e : Endpoint} {a : Arrival} (h : e.isOpen plan a.request = true) :
    (e.demand plan a).caller = e.bucket (e.callerOf a.request) := by
  have hidentity : (e.demand plan a).caller = e.bucket (Access.identity .standard a.request) := by
    cases e <;> rfl
  rw [hidentity, callerOf]
  cases hkeyed : e.isKeyed with
  | false => rfl
  | true =>
    rw [Access.identity_of_key (givenKey_ne_nil h hkeyed)]
    rfl

theorem chosen_limit (plan : ServicePlan σ) (e : Endpoint) :
    Access.chosen e.quota.limit (AccessRules.ofSettings plan.settings).quota =
      .ok (e.limit plan) := by
  cases e <;> rfl

theorem chosen_window (plan : ServicePlan σ) (e : Endpoint) :
    Access.chosen e.quota.window (AccessRules.ofSettings plan.settings).window =
      .ok (e.window plan) := by
  cases e <;> rfl

theorem withGame_isPlain (plan : ServicePlan σ) (id : Text)
    {body : Path → Action (Session σ) Reply}
    (h : ∀ directory, Action.Yields (body directory) Reply.IsPlain) :
    Action.Yields (withGame plan id body) Reply.IsPlain := by
  refine (Action.Yields.trivial _).bind fun directory _ => ?_
  refine (Action.Yields.trivial _).bind fun isDirectory _ => ?_
  split
  · exact h directory
  · exact .pure (Reply.isPlain_withStatus _ (by decide))

theorem runScript_isPlain (plan : ServicePlan σ) (id : Text) (r : Request) (directory : Path) :
    Action.Yields (runScript plan id r directory) Reply.IsPlain := by
  refine (Action.Yields.trivial _).bind fun script _ => ?_
  refine (Action.Yields.trivial _).bind fun files _ => ?_
  refine (Action.Yields.trivial _).bind fun settings _ => ?_
  refine (Action.Yields.trivial _).bind fun result _ => ?_
  refine .pure (Reply.isPlain_withStatus _ ?_)
  cases result.ok <;> decide

theorem takeTile_isPlain (plan : ServicePlan σ) (id : Text) (directory : Path) :
    Action.Yields (takeTile plan id directory) Reply.IsPlain := by
  refine (Action.Yields.trivial _).bind fun result _ => ?_
  split
  · exact .pure (Reply.isPlain_withStatus _ (by decide))
  · exact .fail _
  · exact .pure (Reply.isPlain_withStatus _ (by decide))

theorem body_isPlain (plan : ServicePlan σ) (id : Text) (e : Endpoint) (call : Call) :
    Action.Yields (e.body plan id call) Reply.IsPlain := by
  cases e with
  | validate =>
    refine (Action.Yields.trivial _).bind fun input _ => ?_
    refine (Action.Yields.trivial _).bind fun script _ => ?_
    exact .pure trivial
  | headless =>
    exact Access.onInner_yields (withGame_isPlain plan id (runScript_isPlain plan id call.request))
  | tile => exact Access.onInner_yields (withGame_isPlain plan id (takeTile_isPlain plan id))

theorem body_preserves (plan : ServicePlan σ) (id : Text) (e : Endpoint) (call : Call)
    (limiter : Limiter) :
    Action.Preserves (fun s : Served (Session σ) => s.limiter = limiter) (e.body plan id call) := by
  cases e with
  | validate =>
    refine (Action.Preserves.ofExcept _).bind fun input => ?_
    exact (Action.Preserves.ofExcept _).bind fun script => .pure _
  | headless => exact Access.onInner_preserves _ limiter
  | tile => exact Access.onInner_preserves _ limiter

end Endpoint

/-- The view that a request is led to, with its name; none if it is answered without a view. -/
def found? (plan : ServicePlan σ) (r : Request) : Option (Text × View (Session σ)) :=
  if isTooLarge plan.settings.sizeLimit r || !r.hasHost then none
  else
    match Route.choose (routes plan) ⟨r.method, r.isSocket⟩ r.target.path with
    | .found name view => some (name, view)
    | _ => none

def endpoint? (plan : ServicePlan σ) (r : Request) : Option Endpoint :=
  (found? plan r).bind fun f => Endpoint.ofName? f.1

/-- What the limiter is asked about a request, if it is asked at all. -/
def demand? (plan : ServicePlan σ) (a : Arrival) : Option Limiter.Demand :=
  (endpoint? plan a.request).bind fun e =>
    if e.isOpen plan a.request then some (e.demand plan a) else none

section

variable {r : Request} {name : Text} {view : View (Session σ)} {s : Served (Session σ)}

theorem found?_eq_some_iff :
    found? plan r = some (name, view) ↔
      isTooLarge plan.settings.sizeLimit r = false ∧ r.hasHost = true ∧
        Route.choose (routes plan) ⟨r.method, r.isSocket⟩ r.target.path = .found name view := by
  rw [found?]
  cases isTooLarge plan.settings.sizeLimit r <;> cases r.hasHost <;>
    cases Route.choose (routes plan) ⟨r.method, r.isSocket⟩ r.target.path <;> simp

theorem handle_of_found (time : Number) (h : found? plan r = some (name, view)) :
    handle plan time r s =
      ((answer (view ⟨r, name, time, none⟩ s).1).sent r.methodName,
        (view ⟨r, name, time, none⟩ s).2) := by
  obtain ⟨hsmall, hhost, hroute⟩ := found?_eq_some_iff.mp h
  rw [handle, hsmall, dispatch, respond, hhost, hroute]
  dsimp only
  rw [serve_eq]
  rfl

/-- A request that is answered without a view changes nothing, and is not told to come back. -/
theorem handle_of_not_found (time : Number) (h : found? plan r = none) (s : Served (Session σ)) :
    (handle plan time r s).2 = s ∧
      (handle plan time r s).1.status ≠ 429 := by
  rw [handle]
  cases hsmall : isTooLarge plan.settings.sizeLimit r with
  | true => exact ⟨rfl, (by decide : (413 : Int) ≠ 429)⟩
  | false =>
    rw [dispatch, respond]
    cases hhost : r.hasHost with
    | false => exact ⟨rfl, (by decide : (400 : Int) ≠ 429)⟩
    | true =>
      cases hroute : Route.choose (routes plan) ⟨r.method, r.isSocket⟩ r.target.path with
      | found name view =>
        rw [found?_eq_some_iff.mpr ⟨hsmall, hhost, hroute⟩] at h
        cases h
      | inquiry => exact ⟨rfl, (by decide : (200 : Int) ≠ 429)⟩
      | moved path => exact ⟨rfl, (by decide : (308 : Int) ≠ 429)⟩
      | wrongMethod => exact ⟨rfl, (by decide : (405 : Int) ≠ 429)⟩
      | wrongConnection => exact ⟨rfl, (by decide : (400 : Int) ≠ 429)⟩
      | missing => exact ⟨rfl, (by decide : (404 : Int) ≠ 429)⟩

/-- A view is that of an endpoint that is counted, or else it changes nothing. -/
theorem view_of_found (h : found? plan r = some (name, view)) :
    (∃ e id, name = Endpoint.name e ∧ view = e.view plan id) ∨
      Endpoint.ofName? name = none ∧ ∀ call s, (view call s).2 = s ∧
        (answer (view call s).1).status ≠ 429 := by
  obtain ⟨-, -, hroute⟩ := found?_eq_some_iff.mp h
  obtain ⟨route, hmem, rfl, -, -, values, rfl⟩ := Route.offers_of_choose hroute
  simp only [routes, List.mem_cons, List.not_mem_nil, or_false] at hmem
  rcases hmem with rfl | rfl | rfl | rfl | rfl
  · exact .inr ⟨rfl, fun call s => ⟨rfl, (by decide : (404 : Int) ≠ 429)⟩⟩
  · exact .inr ⟨rfl, fun call s => ⟨rfl, (by decide : (200 : Int) ≠ 429)⟩⟩
  · exact .inl ⟨.validate, [], rfl, rfl⟩
  · exact .inl ⟨.headless, idOf values, rfl, rfl⟩
  · exact .inl ⟨.tile, idOf values, rfl, rfl⟩

end

section

variable {a : Arrival} {e : Endpoint} {d : Limiter.Demand} {s : Served (Session σ)}

theorem found_of_endpoint (h : endpoint? plan a.request = some e) :
    ∃ id, found? plan a.request = some (e.name, e.view plan id) := by
  obtain ⟨⟨name, view⟩, hfound, hname⟩ := Option.bind_eq_some_iff.mp h
  rcases view_of_found hfound with ⟨e', id, rfl, rfl⟩ | ⟨hnone, -⟩
  · obtain rfl : e' = e := Option.some.inj ((Endpoint.ofName?_name e').symm.trans hname)
    exact ⟨id, hfound⟩
  · cases hnone.symm.trans hname

theorem demand?_eq_some_iff :
    demand? plan a = some d ↔ ∃ e, endpoint? plan a.request = some e ∧
      e.isOpen plan a.request = true ∧ e.demand plan a = d := by
  rw [demand?, Option.bind_eq_some_iff]
  refine exists_congr fun e => and_congr_right fun _ => ?_
  cases e.isOpen plan a.request <;> simp

/-- Without a key that is needed the view is left at the first guard. -/
theorem view_of_not_isOpen (h : e.isOpen plan a.request = false) (id : Text)
    (s : Served (Session σ)) :
    let result := e.view plan id ⟨a.request, e.name, a.time, none⟩ s
    result.2 = s ∧ ((answer result.1).status = 401 ∨ (answer result.1).status = 500) := by
  intro result
  obtain ⟨hkeyed, hadmits⟩ := Classical.not_imp.mp fun hopen =>
    Bool.false_ne_true (h.symm.trans (Endpoint.isOpen_iff.mpr hopen))
  have hresult : result = Access.keyed (.ofSettings plan.settings) (e.counted plan id)
      ⟨a.request, e.name, a.time, none⟩ s := by
    show e.view plan id _ s = _
    rw [Endpoint.view, if_pos hkeyed]
  rw [hresult]
  exact Access.keyed_of_not_admits hadmits s

theorem view_of_isOpen (h : e.isOpen plan a.request = true) (id : Text)
    (s : Served (Session σ)) :
    e.view plan id ⟨a.request, e.name, a.time, none⟩ s = e.counted plan id (e.call a) s := by
  rw [Endpoint.view, Endpoint.call]
  cases hkeyed : e.isKeyed with
  | false => rfl
  | true =>
    have hadmits := Endpoint.isOpen_iff.mp h hkeyed
    exact Access.keyed_of_admits hadmits s

/-- A request that is not counted changes nothing, and is not told to come back. -/
theorem handle_of_not_counted (h : demand? plan a = none) (s : Served (Session σ)) :
    (handle plan a.time a.request s).2 = s ∧
      (handle plan a.time a.request s).1.status ≠ 429 := by
  cases hfound : found? plan a.request with
  | none => exact handle_of_not_found a.time hfound s
  | some found =>
    obtain ⟨name, view⟩ := found
    rw [handle_of_found a.time hfound]
    rcases view_of_found hfound with ⟨e, id, rfl, rfl⟩ | ⟨-, hview⟩
    · have hend : endpoint? plan a.request = some e := by
        rw [endpoint?, hfound]
        exact e.ofName?_name
      have hclosed : e.isOpen plan a.request = false := by
        rw [demand?, hend] at h
        simpa using h
      obtain ⟨hstate, hstatus⟩ := view_of_not_isOpen hclosed id s
      exact ⟨hstate, show (answer _).status ≠ 429 by omega⟩
    · exact hview _ s

/-- A request that is counted is for the guard of its endpoint that counts. -/
theorem handle_of_counted (hend : endpoint? plan a.request = some e)
    (hopen : e.isOpen plan a.request = true) :
    ∃ id, ∀ s : Served (Session σ), handle plan a.time a.request s =
      ((answer (e.counted plan id (e.call a) s).1).sent a.request.methodName,
        (e.counted plan id (e.call a) s).2) := by
  obtain ⟨id, hfound⟩ := found_of_endpoint hend
  refine ⟨id, fun s => ?_⟩
  rw [handle_of_found a.time hfound, view_of_isOpen hopen]

end

end Service

end Replay
