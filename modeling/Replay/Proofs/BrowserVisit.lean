import Replay.Browser
import Replay.Proofs.Outcome

namespace Replay

variable {σ α β : Type}

/-- A call of a browser with what came of it. -/
structure BrowserEvent where
  call : BrowserCall
  outcome : Except Failure Json

/-- A browser with the calls made of it. -/
structure Traced (σ : Type) where
  host : σ
  trace : List BrowserEvent

/-- The browser with its calls traced. -/
def Browser.traced (browser : Browser σ) : Browser (Traced σ) := fun call t =>
  match browser call t.host with
  | (r, host) => (r, ⟨host, t.trace ++ [⟨call, r⟩]⟩)

theorem Browser.traced_apply (browser : Browser σ) (call : BrowserCall) (t : Traced σ) :
    browser.traced call t =
      ((browser call t.host).1,
        ⟨(browser call t.host).2, t.trace ++ [⟨call, (browser call t.host).1⟩]⟩) := rfl

/-- What is done with a driver: calls in order, each chosen by what came of those before. -/
inductive Client (α : Type) where
  | done (r : Except Failure α)
  | runFrames (count : Number) (next : Except Failure Unit → Client α)
  | applyInput (event : Event) (next : Except Failure Unit → Client α)
  | captureSnapshot (next : Except Failure Snapshot → Client α)
  | readFrameCount (next : Except Failure Json → Client α)

def Client.run (driver : Driver σ) : Client α → Action σ α
  | done r => Action.ofExcept r
  | runFrames count next => do
    let r ← Action.attempt (driver.runFrames count)
    (next r).run driver
  | applyInput event next => do
    let r ← Action.attempt (driver.applyInput event)
    (next r).run driver
  | captureSnapshot next => do
    let r ← Action.attempt driver.captureSnapshot
    (next r).run driver
  | readFrameCount next => do
    let r ← Action.attempt driver.readFrameCount
    (next r).run driver

namespace BrowserCall

/-- The calls that forward those of a driver. -/
def isDriving : BrowserCall → Bool
  | harness .bootstrap _ _ => false
  | harness _ _ _ => true
  | _ => false

/-- A call that neither forwards one of a driver nor takes a page down. -/
structure Opens (call : BrowserCall) : Prop where
  driving : call.isDriving = false
  destroy : call ≠ .destroy Harness.standardGlobal
  context : call ≠ .closeContext
  browser : call ≠ .closeBrowser

end BrowserCall

namespace BrowserEvent

/-- Events of calls made one after the other until one fails, and whether all returned. -/
inductive Tries : List BrowserCall → Bool → List BrowserEvent → Prop
  | nil : Tries [] true []
  | failed (call : BrowserCall) (rest : List BrowserCall) (e : Failure) :
    Tries (call :: rest) false [⟨call, .error e⟩]
  | returned (call : BrowserCall) (answer : Json) {rest : List BrowserCall} {all : Bool}
    {events : List BrowserEvent} (h : Tries rest all events) :
    Tries (call :: rest) all (⟨call, .ok answer⟩ :: events)

namespace Tries

variable {xs ys : List BrowserCall} {es fs : List BrowserEvent} {all : Bool}

theorem append (h : Tries xs true es) (h' : Tries ys all fs) :
    Tries (xs ++ ys) all (es ++ fs) := by
  generalize htrue : true = ok at h
  induction h with
  | nil => exact h'
  | failed => cases htrue
  | returned call answer _ ih => exact .returned call answer (ih htrue)

theorem append_of_failed (h : Tries xs false es) (ys : List BrowserCall) :
    Tries (xs ++ ys) false es := by
  generalize hfalse : false = ok at h
  induction h with
  | nil => cases hfalse
  | failed call rest e => exact .failed call (rest ++ ys) e
  | returned call answer _ ih => exact .returned call answer (ih hfalse)

theorem map_call (h : Tries xs true es) : es.map call = xs := by
  generalize htrue : true = ok at h
  induction h with
  | nil => rfl
  | failed => cases htrue
  | returned call answer _ ih => rw [List.map_cons, ih htrue]

theorem returned_of_mem (h : Tries xs true es) {call : BrowserCall} (hcall : call ∈ xs) :
    ∃ answer, ⟨call, .ok answer⟩ ∈ es := by
  generalize htrue : true = ok at h
  induction h with
  | nil => cases hcall
  | failed => cases htrue
  | returned first answer _ ih =>
    rcases List.mem_cons.mp hcall with rfl | hcall
    · exact ⟨answer, List.mem_cons_self⟩
    · obtain ⟨answer', hmem⟩ := ih hcall htrue
      exact ⟨answer', List.mem_cons_of_mem _ hmem⟩

theorem call_mem (h : Tries xs all es) : ∀ e ∈ es, e.call ∈ xs := by
  induction h with
  | nil => simp
  | failed => simp
  | returned call answer _ ih =>
    intro e he
    rcases List.mem_cons.mp he with rfl | he
    · exact List.mem_cons_self
    · exact List.mem_cons_of_mem call (ih e he)

theorem last_not_returned {call : BrowserCall} (h : Tries (xs ++ [call]) false es)
    (hcall : call ∉ xs) (answer : Json) : ⟨call, .ok answer⟩ ∉ es := by
  induction xs generalizing es with
  | nil =>
    cases h with
    | failed => simp
    | returned _ _ h => cases h
  | cons first rest ih =>
    obtain ⟨hfirst, hrest⟩ := not_or.mp (mt List.mem_cons.mpr hcall)
    cases h with
    | failed => simp
    | returned _ answer' h =>
      intro hmem
      rcases List.mem_cons.mp hmem with heq | hmem
      · exact hfirst (BrowserEvent.mk.inj heq).1
      · exact ih h hrest hmem

end Tries

end BrowserEvent

namespace Action

open BrowserEvent

variable {calls xs ys : List BrowserCall} {a : Action (Traced σ) α}

/-- The action makes the calls one after the other until one fails, and succeeds if none does. -/
def Performs (calls : List BrowserCall) (a : Action (Traced σ) α) : Prop :=
  ∀ t, ∃ events, (a t).2.trace = t.trace ++ events ∧ Tries calls (a t).1.toBool events

namespace Performs

theorem pure (x : α) : Performs [] (Pure.pure x : Action (Traced σ) α) :=
  fun _ => ⟨[], (List.append_nil _).symm, .nil⟩

theorem traced (browser : Browser σ) (call : BrowserCall) :
    Performs [call] (browser.traced call) := by
  intro t
  refine ⟨[⟨call, (browser call t.host).1⟩], rfl, ?_⟩
  rw [Browser.traced_apply]
  cases (browser call t.host).1 with
  | ok answer => exact .returned call answer .nil
  | error e => exact .failed call [] e

theorem bind {f : α → Action (Traced σ) β} (h : Performs xs a) (hf : ∀ x, Performs ys (f x)) :
    Performs (xs ++ ys) (a >>= f) := by
  intro t
  obtain ⟨es, htrace, hes⟩ := h t
  rw [Action.bind_apply]
  cases ha : a t with
  | mk r u =>
    rw [ha] at htrace hes
    cases r with
    | ok x =>
      obtain ⟨fs, htraces, hfs⟩ := hf x u
      exact ⟨es ++ fs, by rw [htraces, htrace, List.append_assoc], hes.append hfs⟩
    | error e => exact ⟨es, htrace, hes.append_of_failed ys⟩

/-- A failure may be put in other words. -/
theorem reword {f : Except Failure α → Action (Traced σ) β} (h : Performs calls a)
    (hok : ∀ x, ∃ y, f (.ok x) = Pure.pure y) (herror : ∀ e, ∃ e', f (.error e) = Action.fail e') :
    Performs calls (attempt a >>= f) := by
  intro t
  obtain ⟨es, htrace, hes⟩ := h t
  rw [Action.bind_apply, Action.attempt_apply]
  refine ⟨es, ?_⟩
  cases hr : (a t).1 with
  | ok x =>
    obtain ⟨y, hy⟩ := hok x
    rw [hr] at hes
    simp only [hy]
    exact ⟨htrace, hes⟩
  | error e =>
    obtain ⟨e', he⟩ := herror e
    rw [hr] at hes
    simp only [he]
    exact ⟨htrace, hes⟩

end Performs

/-- The action makes only calls that forward those of a driver. -/
def Drives (a : Action (Traced σ) α) : Prop :=
  ∀ t, ∃ events, (a t).2.trace = t.trace ++ events ∧ ∀ e ∈ events, e.call.isDriving = true

namespace Drives

theorem ofExcept (r : Except Failure α) : Drives (Action.ofExcept r : Action (Traced σ) α) :=
  fun _ => ⟨[], (List.append_nil _).symm, by simp⟩

theorem bind {f : α → Action (Traced σ) β} (h : Drives a) (hf : ∀ x, Drives (f x)) :
    Drives (a >>= f) := by
  intro t
  obtain ⟨es, htrace, hes⟩ := h t
  rw [Action.bind_apply]
  cases ha : a t with
  | mk r u =>
    rw [ha] at htrace
    cases r with
    | ok x =>
      obtain ⟨fs, htraces, hfs⟩ := hf x u
      refine ⟨es ++ fs, by rw [htraces, htrace, List.append_assoc], fun e he => ?_⟩
      exact (List.mem_append.mp he).elim (hes e) (hfs e)
    | error e => exact ⟨es, htrace, hes⟩

theorem attempt (h : Drives a) : Drives (Action.attempt a) := h

theorem of_performs (h : Performs calls a) (hcalls : ∀ c ∈ calls, c.isDriving = true) :
    Drives a := by
  intro t
  obtain ⟨es, htrace, hes⟩ := h t
  exact ⟨es, htrace, fun e he => hcalls _ (hes.call_mem e he)⟩

end Drives

end Action

namespace Harness

theorem call_performs (browser : Browser σ) (global : Text) (method : HarnessMethod)
    (args : List Json) :
    Action.Performs [.harness method global args] (call browser.traced global method args) := by
  refine (Action.Performs.traced browser _).reword (fun x => ⟨x, rfl⟩) fun e => ?_
  cases e with
  | browser message => exact ⟨_, rfl⟩
  | _ => exact ⟨_, rfl⟩

theorem call_drives (browser : Browser σ) (global : Text) {method : HarnessMethod}
    (args : List Json) (h : method ≠ .bootstrap) :
    Action.Drives (call browser.traced global method args) := by
  refine .of_performs (call_performs browser global method args) fun c hc => ?_
  obtain rfl := List.mem_singleton.mp hc
  cases method with
  | bootstrap => exact absurd rfl h
  | _ => rfl

end Harness

/-- Whatever is done with a driver makes only calls that forward its own. -/
theorem Client.run_drives (browser : Browser σ) (global : Text) (client : Client α) :
    Action.Drives (client.run (Harness.driver browser.traced global)) := by
  have hcall {method : HarnessMethod} (args : List Json) (h : method ≠ .bootstrap) :
      Action.Drives (Harness.call browser.traced global method args) :=
    Harness.call_drives browser global args h
  induction client with
  | done r => exact .ofExcept r
  | runFrames count next ih =>
    refine Action.Drives.bind (.attempt ?_) ih
    exact (hcall _ (by decide)).bind fun _ => .ofExcept (.ok ())
  | applyInput event next ih =>
    refine Action.Drives.bind (.attempt ?_) ih
    exact (hcall _ (by decide)).bind fun _ => .ofExcept (.ok ())
  | captureSnapshot next ih =>
    refine Action.Drives.bind (.attempt ?_) ih
    exact (hcall _ (by decide)).bind fun _ => .ofExcept _
  | readFrameCount next ih =>
    refine Action.Drives.bind (.attempt ?_) ih
    exact (hcall _ (by decide)).bind fun _ => .ofExcept _

namespace BrowserHost

open BrowserEvent

variable {viewport : Viewport} {settings : Settings} {source : Text} {files : FileSystem}

def launchCall (settings : Settings) : BrowserCall :=
  .launch (!settings.showBrowser) settings.browserArgs

def bootstrapCall : BrowserCall :=
  .harness .bootstrap Harness.standardGlobal [.text Canvas.standardId]

/-- The calls that put the game into a page of a browser that was launched. -/
def loadingCalls (viewport : Viewport) (settings : Settings) (source : Text) : List BrowserCall :=
  [.newContext viewport, .setTimeout settings.timeout, .newPage, .onConsole,
    .setContent (Canvas.document Canvas.standardId), .addScript source,
    .waitFor Harness.standardGlobal]

/-- The calls after the launch that open a page; the last one brings up its harness. -/
def pageCalls (viewport : Viewport) (settings : Settings) (source : Text) : List BrowserCall :=
  loadingCalls viewport settings source ++ [bootstrapCall]

theorem opens_of_mem_pageCalls {call : BrowserCall}
    (h : call ∈ launchCall settings :: pageCalls viewport settings source) : call.Opens := by
  simp only [pageCalls, loadingCalls, List.mem_cons, List.mem_append, List.not_mem_nil,
    or_false] at h
  rcases h with rfl | (rfl | rfl | rfl | rfl | rfl | rfl | rfl) | rfl <;>
    exact ⟨rfl, nofun, nofun, nofun⟩

theorem openPage_performs (browser : Browser σ) (viewport : Viewport) (settings : Settings)
    (source : Text) :
    Action.Performs (pageCalls viewport settings source)
      (openPage browser.traced viewport settings source) := by
  have hone (call : BrowserCall) : Action.Performs [call] (browser.traced call) :=
    .traced browser call
  have hload : Action.Performs
      [.setContent (Canvas.document Canvas.standardId), .addScript source,
        .waitFor Harness.standardGlobal] (load browser.traced source) := by
    refine Action.Performs.reword ?_ (fun x => ⟨(), rfl⟩) fun e => ?_
    · exact (hone _).bind fun _ => (hone _).bind fun _ => hone _
    · cases e with
      | browser message => exact ⟨_, rfl⟩
      | _ => exact ⟨_, rfl⟩
  refine (hone _).bind fun _ => (hone _).bind fun _ => (hone _).bind fun _ => ?_
  refine (hone _).bind fun _ => hload.bind fun _ => ?_
  exact (Harness.call_performs browser _ .bootstrap _).bind fun _ => .pure ()

/-- The browser is closed, whatever came of the action; a failure to close it goes first. -/
theorem thenClose_apply (browser : Browser σ) (action : Action (Traced σ) Unit) (t : Traced σ) :
    ∃ closed,
      (thenClose browser.traced action t).1 = (closed >>= fun _ => (action t).1) ∧
      (thenClose browser.traced action t).2.trace =
        (action t).2.trace ++ [⟨.closeBrowser, closed⟩] := by
  rw [thenClose, Action.bind_apply, Action.attempt_apply]
  refine ⟨(browser .closeBrowser (action t).2.host).1, ?_⟩
  have hclose := Browser.traced_apply browser .closeBrowser (action t).2
  cases hc : (browser .closeBrowser (action t).2.host).1 with
  | ok answer =>
    rw [hc] at hclose
    dsimp only
    rw [Action.bind_ok _ hclose]
    exact ⟨rfl, rfl⟩
  | error e =>
    rw [hc] at hclose
    dsimp only
    rw [Action.bind_error _ hclose]
    exact ⟨rfl, rfl⟩

/-- What can come of entering with a harness at hand, and the calls that it takes. -/
inductive Entered (viewport : Viewport) (settings : Settings) (source : Text) :
    Except Failure Unit → List BrowserEvent → Prop
  | unlaunched (e : Failure) :
    Entered viewport settings source (.error e) [⟨launchCall settings, .error e⟩]
  | unopened (answer : Json) (closed : Except Failure Json) (e : Failure)
    {events : List BrowserEvent} (h : Tries (pageCalls viewport settings source) false events) :
    Entered viewport settings source (closed >>= fun _ => .error e)
      (⟨launchCall settings, .ok answer⟩ :: events ++ [⟨.closeBrowser, closed⟩])
  | opened (answer : Json) {events : List BrowserEvent}
    (h : Tries (pageCalls viewport settings source) true events) :
    Entered viewport settings source (.ok ()) (⟨launchCall settings, .ok answer⟩ :: events)

/-- The launch returned. -/
def Launched (settings : Settings) (trace : List BrowserEvent) : Prop :=
  ∃ answer, ⟨launchCall settings, .ok answer⟩ ∈ trace

/-- The call that brings the harness up returned. -/
def Bootstrapped (trace : List BrowserEvent) : Prop :=
  ∃ answer, ⟨bootstrapCall, .ok answer⟩ ∈ trace

namespace Entered

variable {r : Except Failure Unit} {events : List BrowserEvent}

theorem of_ok (h : Entered viewport settings source (.ok ()) events) :
    events.map call = launchCall settings :: pageCalls viewport settings source ∧
      Bootstrapped events := by
  generalize hr : Except.ok () = r at h
  cases h with
  | unlaunched e => cases hr
  | unopened answer closed e h => cases closed <;> cases hr
  | opened answer h =>
    have hlast : bootstrapCall ∈ pageCalls viewport settings source :=
      List.mem_append_right _ (List.mem_singleton_self _)
    obtain ⟨answer', hmem⟩ := h.returned_of_mem hlast
    exact ⟨congrArg (List.cons _) h.map_call, answer', List.mem_cons_of_mem _ hmem⟩

theorem closes (h : Entered viewport settings source r events) (hr : r.toBool = false)
    (hlaunched : Launched settings events) :
    ∃ before closed, events = before ++ [⟨.closeBrowser, closed⟩] ∧
      ∀ e ∈ before, e.call ≠ .closeBrowser := by
  cases h with
  | unlaunched e =>
    obtain ⟨answer, hmem⟩ := hlaunched
    cases List.mem_singleton.mp hmem
  | unopened answer closed e h =>
    exact ⟨_, closed, rfl, fun ev hev =>
      (opens_of_mem_pageCalls ((Tries.returned _ answer h).call_mem ev hev)).browser⟩
  | opened answer h => cases hr

theorem not_bootstrapped (h : Entered viewport settings source r events) (hr : r.toBool = false) :
    ¬Bootstrapped events := by
  rintro ⟨answer, hmem⟩
  cases h with
  | unlaunched e => cases List.mem_singleton.mp hmem
  | unopened answer' closed e h =>
    rcases List.mem_append.mp hmem with hmem | hmem
    · have hbefore :
          bootstrapCall ∉ launchCall settings :: loadingCalls viewport settings source := by
        simp [bootstrapCall, launchCall, loadingCalls]
      exact (Tries.returned (launchCall settings) answer' h).last_not_returned hbefore answer hmem
    · cases List.mem_singleton.mp hmem
  | opened answer h => cases hr

/-- Where the harness is not brought up, nothing is done with it, and there is nothing to leave. -/
theorem leaves (h : Entered viewport settings source r events) (hr : r.toBool = false) :
    ∀ e ∈ events, e.call.isDriving = false ∧
      e.call ≠ .destroy Harness.standardGlobal ∧ e.call ≠ .closeContext := by
  have hopens {call : BrowserCall}
      (hcall : call ∈ launchCall settings :: pageCalls viewport settings source) :
      call.isDriving = false ∧ call ≠ .destroy Harness.standardGlobal ∧ call ≠ .closeContext :=
    have h := opens_of_mem_pageCalls hcall
    ⟨h.driving, h.destroy, h.context⟩
  intro ev hev
  cases h with
  | unlaunched e =>
    obtain rfl := List.mem_singleton.mp hev
    exact hopens List.mem_cons_self
  | unopened answer closed e h =>
    rcases List.mem_append.mp hev with hev | hev
    · exact hopens ((Tries.returned _ answer h).call_mem ev hev)
    · obtain rfl := List.mem_singleton.mp hev
      exact ⟨rfl, nofun, nofun⟩
  | opened answer h => cases hr

end Entered

theorem enter_entered (browser : Browser σ) (viewport : Viewport)
    (h : settings.readHarness files = .ok source) (t : Traced σ) :
    ∃ events, (enter browser.traced viewport settings files t).2.trace = t.trace ++ events ∧
      Entered viewport settings source (enter browser.traced viewport settings files t).1
        events := by
  have hsource : Action.ofExcept (.ok source) t = (.ok source, t) := rfl
  rw [enter, h, Action.bind_ok _ hsource, ← launchCall]
  have hlaunch := Browser.traced_apply browser (launchCall settings) t
  cases hl : (browser (launchCall settings) t.host).1 with
  | error e =>
    rw [hl] at hlaunch
    rw [Action.bind_error _ hlaunch]
    exact ⟨_, rfl, .unlaunched e⟩
  | ok answer =>
    rw [hl] at hlaunch
    rw [Action.bind_ok _ hlaunch, Action.bind_apply, Action.attempt_apply]
    generalize hu : Traced.mk (browser (launchCall settings) t.host).2
      (t.trace ++ [⟨launchCall settings, .ok answer⟩]) = u
    have htrace : u.trace = t.trace ++ [⟨launchCall settings, .ok answer⟩] := by rw [← hu]
    obtain ⟨events, hopened, hes⟩ := openPage_performs browser viewport settings source u
    rw [htrace, List.append_assoc] at hopened
    cases hr : (openPage browser.traced viewport settings source u).1 with
    | ok _ =>
      rw [hr] at hes
      exact ⟨_, hopened, .opened answer hes⟩
    | error e =>
      rw [hr] at hes
      obtain ⟨closed, hclosed, htaken⟩ := thenClose_apply browser (Action.fail e)
        (openPage browser.traced viewport settings source u).2
      refine ⟨⟨launchCall settings, .ok answer⟩ :: events ++ [⟨.closeBrowser, closed⟩], ?_, ?_⟩
      · refine htaken.trans ?_
        rw [Action.fail_apply, hopened, List.append_assoc, List.append_assoc]
        rfl
      · have hentered := Entered.unopened answer closed e hes
        rw [Action.fail_apply] at hclosed
        rw [← hclosed] at hentered
        exact hentered

/-- A failure to destroy the harness is passed over. -/
theorem closePage_apply {browser : Browser σ}
    (hdestroy : ∀ s e, (browser (.destroy Harness.standardGlobal) s).1 = .error e →
      ∃ message, e = .browser message)
    (failure : Option Failure) (t : Traced σ) :
    ∃ destroyed left,
      (closePage browser.traced failure t).1 = (left >>= fun _ => failure.elim (.ok ()) .error) ∧
      (closePage browser.traced failure t).2.trace =
        t.trace ++ [⟨.destroy Harness.standardGlobal, destroyed⟩, ⟨.closeContext, left⟩] := by
  have hcall := Browser.traced_apply browser (.destroy Harness.standardGlobal) t
  generalize hu : Traced.mk (browser (.destroy Harness.standardGlobal) t.host).2
    (t.trace ++ [⟨.destroy Harness.standardGlobal,
      (browser (.destroy Harness.standardGlobal) t.host).1⟩]) = u at hcall
  have htrace : u.trace = t.trace ++ [⟨.destroy Harness.standardGlobal,
      (browser (.destroy Harness.standardGlobal) t.host).1⟩] := by rw [← hu]
  -- whether the harness is destroyed or not, the context is closed next
  have hnext : closePage browser.traced failure t =
      (browser.traced .closeContext >>= fun _ => failure.elim (pure ()) Action.fail) u := by
    have hattempt : Action.attempt (Harness.destroy browser.traced Harness.standardGlobal) t =
        (.ok ((browser (.destroy Harness.standardGlobal) t.host).1.map fun _ => ()), u) := by
      rw [Action.attempt_apply, Harness.destroy, Action.bind_apply, hcall]
      cases (browser (.destroy Harness.standardGlobal) t.host).1 <;> rfl
    rw [closePage.eq_def, Action.bind_ok _ hattempt]
    cases hr : (browser (.destroy Harness.standardGlobal) t.host).1 with
    | ok answer => cases failure <;> rfl
    | error e =>
      obtain ⟨message, rfl⟩ := hdestroy _ _ hr
      cases failure <;> rfl
  have hclose := Browser.traced_apply browser .closeContext u
  refine ⟨(browser (.destroy Harness.standardGlobal) t.host).1,
    (browser .closeContext u.host).1, ?_⟩
  rw [hnext]
  cases hc : (browser .closeContext u.host).1 with
  | ok answer =>
    rw [hc] at hclose
    rw [Action.bind_ok _ hclose, htrace]
    cases failure <;> exact ⟨rfl, List.append_assoc _ _ _⟩
  | error e =>
    rw [hc] at hclose
    rw [Action.bind_error _ hclose, htrace]
    exact ⟨rfl, List.append_assoc _ _ _⟩

/-- Leaving takes the page and the browser down, each call once, whatever comes of the others. -/
theorem leave_apply {browser : Browser σ}
    (hdestroy : ∀ s e, (browser (.destroy Harness.standardGlobal) s).1 = .error e →
      ∃ message, e = .browser message)
    (viewport : Viewport) (failure : Option Failure) (t : Traced σ) :
    ∃ destroyed left closed,
      ((host browser.traced viewport).leave failure t).1 =
        (closed >>= fun _ => left >>= fun _ => failure.elim (.ok ()) .error) ∧
      ((host browser.traced viewport).leave failure t).2.trace =
        t.trace ++ [⟨.destroy Harness.standardGlobal, destroyed⟩, ⟨.closeContext, left⟩,
          ⟨.closeBrowser, closed⟩] := by
  obtain ⟨destroyed, left, hpage, hmade⟩ := closePage_apply hdestroy failure t
  obtain ⟨closed, hclosed, htaken⟩ := thenClose_apply browser (closePage browser.traced failure) t
  rw [hpage] at hclosed
  rw [hmade, List.append_assoc] at htaken
  exact ⟨destroyed, left, closed, hclosed, htaken⟩

/-- A failure to close goes before what came of the visit; one to destroy the harness does not
count. -/
theorem conclude_apply {browser : Browser σ}
    (hdestroy : ∀ s e, (browser (.destroy Harness.standardGlobal) s).1 = .error e →
      ∃ message, e = .browser message)
    (viewport : Viewport) (r : Except Failure α) (t : Traced σ) :
    ∃ destroyed left closed,
      (Host.conclude id (host browser.traced viewport) r t).1 =
        (do
          let _ ← closed
          let _ ← left
          r) ∧
      (Host.conclude id (host browser.traced viewport) r t).2.trace =
        t.trace ++ [⟨.destroy Harness.standardGlobal, destroyed⟩, ⟨.closeContext, left⟩,
          ⟨.closeBrowser, closed⟩] := by
  cases r with
  | ok x =>
    obtain ⟨destroyed, left, closed, hr, htrace⟩ := leave_apply hdestroy viewport none t
    refine ⟨destroyed, left, closed, ?_⟩
    rw [Host.conclude, id, Action.bind_apply]
    cases hl : (host browser.traced viewport).leave none t with
    | mk q u =>
      rw [hl] at hr htrace
      cases closed <;> cases left <;> cases hr <;> exact ⟨rfl, htrace⟩
  | error e =>
    obtain ⟨destroyed, left, closed, hr, htrace⟩ := leave_apply hdestroy viewport (some e) t
    refine ⟨destroyed, left, closed, ?_⟩
    rw [Host.conclude, id, Action.bind_apply]
    cases hl : (host browser.traced viewport).leave (some e) t with
    | mk q u =>
      rw [hl] at hr htrace
      cases closed <;> cases left <;> cases hr <;> exact ⟨rfl, htrace⟩

theorem closes_last {opening driven : List BrowserEvent}
    (hopening : opening.map BrowserEvent.call =
      launchCall settings :: pageCalls viewport settings source)
    (hdriven : ∀ e ∈ driven, e.call.isDriving = true)
    (destroyed left closed : Except Failure Json) :
    ∃ before last, opening ++ driven ++ [⟨.destroy Harness.standardGlobal, destroyed⟩,
        ⟨.closeContext, left⟩, ⟨.closeBrowser, closed⟩] = before ++ [⟨.closeBrowser, last⟩] ∧
      ∀ e ∈ before, e.call ≠ .closeBrowser := by
  refine ⟨opening ++ driven ++ [⟨.destroy Harness.standardGlobal, destroyed⟩,
    ⟨.closeContext, left⟩], closed, by simp, fun ev hev hcall => ?_⟩
  simp only [List.mem_append, List.mem_cons, List.not_mem_nil, or_false] at hev
  rcases hev with (hev | hev) | rfl | rfl
  · have hin : ev.call ∈ opening.map BrowserEvent.call := List.mem_map_of_mem hev
    exact (opens_of_mem_pageCalls (hopening ▸ hin)).browser hcall
  · have hdriving := hdriven ev hev
    rw [hcall] at hdriving
    cases hdriving
  · cases hcall
  · cases hcall

theorem visit_of_no_harness {e : Failure} (browser : Browser σ) (viewport : Viewport)
    (h : settings.readHarness files = .error e) (body : Action (Traced σ) α) (t : Traced σ) :
    (host browser.traced viewport).visit id settings files body t = (.error e, t) := by
  show (enter browser.traced viewport settings files >>= _) t = _
  rw [enter, h]
  rfl

/-- Once the host is entered the trace goes on with what the client does and then with the calls
that take all down. -/
theorem visit_of_entered {browser : Browser σ}
    (hdestroy : ∀ s e, (browser (.destroy Harness.standardGlobal) s).1 = .error e →
      ∃ message, e = .browser message)
    (viewport : Viewport) (client : Client α) {s t : Traced σ}
    (hin : enter browser.traced viewport settings files s = (.ok (), t)) :
    let body := client.run (Harness.driver browser.traced Harness.standardGlobal)
    let visit := (host browser.traced viewport).visit id settings files body s
    ∃ driven destroyed left closed, (∀ e ∈ driven, e.call.isDriving = true) ∧
      (body t).2.trace = t.trace ++ driven ∧
      visit.2.trace = t.trace ++ driven ++ [⟨.destroy Harness.standardGlobal, destroyed⟩,
        ⟨.closeContext, left⟩, ⟨.closeBrowser, closed⟩] ∧
      visit.1 = (do
        let _ ← closed
        let _ ← left
        (body t).1) := by
  intro body visit
  have hvisit : visit = Host.conclude id (host browser.traced viewport) (body t).1 (body t).2 := by
    show (enter browser.traced viewport settings files >>= fun _ =>
      Action.attempt body >>= fun r => Host.conclude id (host browser.traced viewport) r) s = _
    rw [Action.bind_ok _ hin, Action.bind_apply, Action.attempt_apply]
  obtain ⟨driven, hdriven, hdrives⟩ := client.run_drives browser Harness.standardGlobal t
  obtain ⟨destroyed, left, closed, hresult, htaken⟩ :=
    conclude_apply hdestroy viewport (body t).1 (body t).2
  rw [hdriven] at htaken
  rw [hvisit]
  exact ⟨driven, destroyed, left, closed, hdrives, hdriven, htaken, hresult⟩

/-- Whatever fails during a visit: without a harness nothing is launched, a browser that was
launched is closed once and at last, and the harness is destroyed and the context closed, once
each, exactly if the harness was brought up. All that is done with the driver comes in between, and
what comes of it is what comes of the visit, unless closing fails. -/
theorem visit_life {browser : Browser σ}
    (hdestroy : ∀ s e, (browser (.destroy Harness.standardGlobal) s).1 = .error e →
      ∃ message, e = .browser message)
    (viewport : Viewport) (settings : Settings) (files : FileSystem) (client : Client α) (s : σ) :
    let body := client.run (Harness.driver browser.traced Harness.standardGlobal)
    let visit := (host browser.traced viewport).visit id settings files body ⟨s, []⟩
    let trace := visit.2.trace
    (∀ e, settings.readHarness files = .error e → visit = (.error e, ⟨s, []⟩)) ∧
      (Launched settings trace → ∃ before closed, trace = before ++ [⟨.closeBrowser, closed⟩] ∧
        ∀ e ∈ before, e.call ≠ .closeBrowser) ∧
      (Bootstrapped trace → ∃ source opening driven destroyed left closed t,
        settings.readHarness files = .ok source ∧
        opening.map BrowserEvent.call =
          launchCall settings :: pageCalls viewport settings source ∧
        (∀ e ∈ driven, e.call.isDriving = true) ∧
        trace = opening ++ driven ++ [⟨.destroy Harness.standardGlobal, destroyed⟩,
          ⟨.closeContext, left⟩, ⟨.closeBrowser, closed⟩] ∧
        t.trace = opening ∧ (body t).2.trace = opening ++ driven ∧
        visit.1 = (do
          let _ ← closed
          let _ ← left
          (body t).1)) ∧
      (¬Bootstrapped trace → ∀ e ∈ trace, e.call.isDriving = false ∧
        e.call ≠ .destroy Harness.standardGlobal ∧ e.call ≠ .closeContext) := by
  intro body visit trace
  cases hsource : settings.readHarness files with
  | error e =>
    have hnone : visit = (.error e, ⟨s, []⟩) := visit_of_no_harness browser viewport hsource body _
    have htrace : trace = [] := congrArg (fun v => v.2.trace) hnone
    rw [htrace]
    refine ⟨fun e' he => ?_, fun h => ?_, fun h => ?_, fun _ ev hev => ?_⟩
    · cases he
      exact hnone
    · obtain ⟨_, hmem⟩ := h
      cases hmem
    · obtain ⟨_, hmem⟩ := h
      cases hmem
    · cases hev
  | ok source =>
    refine ⟨fun e he => (by cases he), ?_⟩
    obtain ⟨events, htrace, hentered⟩ := enter_entered browser viewport hsource ⟨s, []⟩
    rw [List.nil_append] at htrace
    cases hin : enter browser.traced viewport settings files ⟨s, []⟩ with
    | mk r t =>
      rw [hin] at htrace hentered
      obtain rfl := htrace
      cases r with
      -- the harness was not brought up: the trace is that of entering
      | error e =>
        have hvisit : visit = (.error e, t) := by
          show (enter browser.traced viewport settings files >>= _) _ = _
          rw [Action.bind_error _ hin]
        have hall : trace = t.trace := congrArg (fun v => v.2.trace) hvisit
        rw [hall]
        have hnot := hentered.not_bootstrapped rfl
        exact ⟨hentered.closes rfl, fun h => (hnot h).elim, fun _ => hentered.leaves rfl⟩
      | ok _ =>
        obtain ⟨driven, destroyed, left, closed, hdrives, hdriven, hall, hresult⟩ :=
          visit_of_entered hdestroy viewport client hin
        have hall : trace = _ := hall
        obtain ⟨hcalls, answer, hmem⟩ := hentered.of_ok
        refine ⟨fun _ => ?_, fun _ => ?_, fun h => ?_⟩
        · rw [hall]
          exact closes_last hcalls hdrives destroyed left closed
        · exact ⟨source, t.trace, driven, destroyed, left, closed, t, rfl, hcalls, hdrives, hall,
            rfl, hdriven, hresult⟩
        · refine absurd ⟨answer, ?_⟩ h
          rw [hall]
          exact List.mem_append_left _ (List.mem_append_left _ hmem)

/-- Where the harness cannot be destroyed, the browser is closed all the same, and the visit goes
well. -/
theorem visit_life_of_stuck_harness :
    let plan : PageRehearsal := ⟨.null, [], [("destroy", "gone")]⟩
    let settings : Settings :=
      ⟨.ofLocation [], .ofLocation ["harness.js"], .ofLocation [], false, false, 1, []⟩
    let files : FileSystem := ⟨[(["harness.js"], .file [])], [], fun _ => none, fun _ _ => none⟩
    let client : Client Unit := .runFrames (.int 2) fun r => .done r
    let body := client.run (Harness.driver plan.browser.traced Harness.standardGlobal)
    let visit :=
      (host plan.browser.traced .standard).visit id settings files body ⟨⟨.int 0, []⟩, []⟩
    visit.1 = .ok () ∧
      ⟨.destroy Harness.standardGlobal, .error (.browser "gone")⟩ ∈ visit.2.trace ∧
      ∃ before closed, visit.2.trace = before ++ [⟨.closeBrowser, closed⟩] ∧
        ∀ e ∈ before, e.call ≠ .closeBrowser := by
  intro plan settings files client body visit
  have hdestroy : ∀ s e, (plan.browser (.destroy Harness.standardGlobal) s).1 = .error e →
      ∃ message, e = .browser message := by
    intro s e h
    cases h
    exact ⟨_, rfl⟩
  obtain ⟨-, hlaunched, -⟩ := visit_life hdestroy .standard settings files client ⟨.int 0, []⟩
  have hlaunch : Launched settings visit.2.trace := ⟨.null, List.mem_of_getElem? (i := 0) (by rfl)⟩
  exact ⟨rfl, List.mem_of_getElem? (i := 10) (by rfl), hlaunched hlaunch⟩

end BrowserHost

end Replay
