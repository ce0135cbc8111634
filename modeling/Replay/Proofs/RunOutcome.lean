import Replay.Proofs.EventBound

namespace Replay

open Text

variable {σ : Type}

/-- The texts of a result that come from outside and are shown as they are. -/
def RunResult.shown (r : RunResult) : List Text :=
  (r.outputDirectory.map Path.text).toList ++ r.diagnostics ++ r.captures.map Artifact.label

theorem RunResult.mem_shown_iff {r : RunResult} {t : Text} :
    t ∈ r.shown ↔ (∃ d, r.outputDirectory = some d ∧ d.text = t) ∨ t ∈ r.diagnostics ∨
      ∃ a ∈ r.captures, a.label = t := by
  simp [shown, Option.map_eq_some_iff]

/-- What holds of every result before its report is written. -/
structure RunResult.IsPrepared (r : RunResult) : Prop where
  directory : ∀ d ∈ r.outputDirectory, FileSystem.nameError? d = none
  frameCount : r.frameCount.IsShowable
  counts : ∀ c ∈ r.eventCounts, c.1.Encodable ∧ c.2.IsShowable
  captures : ∀ a ∈ r.captures, a.frame.IsShowable ∧ a.IsReportable

/-- The same result with its times put in. -/
def RunResult.timed (r : RunResult) (started finished : Moment) (runtime : Number) : RunResult :=
  { r with startedAt := started.text, finishedAt := finished.text, runtime }

/-- The times are all that is put in. -/
theorem RunResult.timed_eq (r : RunResult) (started finished : Moment) (runtime : Number) :
    (r.timed started finished runtime).ok = r.ok ∧
      (r.timed started finished runtime).captures = r.captures ∧
      (r.timed started finished runtime).diagnostics = r.diagnostics := by
  simp only [timed, and_self]

/-- Of all that the report shows only some texts can be without a UTF-8 form. -/
theorem RunResult.IsPrepared.isEncodable_timed_iff {r : RunResult} (h : r.IsPrepared)
    (started finished : Moment) (runtime : Number) :
    (r.timed started finished runtime).IsEncodable ↔ ∀ t ∈ r.shown, t.Encodable := by
  rw [RunResult.timed]
  simp only [mem_shown_iff]
  constructor
  · rintro he t (⟨d, hd, rfl⟩ | ht | ⟨a, ha, rfl⟩)
    · exact he.directory d hd
    · exact he.diagnostics t ht
    · exact (he.captures a ha).1
  · intro hs
    have hdir : ∀ d ∈ r.outputDirectory, d.text.Encodable := by
      intro d hd
      exact hs d.text (.inl ⟨d, hd, rfl⟩)
    have hcap : ∀ a ∈ r.captures, a.label.Encodable := by
      intro a ha
      exact hs a.label (.inr (.inr ⟨a, ha, rfl⟩))
    have hdiag : ∀ t ∈ r.diagnostics, t.Encodable := by
      intro t ht
      exact hs t (.inr (.inl ht))
    have hcounts : ∀ c ∈ r.eventCounts, (Report.countText c).Encodable := by
      intro c hc
      obtain ⟨htype, hcount⟩ := h.counts c hc
      simp [Report.countText, htype, hcount.encodable]
    refine ⟨h.frameCount.encodable, Moment.encodable_text _, Moment.encodable_text _, hdir, hcounts,
      fun a ha => ?_, hdiag⟩
    obtain ⟨hframe, hreportable⟩ := h.captures a ha
    exact ⟨hcap a ha, hframe.encodable, hreportable.name⟩

/-- Every number that the report shows has a text. -/
theorem RunResult.IsPrepared.duration_timed {r : RunResult} (h : r.IsPrepared)
    (started finished : Moment) (x : Double) :
    Report.duration (r.timed started finished (.real x)) = .ok (x.fixed 2) := by
  have hcounts : ∀ c ∈ r.eventCounts, c.2.isShort = true := fun c hc => (h.counts c hc).2.short
  have hcaptures : ∀ a ∈ r.captures, a.isShort = true := by
    intro a ha
    obtain ⟨hframe, hreportable⟩ := h.captures a ha
    rw [Artifact.isShort, hframe.short, hreportable.width, hreportable.height]
    rfl
  rw [Report.duration_eq_ok_iff, Report.hasShortTail, RunResult.timed]
  dsimp only
  rw [List.all_eq_true.mpr hcounts, List.all_eq_true.mpr hcaptures]
  exact ⟨h.frameCount.short, rfl, rfl⟩

namespace Run

/-- What holds of the progress of every run. -/
structure Progress.IsSound (p : Progress) : Prop where
  directory : ∀ d ∈ p.directory, FileSystem.nameError? d = none
  outcome : ∀ x, p.outcome = .ok x → x.2.1.frameCount.IsShowable ∧
    ∀ a ∈ x.2.2, a.frame.IsShowable ∧ a.IsReportable

variable (host : Host σ) (plan : RunPlan) (input : Json) (script : Script) (directory : Path)

theorem replay_preserves :
    Action.Preserves Session.IsSound (replay host plan script directory) := by
  refine (Session.onMachine_preserves (EventLog.start_preserves _)).bind fun _ => ?_
  refine (EventLog.record_preserves _ _ (encodable_ofString _)).bind fun _ => ?_
  refine (Action.Preserves.read _).bind fun files => ?_
  refine (Host.visit_preserves Session.isHostless_isSound _ _ _ ?_).bind fun execution => ?_
  · exact Driver.execute_preserves (EventLog.logged_preserves (EventLog.isKept_isSound _) _) _ _ _ _
  · refine (Session.onMachine_preserves ?_).bind fun artifacts => .pure _
    exact Artifact.saveFrom_preserves _ _ _

theorem replay_yields :
    Action.Yields (replay host plan script directory) fun x => x.2.1.frameCount.IsShowable ∧
      ∀ a ∈ x.2.2, a.frame.IsShowable ∧ a.IsReportable := by
  refine (Action.Yields.trivial _).bind fun _ _ => (Action.Yields.trivial _).bind fun _ _ => ?_
  refine (Action.Yields.trivial _).bind fun files _ => ?_
  have hlogged := EventLog.logged_yields (directory.child logName) host.driver
  have hexecute :=
    Driver.execute_yields hlogged plan.clock Timing.standardBudget .standard script
  refine (Host.visit_yields _ _ _ hexecute).bind fun execution h => ?_
  have hsave := Artifact.saveFrom_yields (p := Json.IsShowable) directory 1 h.2
  exact (hsave.lift).bind fun artifacts ha => .pure ⟨h.1, ha⟩

theorem progress_preserves : Action.Preserves Session.IsSound (progress host plan input) := by
  rw [progress]
  split
  next e he => exact .pure _
  next script hs =>
    refine (Session.onMachine_preserves (Machine.makeRunDirectory_preserves _)).attempt.bind
      fun r => ?_
    cases r with
    | error e => exact .pure _
    | ok directory => exact (replay_preserves _ _ _ _).attempt.bind fun _ => .pure _

theorem progress_yields : Action.Yields (progress host plan input) Progress.IsSound := by
  rw [progress]
  split
  next e he => exact .pure ⟨by simp, by simp⟩
  next script hs =>
    refine ((Machine.makeRunDirectory_yields _).lift.attempt).bind fun r hr => ?_
    cases r with
    | error e => exact .pure ⟨by simp, by simp⟩
    | ok directory =>
      refine (replay_yields _ _ _ _).attempt.bind fun outcome ho => .pure ⟨?_, ho⟩
      simpa using hr directory rfl

/-- A run never fails before its result is there. -/
theorem progress_ok (s : Session σ) : ∃ p t, progress host plan input s = (.ok p, t) := by
  rw [progress]
  cases Script.read .standard .standard input with
  | error e => exact ⟨_, _, rfl⟩
  | ok script =>
    simp only [Action.bind_apply, Action.attempt_apply]
    cases (Session.onMachine (Machine.makeRunDirectory plan.settings.outputRoot) s).1 with
    | error e => exact ⟨_, _, rfl⟩
    | ok directory => exact ⟨_, _, rfl⟩

theorem isShowable_int {n : Int} (hlow : -2 ^ 63 ≤ n) (hhigh : n ≤ 2 ^ 63) :
    (Json.int n).IsShowable where
  short := by rw [Json.int, Json.isShort, Number.isShort_int hlow hhigh]
  encodable := Number.encodable_text (.int n)

theorem result_isPrepared {p : Progress} (hp : p.IsSound) {counts : Members Nat}
    (hc : ∀ c ∈ counts, c.1.Encodable) (hmost : EventLog.most counts ≤ 131) :
    (result plan p counts).IsPrepared := by
  have hcounts : ∀ c ∈ counts.map fun c => (c.1, Json.ofNat c.2),
      c.1.Encodable ∧ c.2.IsShowable := by
    intro c hmem
    obtain ⟨c', hmem', rfl⟩ := List.mem_map.mp hmem
    have hle := EventLog.le_most hmem'
    exact ⟨hc c' hmem', isShowable_int (by omega) (by omega)⟩
  rw [result]
  cases ho : p.outcome with
  | error e =>
    have hzero : (Json.int 0).IsShowable := isShowable_int (by decide) (by decide)
    exact ⟨hp.directory, hzero, hcounts, by simp [RunResult.failed]⟩
  | ok x =>
    obtain ⟨hframe, hcaptures⟩ := hp.outcome x ho
    exact ⟨hp.directory, hframe, hcounts, hcaptures⟩

theorem result_of_ok {p : Progress} {x : Script × Execution × List Artifact}
    (h : p.outcome = .ok x) (counts : Members Nat) : (result plan p counts).ok = true := by
  rw [result, h]

/-- A failed run says why and nothing else. -/
theorem result_of_error {p : Progress} {e : Failure} (h : p.outcome = .error e)
    (counts : Members Nat) :
    (result plan p counts).ok = false ∧ (result plan p counts).frameCount = .int 0 ∧
      (result plan p counts).captures = [] ∧ (result plan p counts).diagnostics = [e.message] := by
  rw [result, h]
  exact ⟨rfl, rfl, rfl, rfl⟩

/-- A run always comes to a result, whatever its host and its files do. -/
theorem progress_isPrepared {s : Session σ} (hs : s.IsSound) (hnone : s.counts = []) :
    ∃ p t, progress host plan input s = (.ok p, t) ∧ t.machine.IsTimed ∧
      (result plan p t.counts).IsPrepared := by
  obtain ⟨p, t, hp⟩ := progress_ok host plan input s
  have ht : t.IsSound := by
    have h := progress_preserves host plan input _ hs
    rwa [hp] at h
  have hmost : EventLog.most t.counts ≤ 131 := by
    have h := progress_raises host plan input s
    rwa [hp, EventLog.peak, EventLog.peak, hnone] at h
  exact ⟨p, t, hp, ht.clock,
    result_isPrepared plan (progress_yields host plan input hp) ht.counts hmost⟩

end Run

/-- The report of the run can be opened, but one of the texts that it shows has no UTF-8 form. -/
def RunResult.IsUnreportable (r : RunResult) (files : FileSystem) : Prop :=
  ∃ d, r.outputDirectory = some d ∧ Report.Opens files d ∧ ∃ t ∈ r.shown, ¬ t.Encodable

instance (r : RunResult) (files : FileSystem) : Decidable (r.IsUnreportable files) :=
  match h : r.outputDirectory with
  | none => .isFalse fun ⟨d, hd, _⟩ => by cases h.symm.trans hd
  | some d =>
    decidable_of_iff (Report.Opens files d ∧ ∃ t ∈ r.shown, ¬ t.Encodable) (by
      simp [RunResult.IsUnreportable, h])

namespace Run

theorem spoils_timed_iff {r : RunResult} (h : r.IsPrepared) (started finished : Moment)
    (runtime : Number) (files : FileSystem) :
    Report.Spoils (r.timed started finished runtime) files ↔ r.IsUnreportable files := by
  have hd : (r.timed started finished runtime).outputDirectory = r.outputDirectory := by
    rw [RunResult.timed]
  rw [Report.Spoils, RunResult.IsUnreportable, hd, h.isEncodable_timed_iff]
  simp

/-- The times are put in and the report is written; what that gives is left aside. -/
theorem finish_fst {plan : RunPlan} {x y : Double} (h0 : plan.stopwatch 0 = .real x)
    (h1 : plan.stopwatch 1 = .real y) (started : Moment) (r : RunResult) (m : Machine) :
    let timed := r.timed started (m.now.reading m.now.taken) (.real ((y.sub x).rounded 2))
    (finish plan started r m).1 =
      (Report.write timed none { m with now := m.now.next.2 }).1.map fun _ => timed := by
  intro timed
  have hf : finish plan started r m = (do
      let _ ← Report.write timed none
      pure timed : Action Machine RunResult) { m with now := m.now.next.2 } := by
    rw [finish, h0, h1]
    rfl
  rw [hf, Action.bind_apply]
  cases Report.write timed none { m with now := m.now.next.2 } with
  | mk w m' => cases w <;> rfl

/-- The session in which a run begins: the clock was read, and events are counted from zero. -/
def started (s : Session σ) : Session σ :=
  ⟨s.host, { s.machine with now := s.machine.now.next.2 }, []⟩

/-- A result that can be reported is what the run gives, with its times put in. -/
theorem perform_fst {host : Host σ} {plan : RunPlan} {input : Json} {s t : Session σ}
    {p : Progress} (hw : ∀ i, ∃ x, plan.stopwatch i = .real x)
    (hp : progress host plan input (started s) = (.ok p, t)) (ht : t.machine.IsTimed)
    (hprepared : (result plan p t.counts).IsPrepared) :
    let r := result plan p t.counts
    (r.IsUnreportable t.machine.files →
      ∃ e, (perform host plan input s).1 = .error (.file (.unencodable e))) ∧
    (¬ r.IsUnreportable t.machine.files →
      ∃ started finished runtime,
        (perform host plan input s).1 = .ok (r.timed started finished runtime)) := by
  obtain ⟨x, h0⟩ := hw 0
  obtain ⟨y, h1⟩ := hw 1
  have hperform : (perform host plan input s).1 = (finish plan
      (s.machine.now.reading s.machine.now.taken) (result plan p t.counts) t.machine).1 := by
    show (((progress host plan input >>= _) >>= _) (started s)).1 = _
    rw [Action.bind_apply, Action.bind_apply, hp]
    rfl
  have hvalid := ht t.machine.now.taken
  have hiff := spoils_timed_iff hprepared (s.machine.now.reading s.machine.now.taken)
    (t.machine.now.reading t.machine.now.taken) (.real ((y.sub x).rounded 2)) t.machine.files
  have hname : ∀ d ∈ ((result plan p t.counts).timed
      (s.machine.now.reading s.machine.now.taken) (t.machine.now.reading t.machine.now.taken)
      (.real ((y.sub x).rounded 2))).outputDirectory, FileSystem.nameError? d = none := by
    rw [RunResult.timed]
    exact hprepared.directory
  have hduration := hprepared.duration_timed (s.machine.now.reading s.machine.now.taken)
    (t.machine.now.reading t.machine.now.taken) ((y.sub x).rounded 2)
  intro r
  rw [hperform, finish_fst h0 h1]
  refine ⟨fun h => ?_, fun h => ?_⟩
  · obtain ⟨e, he⟩ := Report.write_of_spoils
      { t.machine with now := t.machine.now.next.2 } hvalid rfl hduration (hiff.mpr h)
    exact ⟨e, by rw [he]; rfl⟩
  · obtain ⟨paths, hp⟩ := Report.write_of_not_spoils
      { t.machine with now := t.machine.now.next.2 } hname hvalid rfl hduration (mt hiff.mp h)
    exact ⟨_, _, _, by rw [hp]; rfl⟩

/-- When a run gives no result. Before the report everything is told in the result, of a failure
its message alone; the report gives way to errors of the files, but not to a text that has no UTF-8
form once its file is open. -/
theorem perform_outcome (host : Host σ) (plan : RunPlan) (input : Json) (s : Session σ)
    (hs : s.machine.IsTimed) (hw : ∀ i, ∃ x, plan.stopwatch i = .real x) :
    ∃ p t, progress host plan input (started s) = (.ok p, t) ∧
      let r := result plan p t.counts
      (∀ x, p.outcome = .ok x → r.ok = true) ∧
      (∀ e, p.outcome = .error e → r.ok = false ∧ r.frameCount = .int 0 ∧ r.captures = [] ∧
        r.diagnostics = [e.message]) ∧
      (r.IsUnreportable t.machine.files →
        ∃ e, (perform host plan input s).1 = .error (.file (.unencodable e))) ∧
      (¬ r.IsUnreportable t.machine.files →
        ∃ started finished runtime,
          (perform host plan input s).1 = .ok (r.timed started finished runtime)) := by
  have hsound : (started s).IsSound := ⟨by simp [started], hs⟩
  obtain ⟨p, t, hp, ht, hprepared⟩ := progress_isPrepared host plan input hsound rfl
  exact ⟨p, t, hp, fun _ h => result_of_ok plan h _, fun _ h => result_of_error plan h _,
    perform_fst hw hp ht hprepared⟩

/-- A host that refuses to open with a lone surrogate makes a run that gives no result. -/
theorem perform_of_surrogate :
    let refusal : Failure := .foreign "RuntimeError" [CodePoint.ofNat 0xD800]
    let host := RehearsalHost.host ⟨⟨.null, none, none, none⟩, some refusal, none⟩
    let root := Path.ofText "/"
    let plan : RunPlan :=
      ⟨⟨root, root, root, false, false, 1, []⟩, none, fun _ => .int 0, fun _ => .real .zero⟩
    let now : Clock Moment := .ofReadings fun _ => ⟨1970, 1, 1, 0, 0, 0, 0⟩
    let start : Session Stage := ⟨⟨.int 0, []⟩, ⟨⟨[], [], fun _ => none, fun _ _ => none⟩, now⟩, []⟩
    ∃ e, (perform host plan Script.tile.payload start).1 = .error (.file (.unencodable e)) := by
  intro refusal host root plan now start
  have hepoch : Moment.IsValid ⟨1970, 1, 1, 0, 0, 0, 0⟩ := by constructor <;> decide
  have hreal : ∀ i, ∃ x, plan.stopwatch i = .real x := fun _ => ⟨.zero, rfl⟩
  obtain ⟨p, t, hp, -, -, hraise, -⟩ :=
    perform_outcome host plan Script.tile.payload start (fun _ => hepoch) hreal
  let ran := progress host plan Script.tile.payload (started start)
  have hcheck : (ran.1.toOption.any fun p =>
      (result plan p ran.2.counts).IsUnreportable ran.2.machine.files) = true := by
    decide +kernel
  have hran : ran = (.ok p, t) := hp
  rw [hran] at hcheck
  exact hraise (by simpa [Except.toOption] using hcheck)

end Run

end Replay
