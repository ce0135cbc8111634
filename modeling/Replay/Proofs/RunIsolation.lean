import Replay.Proofs.RunFrame

namespace Replay

open FileSystem

theorem FileSystem.resolve_of_cwd {fs fs' : FileSystem} (h : fs'.cwd = fs.cwd) (p : Path) :
    fs'.resolve p = fs.resolve p := by
  unfold resolve
  rw [h]

namespace Run

variable {σ : Type}

/-- A run to be made: its host, what it needs to know, and the value that is to be its script. -/
structure Order (σ : Type) where
  host : Host σ
  plan : RunPlan
  input : Json

namespace Order

def run (o : Order σ) : Action (Session σ) RunResult := perform o.host o.plan o.input

def directory? (o : Order σ) (s : Session σ) : Option Location := ownDirectory? o.plan o.input s

end Order

/-- The session after runs, one after the other, whatever they give. -/
def runAll (s : Session σ) : List (Order σ) → Session σ
  | [] => s
  | o :: rest => runAll (o.run s).2 rest

/-- The moments that the directories of the runs are named for. -/
def stamps (s : Session σ) : List (Order σ) → List Moment
  | [] => []
  | o :: rest => (stamp? o.plan o.input s).toList ++ stamps (o.run s).2 rest

variable {s : Session σ} {o : Order σ} {orders : List (Order σ)} {root : Path} {l d : Location}

theorem stamps_append (s : Session σ) (orders others : List (Order σ)) :
    stamps s (orders ++ others) = stamps s orders ++ stamps (runAll s orders) others := by
  induction orders generalizing s with
  | nil => rfl
  | cons o rest ih =>
    show _ ++ stamps _ (rest ++ others) = _ ++ _ ++ _
    rw [ih, List.append_assoc]
    rfl

/-- The directory of a run is in its output root under the name of its stamp. -/
theorem directory?_eq (hcwd : IsPlain s.machine.files.cwd) (h : o.directory? s = some d) :
    ∃ l m, s.machine.files.resolve o.plan.settings.outputRoot = .ok (.ofLocation l) ∧
      stamp? o.plan o.input s = some m ∧ d = l ++ [m.directoryName] := by
  obtain ⟨script, l, -, -, hresolve, hd⟩ := exists_of_ownDirectory? hcwd h
  have hstamp : stamp? o.plan o.input s = (some d).map _ := congrArg (Option.map _) h
  exact ⟨l, _, hresolve, hstamp, hd⟩

/-- A run leaves the working directory and the moments of the clock as they are. -/
theorem run_keeps (o : Order σ) (hcwd : IsPlain s.machine.files.cwd) :
    (o.run s).2.machine.files.cwd = s.machine.files.cwd ∧
      (o.run s).2.machine.now.reading = s.machine.now.reading := by
  cases hd : o.directory? s with
  | none =>
    obtain ⟨hfiles, hclock, -⟩ := perform_of_none o.host hd
    exact ⟨congrArg FileSystem.cwd hfiles, hclock⟩
  | some d =>
    obtain ⟨hconfined, -⟩ := perform_confined o.host hcwd hd
    exact ⟨hconfined.files.version.cwd, hconfined.clock⟩

theorem runAll_keeps (orders : List (Order σ)) (hcwd : IsPlain s.machine.files.cwd) :
    (runAll s orders).machine.files.cwd = s.machine.files.cwd ∧
      (runAll s orders).machine.now.reading = s.machine.now.reading := by
  induction orders generalizing s with
  | nil => exact ⟨rfl, rfl⟩
  | cons o rest ih =>
    obtain ⟨hkept, hclock⟩ := run_keeps o hcwd
    obtain ⟨hrest, hmore⟩ := ih (s := (o.run s).2) (hkept ▸ hcwd)
    exact ⟨hrest.trans hkept, hmore.trans hclock⟩

theorem isValid_of_stamp? {m : Moment} (hclock : s.machine.IsTimed)
    (h : stamp? o.plan o.input s = some m) : m.IsValid := by
  obtain ⟨_, -, rfl⟩ := Option.map_eq_some_iff.mp h
  exact hclock _

theorem isValid_of_mem_stamps {m : Moment} (hcwd : IsPlain s.machine.files.cwd)
    (hclock : s.machine.IsTimed) (h : m ∈ stamps s orders) : m.IsValid := by
  induction orders generalizing s with
  | nil => cases h
  | cons o rest ih =>
    rcases List.mem_append.mp h with h | h
    · exact isValid_of_stamp? hclock (Option.mem_toList.mp h)
    · obtain ⟨hkept, hreading⟩ := run_keeps o hcwd
      refine ih (s := (o.run s).2) (hkept ▸ hcwd) (fun i => ?_) h
      rw [hreading]
      exact hclock i

/-- What a run changes is a file in its directory, or a directory on the way there. -/
theorem changed_of_run (o : Order σ) (hcwd : IsPlain s.machine.files.cwd) {k : Location}
    (h : (o.run s).2.machine.files.node? k ≠ s.machine.files.node? k) :
    ∃ d, o.directory? s = some d ∧ ((∃ name bytes, IsOutput name ∧ k = d ++ [name] ∧
        (o.run s).2.machine.files.node? k = some (.file bytes)) ∨
      (k <+: d ∧ s.machine.files.node? k = none ∧
        (o.run s).2.machine.files.node? k = some .directory)) := by
  cases hd : o.directory? s with
  | none =>
    obtain ⟨hfiles, -⟩ := perform_of_none o.host hd
    exact absurd (congrArg (fun fs : FileSystem => fs.node? k) hfiles) h
  | some d =>
    obtain ⟨hconfined, -⟩ := perform_confined o.host hcwd hd
    refine ⟨d, rfl, ?_⟩
    rcases hconfined.files.nodes k with hin | hsame | hmade
    · exact .inl hin
    · exact absurd hsame h
    · exact .inr hmade

/-- What lies outside of the directories of runs stays through all of them. -/
theorem node?_runAll {k : Location} {n : Node} (hcwd : IsPlain s.machine.files.cwd)
    (hroot : ∀ o ∈ orders, o.plan.settings.outputRoot = root)
    (hresolve : s.machine.files.resolve root = .ok (.ofLocation l))
    (hout : ∀ m ∈ stamps s orders, ¬ l ++ [m.directoryName] <+: k)
    (hn : s.machine.files.node? k = some n) :
    (runAll s orders).machine.files.node? k = some n := by
  induction orders generalizing s with
  | nil => exact hn
  | cons o rest ih =>
    obtain ⟨hkept, -⟩ := run_keeps o hcwd
    have hstep : (o.run s).2.machine.files.node? k = some n := by
      by_contra hchanged
      obtain ⟨d, hd, hwhere⟩ := changed_of_run o hcwd fun hsame => hchanged (hsame.trans hn)
      obtain ⟨l', m, hresolve', hstamp, rfl⟩ := directory?_eq hcwd hd
      rw [hroot o List.mem_cons_self, hresolve] at hresolve'
      cases hresolve'
      rcases hwhere with ⟨name, _, -, rfl, -⟩ | ⟨-, hnone, -⟩
      · refine hout m ?_ (List.prefix_append _ _)
        exact List.mem_append_left _ (Option.mem_toList.mpr hstamp)
      · rw [hn] at hnone
        cases hnone
    refine ih (s := (o.run s).2) (hkept ▸ hcwd) (fun o ho => hroot o (List.mem_cons_of_mem _ ho))
      ((resolve_of_cwd hkept root).trans hresolve) (fun m hm => ?_) hstep
    exact hout m (List.mem_append_right _ hm)

/-- Runs in one output root whose directories are named in different milliseconds, on a file system
without symbolic links. Each of them changes nothing but files of its own in its own directory, to
which it may make the way, and what it has left there stays, to the byte, through all runs that come
after it. -/
theorem runs_apart (root : Path) (s : Session σ) (before after : List (Order σ)) (o : Order σ)
    (hroot : ∀ other ∈ before ++ o :: after, other.plan.settings.outputRoot = root)
    (hcwd : IsPlain s.machine.files.cwd) (hclock : s.machine.IsTimed)
    (hstamps : ((stamps s (before ++ o :: after)).map fun m => m.toMicroseconds / 1000).Nodup) :
    let s₁ := runAll s before
    let s₂ := (o.run s₁).2
    (∀ k, s₂.machine.files.node? k ≠ s₁.machine.files.node? k →
      ∃ d, o.directory? s₁ = some d ∧ ((∃ name bytes, IsOutput name ∧ k = d ++ [name] ∧
          s₂.machine.files.node? k = some (.file bytes)) ∨
        (k <+: d ∧ s₁.machine.files.node? k = none ∧
          s₂.machine.files.node? k = some .directory))) ∧
    (∀ r p, (o.run s₁).1 = .ok r → r.outputDirectory = some p →
      ∃ d, o.directory? s₁ = some d ∧ p = .ofLocation d) ∧
    ∀ d rest bytes, o.directory? s₁ = some d →
      s₂.machine.files.node? (d ++ rest) = some (.file bytes) →
      (runAll s₂ after).machine.files.node? (d ++ rest) = some (.file bytes) := by
  intro s₁ s₂
  obtain ⟨hkept, hreading⟩ := runAll_keeps before hcwd
  have hcwd₁ : IsPlain s₁.machine.files.cwd := hkept ▸ hcwd
  have hclock₁ : s₁.machine.IsTimed := by
    intro i
    rw [hreading]
    exact hclock i
  refine ⟨fun k => changed_of_run o hcwd₁, fun r p hr hp => ?_, fun d rest bytes hd hfile => ?_⟩
  · cases hd : o.directory? s₁ with
    | none =>
      obtain ⟨-, -, hnone⟩ := perform_of_none o.host hd
      rw [hnone r hr] at hp
      cases hp
    | some d =>
      obtain ⟨-, hpath⟩ := perform_confined o.host hcwd₁ hd
      exact ⟨d, rfl, hpath r hr p hp⟩
  · obtain ⟨l, m, hresolve, hstamp, rfl⟩ := directory?_eq hcwd₁ hd
    obtain ⟨hkept₂, hreading₂⟩ := run_keeps o hcwd₁
    have hcwd₂ : IsPlain s₂.machine.files.cwd := hkept₂ ▸ hcwd₁
    have hclock₂ : s₂.machine.IsTimed := by
      intro i
      rw [hreading₂]
      exact hclock₁ i
    have ho : o.plan.settings.outputRoot = root := hroot o (by simp)
    rw [ho] at hresolve
    refine node?_runAll hcwd₂ (fun other h => hroot other (by simp [h]))
      ((resolve_of_cwd hkept₂ root).trans hresolve) (fun m' hm' hin => ?_) hfile
    -- a later directory on the same way would have the same name
    have hname : m'.directoryName = m.directoryName := by
      rw [List.append_assoc, List.prefix_append_right_inj] at hin
      simpa using hin
    have hsame := Moment.milliseconds_of_directoryName
      (isValid_of_mem_stamps hcwd₂ hclock₂ hm') (isValid_of_stamp? hclock₁ hstamp) hname
    rw [stamps_append, stamps, hstamp, List.map_append, List.nodup_append] at hstamps
    obtain ⟨-, hlater, -⟩ := hstamps
    rw [Option.toList_some, List.singleton_append, List.map_cons, List.nodup_cons] at hlater
    exact hlater.1 (List.mem_map.mpr ⟨m', hm', hsame⟩)

/-- Two runs on a host that does not open, the second one a millisecond after the first: the log of
the first stays. -/
theorem runs_apart_of_next_millisecond :
    let clock : Clock Moment :=
      .ofReadings fun i => ⟨1970, 1, 1, 0, 0, 0, if i < 2 then 0 else 1000⟩
    let s : Session Stage := ⟨Session.blank.host, ⟨Session.blank.machine.files, clock⟩, []⟩
    let shut := RehearsalHost.host ⟨⟨.null, none, none, none⟩, some (.driver "shut"), none⟩
    let o : Order Stage := ⟨shut, .still, (Script.shot "tile").payload⟩
    let first : Text := "1970-01-01T00-00-00-000Z"
    (stamps s [o, o]).map Moment.directoryName = [first, "1970-01-01T00-00-00-001Z"] ∧
      ∃ log, (runAll s [o]).machine.files.node? [first, logName] = some (.file log) ∧
        (runAll s [o, o]).machine.files.node? [first, logName] = some (.file log) := by
  intro clock s shut o first
  have hclock : s.machine.IsTimed := by
    intro i
    by_cases hi : i < 2
    · have hreading : s.machine.now.reading i = ⟨1970, 1, 1, 0, 0, 0, 0⟩ :=
        congrArg (Moment.mk 1970 1 1 0 0 0) (if_pos hi)
      rw [hreading]
      constructor <;> decide
    · have hreading : s.machine.now.reading i = ⟨1970, 1, 1, 0, 0, 0, 1000⟩ :=
        congrArg (Moment.mk 1970 1 1 0 0 0) (if_neg hi)
      rw [hreading]
      constructor <;> decide
  have hroot : ∀ other ∈ [o, o], other.plan.settings.outputRoot = .ofLocation [] := by
    intro other hmem
    obtain rfl : other = o := by simpa using hmem
    rfl
  have hstamps : ((stamps s [o, o]).map fun m => m.toMicroseconds / 1000).Nodup := by
    decide +kernel
  have hstays (log : Bytes)
      (h : (runAll s [o]).machine.files.node? ([first] ++ [logName]) = some (.file log)) :
      (runAll s [o, o]).machine.files.node? ([first] ++ [logName]) = some (.file log) := by
    have hown : o.directory? s = some [first] := by decide +kernel
    obtain ⟨-, -, hkept⟩ := runs_apart (.ofLocation []) s [] [o] o hroot
      (fun _ h => absurd h List.not_mem_nil) hclock hstamps
    simp only [runAll] at h hkept ⊢
    exact hkept [first] [logName] log hown h
  have hfile : ((runAll s [o]).machine.files.node? [first, logName]).any (· ≠ .directory) =
      true := by decide +kernel
  obtain ⟨n, hnode, hn⟩ := (Option.any_eq_true _ _).mp hfile
  refine ⟨by decide +kernel, ?_⟩
  cases n with
  | directory => simp at hn
  | file log => exact ⟨log, hnode, hstays log hnode⟩

end Run

end Replay
