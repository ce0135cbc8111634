import Replay.Proofs.ExclusiveOptions
import Replay.ScriptSource

namespace Replay

theorem OptionValue.text?_eq_none_iff {v : OptionValue} :
    v.text? = none ↔ v = .absent ∨ v = .blank ∨ v = .given [] := by
  cases v with
  | absent => simp [text?]
  | blank => simp [text?]
  | given t => cases t <;> simp [text?]

namespace Options

/-- What the options give at an input to a reader of so many levels. -/
def outcome (o : Options) (fs : FileSystem) (depth : Nat) (input : Input) : Except Failure Json :=
  (ScriptSource.ofOptions o input.terminal).read fs depth input.content

/-- The options name a source of the script other than the input. -/
def IsExplicit (o : Options) : Prop := o.smoke = true ∨ o.script ≠ .absent ∨ o.json ≠ .absent

variable {o : Options} {fs : FileSystem} {depth : Nat}

theorem outcome_of_smoke (h : o.smoke = true) (input : Input) :
    o.outcome fs depth input = .ok Script.smoke.payload := by
  rw [outcome, ScriptSource.ofOptions, if_pos h]
  rfl

/-- Where neither the built-in script nor the input is named, the file goes before the argument. -/
theorem ofOptions_of_not (hsmoke : o.smoke = false) (hstdin : o.stdin = false) (terminal : Bool) :
    ScriptSource.ofOptions o terminal =
      match o.script.text?, o.json with
      | some name, _ => .file name
      | none, .given t => .argument t
      | none, .blank => .blank
      | none, .absent => if terminal then .nowhere else .input := by
  rw [ScriptSource.ofOptions, hsmoke, hstdin]
  rfl

theorem outcome_of_empty (hsmoke : o.smoke = false) (hstdin : o.stdin = false)
    (hjson : o.json = .absent) (hscript : o.script.text? = none) (input : Input) :
    o.outcome fs depth input = if input.terminal then .error (.source .noSource)
      else ScriptSource.readInput depth input.content := by
  rw [outcome, ofOptions_of_not hsmoke hstdin, hscript, hjson]
  dsimp only
  split <;> rfl

/-- A file or an argument is read whatever the input is. -/
theorem outcome_eq_of_named (hsmoke : o.smoke = false) (hstdin : o.stdin = false)
    (hnamed : o.script.text? ≠ none ∨ o.json ≠ .absent) (a b : Input) :
    o.outcome fs depth a = o.outcome fs depth b := by
  rw [outcome, outcome, ofOptions_of_not hsmoke hstdin, ofOptions_of_not hsmoke hstdin]
  cases hscript : o.script.text? with
  | some name => rfl
  | none =>
    cases hjson : o.json with
    | given t => rfl
    | blank => rfl
    | absent =>
      rcases hnamed with hnamed | hnamed
      · exact absurd hscript hnamed
      · exact absurd hjson hnamed

/-- The outcome of options that name a source depends on the input just where the name of the file
is empty, and then it is that of the input. -/
theorem outcome_isolated {arguments : List Text} (hread : read arguments = .ok o)
    (hexplicit : o.IsExplicit) (fs : FileSystem) (depth : Nat) :
    ((∀ a b, o.outcome fs depth a = o.outcome fs depth b) ↔
        o.script ≠ .blank ∧ o.script ≠ .given []) ∧
      (o.script = .blank ∨ o.script = .given [] → ∀ input, o.outcome fs depth input =
        if input.terminal then .error (.source .noSource)
        else ScriptSource.readInput depth input.content) := by
  obtain ⟨hofSmoke, hofScript, hofJson⟩ := sole_of_read hread
  have hempty : o.script = .blank ∨ o.script = .given [] → ∀ input, o.outcome fs depth input =
      if input.terminal then .error (.source .noSource)
      else ScriptSource.readInput depth input.content := by
    intro hscript
    have hpresent : o.script ≠ .absent := by
      rcases hscript with h | h <;> simp [h]
    obtain ⟨hjson, hstdin⟩ := hofScript hpresent
    have hsmoke : o.smoke = false :=
      Bool.eq_false_iff.mpr fun hsmoke => hpresent (hofSmoke hsmoke).1
    exact outcome_of_empty hsmoke hstdin hjson (OptionValue.text?_eq_none_iff.mpr (.inr hscript))
  refine ⟨⟨fun hsame => ?_, fun hfull a b => ?_⟩, hempty⟩
  · -- a person at the input, or nothing in it
    rw [← not_or]
    intro hscript
    have hnobody := hsame ⟨.ok [], true⟩ ⟨.ok [], false⟩
    rw [hempty hscript, hempty hscript] at hnobody
    cases hnobody
  · cases hsmoke : o.smoke with
    | true => rw [outcome_of_smoke hsmoke, outcome_of_smoke hsmoke]
    | false =>
      rcases hexplicit with h | h | h
      · rw [hsmoke] at h
        cases h
      · refine outcome_eq_of_named hsmoke (hofScript h).2 (.inl fun hnone => ?_) a b
        rcases OptionValue.text?_eq_none_iff.mp hnone with habsent | hblank | hgiven
        · exact h habsent
        · exact hfull.1 hblank
        · exact hfull.2 hgiven
      · exact outcome_eq_of_named hsmoke (hofJson h) (.inr h) a b

/-- An empty name of a file: the list at the input is taken for the script. -/
theorem outcome_of_empty_name :
    let fs : FileSystem := ⟨[], [], fun _ => none, fun _ _ => none⟩
    ∃ o, read ["--script", ""] = .ok o ∧ o.IsExplicit ∧
      o.outcome fs 989 ⟨.ok "[1]", false⟩ = .ok (.array [.int 1]) ∧
      o.outcome fs 989 ⟨.ok "[1]", true⟩ = .error (.source .noSource) := by
  intro fs
  obtain ⟨o, hread, hscript⟩ : ∃ o, read ["--script", ""] = .ok o ∧ o.script = .given [] :=
    ⟨_, rfl, rfl⟩
  have hexplicit : o.IsExplicit := .inr (.inl (by simp [hscript]))
  obtain ⟨-, hempty⟩ := outcome_isolated hread hexplicit fs 989
  exact ⟨o, hread, hexplicit, hempty (.inr hscript) ⟨.ok "[1]", false⟩,
    hempty (.inr hscript) ⟨.ok "[1]", true⟩⟩

end Options

end Replay
