import Replay.Proofs.MomentReading
import Replay.Proofs.ReportTable

namespace Replay

namespace Report

open Moment
open EventLog (lineFeed)

/-- What the title shows where the finish of the run is told by the text. -/
inductive Titles (t : Text) (now : Moment) : Moment → Prop
  | instant {m u : Moment} {offset : Int} : Stated t m (some offset) → u.IsValid →
    (u.toMicroseconds : Int) = m.toMicroseconds - offset → Titles t now u
  /-- Without an offset the time is one of universal time. -/
  | universal {m : Moment} : Stated t m none →
    Calendar.dayNumber m.year m.month m.day ≠ 0 → Titles t now m
  | firstDay {m : Moment} : Stated t m none →
    Calendar.dayNumber m.year m.month m.day = 0 → Titles t now now
  | unstated : (∀ m offset, ¬ Stated t m offset) → Titles t now now

/-- Every number of the report has a text. -/
structure HasNumbers (r : RunResult) : Prop where
  frameCount : r.frameCount.isShort = true
  runtime : ∃ shown, r.runtime.fixed 2 = .ok shown
  others : hasShortTail r = true

variable {r : RunResult} {t : Text} {s : Machine}

theorem exists_duration_iff : (∃ shown, duration r = .ok shown) ↔ HasNumbers r := by
  simp only [duration_eq_ok_iff]
  constructor
  · rintro ⟨shown, hcount, hruntime, htail⟩
    exact ⟨hcount, ⟨shown, hruntime⟩, htail⟩
  · rintro ⟨hcount, ⟨shown, hruntime⟩, htail⟩
    exact ⟨shown, hcount, hruntime, htail⟩

theorem titleMoment_of_length (h : 7 ≤ t.length) :
    titleMoment t = match Moment.read t with
      | .ok m => pure m
      | .error .notTimestamp => Machine.readClock
      | .error e => Action.fail (.moment e) := by
  have hne : t.isEmpty = false := by
    cases t with
    | nil => cases h
    | cons => rfl
  rw [titleMoment, hne]
  rfl

theorem titleMoment_of_unstated (h : ∀ m offset, ¬ Stated t m offset) :
    titleMoment t = Machine.readClock := by
  rw [titleMoment, Moment.read_of_unstated h]
  split <;> rfl

theorem titleMoment_of_isBeyond (h : IsBeyond t) :
    titleMoment t = Action.fail (.moment .outOfRange) := by
  have hread := Moment.read_of_isBeyond h
  obtain ⟨m, offset, hstated, -⟩ := h
  rw [titleMoment_of_length hstated.1, hread]

/-- There is a moment for the title unless the text says one outside the calendar. -/
theorem exists_titles (h : ¬ IsBeyond t) (s : Machine) :
    ∃ m, (titleMoment t s).1 = .ok m ∧ Titles t (s.now.reading s.now.taken) m := by
  by_cases hsome : ∃ m offset, Stated t m offset
  · obtain ⟨m, offset, hstated⟩ := hsome
    rw [titleMoment_of_length hstated.1]
    cases offset with
    | none =>
      rw [Moment.read_of_local hstated]
      by_cases hday : Calendar.dayNumber m.year m.month m.day = 0
      · rw [if_pos hday]
        exact ⟨_, rfl, .firstDay hstated hday⟩
      · rw [if_neg hday]
        exact ⟨_, rfl, .universal hstated hday⟩
    | some offset =>
      obtain ⟨u, hvalid, heq⟩ :
          ∃ u : Moment, u.IsValid ∧ (u.toMicroseconds : Int) = m.toMicroseconds - offset := by
        by_contra hnone
        exact h ⟨m, offset, hstated, fun u hvalid heq => hnone ⟨u, hvalid, heq⟩⟩
      rw [Moment.read_of_offset hstated hvalid heq]
      exact ⟨u, rfl, .instant hstated hvalid heq⟩
  · have hnone : ∀ m offset, ¬ Stated t m offset := fun m offset hstated =>
      hsome ⟨m, offset, hstated⟩
    rw [titleMoment_of_unstated hnone]
    exact ⟨_, rfl, .unstated hnone⟩

theorem getLast?_titleLine (m : Moment) : (titleLine m).getLast? = some (CodePoint.ofChar 'C') := by
  have hzone : (" UTC" : Text).getLast? = some (CodePoint.ofChar 'C') := rfl
  rw [titleLine, List.getLast?_append, Moment.title, List.getLast?_append, hzone, Option.some_or,
    Option.some_or]

/-- A report begins with its title. -/
theorem exists_textOf_eq (r : RunResult) (m : Moment) (shown : Text) :
    ∃ rest, textOf r m shown = titleLine m ++ lineFeed :: rest := by
  obtain ⟨others, hlines⟩ : ∃ others, lines r m shown = [titleLine m] ++ [] :: others := ⟨_, rfl⟩
  have hfeed : ("\n" : Text) = [lineFeed] := rfl
  have hline : Text.join [lineFeed] [titleLine m] = titleLine m := by simp [Text.join]
  obtain ⟨rest, hrest⟩ := Text.exists_trimRight_cons lineFeed (Text.join [lineFeed] ([] :: others))
  refine ⟨rest, ?_⟩
  rw [textOf, hlines, hfeed, Text.join_append (List.cons_ne_nil _ _) (List.cons_ne_nil _ _), hline,
    Text.trim_append (head?_titleLine m) (by decide) (getLast?_titleLine m) (by decide),
    List.append_assoc, hrest]

/-- An instant outside the calendar is an error, whatever else the result tells. -/
theorem render_of_isBeyond (h : IsBeyond r.finishedAt) (s : Machine) :
    (render r s).1 = .error (.moment .outOfRange) := by
  rw [render_eq, titleMoment_of_isBeyond h]
  rfl

theorem not_isBeyond_of_render {text : Text} (h : (render r s).1 = .ok text) :
    ¬ IsBeyond r.finishedAt := by
  intro hbeyond
  rw [render_of_isBeyond hbeyond s] at h
  cases h

/-- Otherwise the title has its moment, and there is a report if there is a duration for it. -/
theorem exists_titles_render (h : ¬ IsBeyond r.finishedAt) (s : Machine) :
    ∃ m, Titles r.finishedAt (s.now.reading s.now.taken) m ∧
      (render r s).1 = ((duration r).mapError Failure.number).map (textOf r m) := by
  obtain ⟨m, hm, htitles⟩ := exists_titles h s
  refine ⟨m, htitles, ?_⟩
  rw [render_eq, Action.bind_ok _ (Prod.ext hm rfl : titleMoment r.finishedAt s = (.ok m, _))]
  cases duration r with
  | ok shown => rfl
  | error e => rfl

/-- There is a report unless the finish of the run lies outside the calendar in universal time or a
number of the report has no text. It begins with the line of its title, which shows that finish, or
the present moment where the text says none; a time of the first day without an offset counts as
none. An instant outside the calendar is an error, whatever else the result tells, and it can only
be one of the first or the last day. A text without an offset is taken for universal time: the local
zone of the machine is assumed to be that one. -/
theorem render_title (r : RunResult) (s : Machine) :
    ((∃ text, (render r s).1 = .ok text) ↔ ¬ IsBeyond r.finishedAt ∧ HasNumbers r) ∧
    (∀ text, (render r s).1 = .ok text →
      ∃ m rest, Titles r.finishedAt (s.now.reading s.now.taken) m ∧
        text = titleLine m ++ lineFeed :: rest) ∧
    (IsBeyond r.finishedAt → (render r s).1 = .error (.moment .outOfRange) ∧
      ∃ m offset, Stated r.finishedAt m (some offset) ∧
        ((Calendar.dayNumber m.year m.month m.day = 0 ∧ 0 < offset) ∨
          (Calendar.dayNumber m.year m.month m.day + 1 = Calendar.endNumber ∧ offset < 0))) := by
  refine ⟨⟨?_, ?_⟩, ?_, fun h => ⟨render_of_isBeyond h s, h.day⟩⟩
  · rintro ⟨text, htext⟩
    have hnot := not_isBeyond_of_render htext
    obtain ⟨m, -, hrender⟩ := exists_titles_render hnot s
    rw [hrender] at htext
    obtain ⟨shown, hshown, -⟩ := map_eq_ok_iff.mp htext
    exact ⟨hnot, exists_duration_iff.mp ⟨shown, mapError_eq_ok_iff.mp hshown⟩⟩
  · rintro ⟨hnot, hnumbers⟩
    obtain ⟨m, -, hrender⟩ := exists_titles_render hnot s
    obtain ⟨shown, hshown⟩ := exists_duration_iff.mpr hnumbers
    rw [hrender, hshown]
    exact ⟨_, rfl⟩
  · intro text htext
    obtain ⟨m, htitles, hrender⟩ := exists_titles_render (not_isBeyond_of_render htext) s
    rw [hrender] at htext
    obtain ⟨shown, -, heq⟩ := map_eq_ok_iff.mp htext
    obtain ⟨rest, hrest⟩ := exists_textOf_eq r m shown
    exact ⟨m, rest, htitles, heq.symm.trans hrest⟩

example : Moment.read "0001-01-01T00:00:00+01:00" = .error .outOfRange := by decide

end Report

end Replay
