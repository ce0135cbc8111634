import Mathlib.Data.List.TakeDrop
import Replay.EventLog
import Replay.Proofs.VisibleNames

namespace Replay

namespace Text

variable {a b t : Text} {separator : CodePoint}

theorem splitOn_ne_nil (separator : CodePoint) (t : Text) : splitOn separator t ≠ [] :=
  List.splitOnP_ne_nil _ _

theorem splitOn_of_not_mem (h : separator ∉ t) : splitOn separator t = [t] :=
  List.splitOnP_eq_singleton fun _ hc => beq_eq_false_iff_ne.mpr fun heq => h (heq ▸ hc)

theorem splitOn_append_cons (separator : CodePoint) (a b : Text) :
    splitOn separator (a ++ separator :: b) = splitOn separator a ++ splitOn separator b :=
  List.splitOnP_append_cons _ _ (beq_self_eq_true separator)

/-- What stands in front belongs to the first piece. -/
theorem splitOn_append_of_not_mem (h : separator ∉ a) (b : Text) :
    splitOn separator (a ++ b) = (splitOn separator b).modifyHead (a ++ ·) := by
  induction a with
  | nil => cases hb : splitOn separator b <;> simp [hb]
  | cons c rest ih =>
    rw [List.mem_cons, not_or] at h
    have hc : (c == separator) = false := beq_eq_false_iff_ne.mpr fun heq => h.1 heq.symm
    have hstep : splitOn separator (c :: (rest ++ b)) =
        (splitOn separator (rest ++ b)).modifyHead (List.cons c) := by
      rw [splitOn, List.splitOnP_cons_eq_if_modifyHead, hc]
      rfl
    rw [List.cons_append, hstep, ih h.2, List.modifyHead_modifyHead]
    rfl

theorem cut_append_cons (h : separator ∉ a) (b : Text) :
    cut separator (a ++ separator :: b) = (a, some b) := by
  have ha : ∀ c ∈ a, (c != separator) = true := fun c hc =>
    bne_iff_ne.mpr fun heq => h (heq ▸ hc)
  have hend : (separator != separator) = false := by simp
  rw [cut, List.span_eq_takeWhile_dropWhile, List.takeWhile_append_of_pos ha,
    List.dropWhile_append_of_pos ha, List.takeWhile_cons_of_neg (by simp),
    List.dropWhile_cons_of_neg (by simp), List.append_nil]

/-- A text is in one piece if it has no separator. -/
theorem tail_splitOn_eq_nil_iff : (splitOn separator t).tail = [] ↔ separator ∉ t := by
  constructor
  · intro h hmem
    obtain ⟨a, b, rfl⟩ := List.append_of_mem hmem
    have hlength := congrArg List.length h
    have ha := List.length_pos_iff.mpr (splitOn_ne_nil separator a)
    have hb := List.length_pos_iff.mpr (splitOn_ne_nil separator b)
    rw [splitOn_append_cons, List.length_tail, List.length_append, List.length_nil] at hlength
    omega
  · intro h
    rw [splitOn_of_not_mem h, List.tail_cons]

end Text

theorem Moment.isVisible_text (m : Moment) : m.text.IsVisible := by
  have hmarks : Text.IsVisible "-" ∧ Text.IsVisible "T" ∧ Text.IsVisible ":" ∧
      Text.IsVisible "." ∧ Text.IsVisible "+00:00" := by
    decide
  rw [text]
  split
  next => simp [dateText, timeText, hmarks]
  next => simp [dateText, timeText, hmarks]

namespace EventLog

def lineFeed : CodePoint := '\n'

def tab : CodePoint := '\t'

/-- The lines of a text, each of which ends with a line feed. -/
def lines (t : Text) : List Text := (Text.splitOn lineFeed t).dropLast

/-- The type and the message of a line: what stands between its first two tabs, and after them. -/
def fields? (line : Text) : Option (Text × Text) :=
  match (Text.cut tab line).2 with
  | none => none
  | some rest =>
    match Text.cut tab rest with
    | (_, none) => none
    | (type, some message) => some (type, message)

/-- Whether a line is one of an event of the type. -/
def isOf (type line : Text) : Bool := (fields? line).any fun f => f.1 = type

/-- What a type has to be in order to be read. -/
def IsField (t : Text) : Prop := tab ∉ t ∧ lineFeed ∉ t

instance (t : Text) : Decidable (IsField t) := inferInstanceAs (Decidable (_ ∧ _))

theorem lines_append_cons (a b : Text) :
    lines (a ++ lineFeed :: b) = Text.splitOn lineFeed a ++ lines b := by
  rw [lines, Text.splitOn_append_cons, List.dropLast_append_of_ne_nil (Text.splitOn_ne_nil _ _),
    lines]

end EventLog

/-- An event that was logged. -/
structure Logged where
  moment : Moment
  type : Text
  message : Text
deriving DecidableEq

namespace Logged

open EventLog

def line (e : Logged) : Text := EventLog.line e.moment e.type e.message

/-- What a line begins with, before the message. -/
def label (e : Logged) : Text := e.moment.text ++ tab :: (e.type ++ [tab])

/-- The line of the event, up to the first line feed of the message. -/
def firstLine (e : Logged) : Text :=
  e.label ++ (Text.splitOn lineFeed e.message).headD []

/-- What follows a line feed of the message. -/
def laterLines (e : Logged) : List Text := (Text.splitOn lineFeed e.message).tail

theorem isField_of_isVisible {t : Text} (h : t.IsVisible) : IsField t := by
  have hneither : ¬ tab.IsVisible ∧ ¬ lineFeed.IsVisible := by decide
  exact ⟨fun hmem => hneither.1 (h _ hmem), fun hmem => hneither.2 (h _ hmem)⟩

variable {e : Logged}

theorem lineFeed_not_mem_label (h : IsField e.type) : lineFeed ∉ e.label := by
  have hmoment := (isField_of_isVisible (e.moment.isVisible_text)).2
  have htab : lineFeed ≠ tab := by decide
  simp [label, hmoment, h.2, htab]

theorem line_eq (e : Logged) : e.line = e.label ++ e.message ++ [lineFeed] := by
  have htab : ("\t" : Text) = [tab] := rfl
  have hend : ("\n" : Text) = [lineFeed] := rfl
  simp [line, EventLog.line, label, htab, hend]

/-- An event is read as its line and, if its message has line feeds, as further ones. -/
theorem lines_line_append (h : IsField e.type) (rest : Text) :
    lines (e.line ++ rest) = e.firstLine :: e.laterLines ++ lines rest := by
  have hsplit : e.line ++ rest = (e.label ++ e.message) ++ lineFeed :: rest := by
    rw [line_eq, List.append_assoc, List.singleton_append]
  rw [hsplit, lines_append_cons, Text.splitOn_append_of_not_mem (lineFeed_not_mem_label h),
    firstLine, laterLines]
  cases hpieces : Text.splitOn lineFeed e.message with
  | nil => exact absurd hpieces (Text.splitOn_ne_nil _ _)
  | cons first others => rfl

theorem fields?_firstLine (h : IsField e.type) :
    fields? e.firstLine = some (e.type, (Text.splitOn lineFeed e.message).headD []) := by
  have hmoment := (isField_of_isVisible (e.moment.isVisible_text)).1
  have hsplit (message : Text) : e.label ++ message =
      e.moment.text ++ tab :: (e.type ++ tab :: message) := by
    simp [label]
  rw [firstLine, hsplit, fields?, Text.cut_append_cons hmoment]
  dsimp only
  rw [Text.cut_append_cons h.1]

end Logged

namespace EventLog

/-- The text of a log with these events. -/
def textOf (events : List Logged) : Text := header ++ events.flatMap Logged.line

def headerLine : Text := "# Headless Runner Events"

variable {events : List Logged}

theorem lines_flatMap (h : ∀ e ∈ events, IsField e.type) :
    lines (events.flatMap Logged.line) = events.flatMap fun e => e.firstLine :: e.laterLines := by
  induction events with
  | nil => rfl
  | cons e rest ih =>
    obtain ⟨he, hrest⟩ := List.forall_mem_cons.mp h
    rw [List.flatMap_cons, List.flatMap_cons, Logged.lines_line_append he, ih hrest]

/-- The lines of a log after its header. -/
theorem lines_textOf (h : ∀ e ∈ events, IsField e.type) :
    lines (textOf events) =
      headerLine :: events.flatMap fun e => e.firstLine :: e.laterLines := by
  have hheader : header = headerLine ++ [lineFeed] := by decide
  have hfeed : lineFeed ∉ headerLine := by decide
  rw [textOf, hheader, List.append_assoc, List.singleton_append, lines_append_cons,
    Text.splitOn_of_not_mem hfeed, lines_flatMap h]
  rfl

theorem length_le_length_lines (events : List Logged) :
    events.length ≤ (events.flatMap fun e => e.firstLine :: e.laterLines).length := by
  induction events with
  | nil => exact Nat.le_refl _
  | cons e rest ih =>
    rw [List.flatMap_cons, List.length_append, List.length_cons, List.length_cons]
    omega

/-- There are as many lines as events only if no message is torn. -/
theorem laterLines_eq_nil
    (h : (events.flatMap fun e => e.firstLine :: e.laterLines).length = events.length) :
    ∀ e ∈ events, e.laterLines = [] := by
  induction events with
  | nil => simp
  | cons e rest ih =>
    have hrest := length_le_length_lines rest
    rw [List.flatMap_cons, List.length_append, List.length_cons, List.length_cons] at h
    refine List.forall_mem_cons.mpr ⟨List.length_eq_zero_iff.mp (by omega), ih (by omega)⟩

/-- The events of a log are read back exactly if none of their messages has a line feed. -/
theorem map_fields?_eq_iff (h : ∀ e ∈ events, IsField e.type) :
    (lines (textOf events)).tail.map fields? = (events.map fun e => some (e.type, e.message)) ↔
      ∀ e ∈ events, lineFeed ∉ e.message := by
  rw [lines_textOf h, List.tail_cons]
  constructor
  · intro heq e he
    have hlength := congrArg List.length heq
    rw [List.length_map, List.length_map] at hlength
    exact Text.tail_splitOn_eq_nil_iff.mp (laterLines_eq_nil hlength e he)
  · intro hwhole
    induction events with
    | nil => rfl
    | cons e rest ih =>
      obtain ⟨htype, hrest⟩ := List.forall_mem_cons.mp h
      obtain ⟨hmessage, hothers⟩ := List.forall_mem_cons.mp hwhole
      have hlater : e.laterLines = [] := Text.tail_splitOn_eq_nil_iff.mpr hmessage
      rw [List.flatMap_cons, hlater, List.singleton_append, List.map_cons, List.map_cons,
        ih hrest hothers, Logged.fields?_firstLine htype, Text.splitOn_of_not_mem hmessage,
        List.headD_cons]

/-- The lines of a type are its events, and whatever lines of other messages look like one. -/
theorem countP_isOf (h : ∀ e ∈ events, IsField e.type) (type : Text) :
    (lines (textOf events)).tail.countP (isOf type) =
      (events.countP fun e => e.type = type) +
        (events.flatMap Logged.laterLines).countP (isOf type) := by
  rw [lines_textOf h, List.tail_cons]
  induction events with
  | nil => rfl
  | cons e rest ih =>
    obtain ⟨htype, hrest⟩ := List.forall_mem_cons.mp h
    have hfirst : isOf type e.firstLine = decide (e.type = type) := by
      rw [isOf, Logged.fields?_firstLine htype, Option.any_some]
    rw [List.flatMap_cons, List.flatMap_cons, List.countP_append, List.countP_append, ih hrest,
      List.countP_cons, List.countP_cons, hfirst]
    omega

end EventLog

end Replay
