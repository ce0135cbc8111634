import Replay.Proofs.LabelNames
import Replay.Proofs.LogLines
import Replay.Proofs.ReportText
import Replay.Proofs.StepReading

namespace Replay

namespace Text

variable {separator c : CodePoint} {parts others : List Text} {t : Text}

theorem join_append (hparts : parts ≠ []) (hothers : others ≠ []) :
    join [separator] (parts ++ others) =
      join [separator] parts ++ separator :: join [separator] others := by
  obtain ⟨u, rest, rfl⟩ := List.exists_cons_of_ne_nil hothers
  induction parts with
  | nil => exact absurd rfl hparts
  | cons t parts ih =>
    cases parts with
    | nil => simp [join]
    | cons t' parts =>
      rw [List.cons_append, List.cons_append, join_cons_cons, ← List.cons_append,
        ih (List.cons_ne_nil _ _), join_cons_cons]
      simp

/-- The pieces of a join are those of its parts. -/
theorem splitOn_join (h : parts ≠ []) :
    splitOn separator (join [separator] parts) = parts.flatMap (splitOn separator) := by
  induction parts with
  | nil => exact absurd rfl h
  | cons t parts ih =>
    cases parts with
    | nil => simp [join]
    | cons t' parts =>
      rw [join_cons_cons, List.append_assoc, List.singleton_append, splitOn_append_cons,
        ih (List.cons_ne_nil _ _)]
      exact List.flatMap_cons.symm

/-- The pieces of texts each of which is closed with a separator; nothing is left after the last. -/
theorem splitOn_flatMap_concat (parts : List Text) :
    splitOn separator (parts.flatMap (· ++ [separator])) =
      parts.flatMap (splitOn separator) ++ [[]] := by
  induction parts with
  | nil => rfl
  | cons t parts ih =>
    rw [List.flatMap_cons, List.append_assoc, List.singleton_append, splitOn_append_cons, ih,
      List.flatMap_cons, List.append_assoc]

theorem flatMap_splitOn_of_not_mem (h : ∀ t ∈ parts, separator ∉ t) :
    parts.flatMap (splitOn separator) = parts := by
  induction parts with
  | nil => rfl
  | cons t parts ih =>
    obtain ⟨ht, hparts⟩ := List.forall_mem_cons.mp h
    rw [List.flatMap_cons, splitOn_of_not_mem ht, ih hparts, List.singleton_append]

/-- As many pieces as texts: none of them has a separator. -/
theorem not_mem_of_length_flatMap_le
    (h : (parts.flatMap (splitOn separator)).length ≤ parts.length) :
    ∀ t ∈ parts, separator ∉ t := by
  have hpos (t : Text) : 1 ≤ (splitOn separator t).length :=
    List.length_pos_iff.mpr (splitOn_ne_nil separator t)
  have hall (parts : List Text) : parts.length ≤ (parts.flatMap (splitOn separator)).length := by
    induction parts with
    | nil => exact Nat.le_refl _
    | cons t parts ih =>
      have ht := hpos t
      rw [List.flatMap_cons, List.length_append, List.length_cons]
      omega
  induction parts with
  | nil => simp
  | cons t parts ih =>
    have ht := hpos t
    have hparts := hall parts
    rw [List.flatMap_cons, List.length_append, List.length_cons] at h
    refine List.forall_mem_cons.mpr ⟨tail_splitOn_eq_nil_iff.mp ?_, ih (by omega)⟩
    rw [← List.length_eq_zero_iff, List.length_tail]
    omega

theorem head?_join_cons (h : t.head? = some c) (separator : Text) (parts : List Text) :
    (join separator (t :: parts)).head? = some c := by
  cases parts with
  | nil => simpa [join] using h
  | cons u rest => rw [join_cons_cons, List.append_assoc, List.head?_append, h, Option.some_or]

theorem getLast?_join_append (h : (join [separator] others).getLast? = some c)
    (hparts : parts ≠ []) (hothers : others ≠ []) :
    (join [separator] (parts ++ others)).getLast? = some c := by
  rw [join_append hparts hothers, List.append_cons, List.getLast?_append, h, Option.some_or]

end Text

/-- A snapshot as it is reported: with a label that a script can give it, a number of frames, and
a file name for one of the images of a run. -/
structure Artifact.IsListed (a : Artifact) : Prop where
  label : ∃ step value, Script.readLabel step value = .ok a.label
  frame : ∃ k : Int, a.frame = .int k
  name : ∃ number label, a.path.name = fileName number label

namespace Report

open EventLog (lineFeed)

def bar : CodePoint := '|'

def sizeText (a : Artifact) : Text := Text.ofInt a.width ++ "x" ++ Text.ofInt a.height

/-- What a line of the table says of a snapshot. -/
def cells (number : Nat) (a : Artifact) : List Text :=
  [Text.ofNat number, a.label, a.frame.plain, sizeText a, a.path.name]

/-- What is read in a line of the table: nothing before its first bar and after its last one. -/
def cellsOf (line : Text) : List Text := (Text.splitOn bar line).map Text.trim

/-- The lines that stand for snapshots, the first under the given number. -/
def rowLines (number : Nat) (captures : List Artifact) : List Text :=
  (rows number captures).flatMap (Text.splitOn lineFeed)

variable {a : Artifact} {captures : List Artifact} {number : Nat} {t : Text}

theorem rows_eq (number : Nat) (captures : List Artifact) :
    rows number captures = (captures.zipIdx number).map fun c => row c.2 c.1 := by
  induction captures generalizing number with
  | nil => rfl
  | cons a rest ih => rw [rows, ih, List.zipIdx_cons, List.map_cons]

/-- A text without blanks and bars. -/
def IsSolid (t : Text) : Prop := t.IsVisible ∧ bar ∉ t

theorem IsSolid.trim_eq (h : IsSolid t) : t.trim = t := by
  refine Text.trim_of_not_isBlank fun c hc => ?_
  obtain ⟨hlow, hhigh⟩ := h.1 c hc
  simp only [CodePoint.isBlank, Bool.or_eq_false_iff, Bool.and_eq_false_iff,
    decide_eq_false_iff_not, beq_eq_false_iff_ne]
  omega

theorem IsSolid.lineFeed_not_mem (h : IsSolid t) : lineFeed ∉ t := by
  have hnot : ¬ lineFeed.IsVisible := by decide
  exact fun hmem => hnot (h.1 _ hmem)

theorem isSolid_of_isDigit (h : ∀ c ∈ t, c.isDigit = true) : IsSolid t := by
  constructor
  · intro c hc
    have hdigit := h c hc
    simp only [CodePoint.isDigit, Bool.and_eq_true, decide_eq_true_eq] at hdigit
    exact ⟨by omega, by omega⟩
  · exact fun hmem => absurd (h _ hmem) (by decide)

theorem isSolid_append {s : Text} : IsSolid (s ++ t) ↔ IsSolid s ∧ IsSolid t := by
  simp only [IsSolid, Text.isVisible_append, List.mem_append, not_or]
  tauto

theorem isSolid_ofNat (n : Nat) : IsSolid (Text.ofNat n) := by
  have hpadded : Text.ofNat n = Text.padded 0 n := by simp [Text.padded]
  rw [hpadded]
  exact isSolid_of_isDigit fun _ => Text.isDigit_of_mem_padded

theorem isSolid_ofInt (k : Int) : IsSolid (Text.ofInt k) := by
  have hminus : IsSolid "-" := ⟨by decide, by decide⟩
  cases k with
  | ofNat n => exact isSolid_ofNat n
  | negSucc n => exact isSolid_append.mpr ⟨hminus, isSolid_ofNat _⟩

theorem isSolid_fileName (number : Nat) (label : Text) :
    IsSolid (Artifact.fileName number label) := by
  refine ⟨Artifact.isVisible_fileName number label, ?_⟩
  have hnumber : bar ∉ Text.padded 2 number := fun hmem =>
    absurd (Text.isDigit_of_mem_padded hmem) (by decide)
  have hname : bar ∉ Label.fileName label := fun hmem =>
    absurd ((Label.isName_fileName label).kept _ hmem) (by decide)
  have hmarks : bar ∉ ("-" : Text) ∧ bar ∉ (".png" : Text) := by decide
  simp [Artifact.fileName, hnumber, hname, hmarks]

/-- A cell as it is written. -/
def spaced (t : Text) : Text := " " ++ t ++ " "

/-- A trimmed text is read as one cell if it has no bar. -/
theorem cellsOf_spaced_iff (h : t.trim = t) : cellsOf (spaced t) = [t] ↔ bar ∉ t := by
  have hspace : bar ∉ (" " : Text) := by decide
  have hblank : ∀ c ∈ (" " : Text), c.isBlank = true := by decide
  have hmem : bar ∈ spaced t ↔ bar ∈ t := by simp [spaced, hspace]
  rw [cellsOf]
  constructor
  · intro hpieces
    have hlength := congrArg List.length hpieces
    rw [List.length_map, List.length_singleton] at hlength
    refine mt hmem.mpr (Text.tail_splitOn_eq_nil_iff.mp ?_)
    rw [← List.length_eq_zero_iff, List.length_tail, hlength]
  · intro hbar
    rw [Text.splitOn_of_not_mem (mt hmem.mp hbar), List.map_singleton, spaced,
      Text.trim_append_append hblank hblank, h]

theorem row_eq (number : Nat) (a : Artifact) :
    row number a = bar :: ((cells number a).map spaced).flatMap (· ++ [bar]) := by
  have hopen : ("| " : Text) = bar :: " " := rfl
  have hbetween : (" | " : Text) = " " ++ bar :: " " := rfl
  have hclose : (" |" : Text) = " " ++ [bar] := rfl
  simp [row, cells, sizeText, spaced, hopen, hbetween, hclose]

/-- What is read in a line is what is read in its cells as they are written. -/
theorem cellsOf_row (number : Nat) (a : Artifact) :
    cellsOf (row number a) =
      [] :: (cells number a).flatMap (fun c => cellsOf (spaced c)) ++ [[]] := by
  have hfirst (rest : Text) : Text.splitOn bar (bar :: rest) = [] :: Text.splitOn bar rest :=
    Text.splitOn_append_cons bar [] rest
  rw [cellsOf, row_eq, hfirst, Text.splitOn_flatMap_concat, List.map_cons, List.map_append,
    List.flatMap_map, List.map_flatMap]
  rfl

theorem label_trim (h : a.IsListed) : a.label.trim = a.label := by
  obtain ⟨step, value, hlabel⟩ := h.label
  obtain ⟨t, -, -, htrim⟩ := Script.readLabel_eq_ok_iff.mp hlabel
  rw [htrim, Text.trim_trim]

/-- Apart from the label every cell is solid. -/
theorem isSolid_cells (h : a.IsListed) (number : Nat) :
    IsSolid (Text.ofNat number) ∧ IsSolid a.frame.plain ∧ IsSolid (sizeText a) ∧
      IsSolid a.path.name := by
  obtain ⟨k, hframe⟩ := h.frame
  obtain ⟨n, label, hname⟩ := h.name
  have hcross : IsSolid "x" := ⟨by decide, by decide⟩
  refine ⟨isSolid_ofNat number, ?_, ?_, ?_⟩
  · rw [hframe]
    exact isSolid_ofInt k
  · exact isSolid_append.mpr
      ⟨isSolid_append.mpr ⟨isSolid_ofInt _, hcross⟩, isSolid_ofInt _⟩
  · rw [hname]
    exact isSolid_fileName n label

theorem cellsOf_row_iff (h : a.IsListed) (number : Nat) :
    cellsOf (row number a) = [] :: cells number a ++ [[]] ↔ bar ∉ a.label := by
  obtain ⟨hnumber, hframe, hsize, hname⟩ := isSolid_cells h number
  have hsolid {t : Text} (h : IsSolid t) : cellsOf (spaced t) = [t] :=
    (cellsOf_spaced_iff h.trim_eq).mpr h.2
  rw [cellsOf_row, ← cellsOf_spaced_iff (label_trim h), cells]
  simp only [List.flatMap_cons, List.flatMap_nil, hsolid hnumber, hsolid hframe, hsolid hsize,
    hsolid hname, List.cons_append, List.nil_append, List.append_assoc, List.cons.injEq, true_and]
  show cellsOf (spaced a.label) ++ [a.frame.plain, sizeText a, a.path.name, []] =
    [a.label] ++ [a.frame.plain, sizeText a, a.path.name, []] ↔ _
  exact List.append_left_inj _

theorem lineFeed_mem_row_iff (h : a.IsListed) (number : Nat) :
    lineFeed ∈ row number a ↔ lineFeed ∈ a.label := by
  obtain ⟨hnumber, hframe, hsize, hname⟩ := isSolid_cells h number
  have hnot {t : Text} (h : IsSolid t) : lineFeed ∉ t := h.lineFeed_not_mem
  have hwidth := (isSolid_append.mp (isSolid_append.mp hsize).1).1
  have hheight := (isSolid_append.mp hsize).2
  have hmarks : lineFeed ∉ ("| " : Text) ∧ lineFeed ∉ (" | " : Text) ∧ lineFeed ∉ (" |" : Text) ∧
      lineFeed ∉ ("x" : Text) := by
    decide
  simp [row, hnot hnumber, hnot hframe, hnot hwidth, hnot hheight, hnot hname, hmarks]

/-- The lines for snapshots are read as one line each, with the cells of its snapshot, exactly if no
label has a bar or a line feed. -/
theorem cellsOf_rowLines_iff (h : ∀ a ∈ captures, a.IsListed) (number : Nat) :
    (rowLines number captures).map cellsOf =
        (captures.zipIdx number).map (fun c => [] :: cells c.2 c.1 ++ [[]]) ↔
      ∀ a ∈ captures, bar ∉ a.label ∧ lineFeed ∉ a.label := by
  have hlisted : ∀ c ∈ captures.zipIdx number, c.1.IsListed := fun c hc =>
    h c.1 (List.fst_mem_of_mem_zipIdx hc)
  have hall (p : Artifact → Prop) :
      (∀ a ∈ captures, p a) ↔ ∀ c ∈ captures.zipIdx number, p c.1 := by
    conv_lhs => rw [← List.zipIdx_map_fst number captures]
    exact List.forall_mem_map
  have hwhole (hfeed : ∀ c ∈ captures.zipIdx number, lineFeed ∉ c.1.label) :
      rowLines number captures = (captures.zipIdx number).map fun c => row c.2 c.1 := by
    rw [rowLines, rows_eq]
    refine Text.flatMap_splitOn_of_not_mem (List.forall_mem_map.mpr fun c hc => ?_)
    exact mt (lineFeed_mem_row_iff (hlisted c hc) c.2).mp (hfeed c hc)
  have hcells : ((captures.zipIdx number).map fun c => row c.2 c.1).map cellsOf =
        (captures.zipIdx number).map (fun c => [] :: cells c.2 c.1 ++ [[]]) ↔
      ∀ c ∈ captures.zipIdx number, bar ∉ c.1.label := by
    simp only [List.map_map, List.map_inj_left, Function.comp_apply]
    exact forall₂_congr fun c hc => cellsOf_row_iff (hlisted c hc) c.2
  rw [hall]
  constructor
  · intro hread
    have hfeed : ∀ c ∈ captures.zipIdx number, lineFeed ∉ c.1.label := by
      -- as many lines as snapshots: none of the lines is in pieces
      have hlength := congrArg List.length hread
      rw [List.length_map, List.length_map, rowLines, rows_eq] at hlength
      have hnot := Text.not_mem_of_length_flatMap_le (by rw [hlength, List.length_map])
      intro c hc
      rw [← lineFeed_mem_row_iff (hlisted c hc) c.2]
      exact hnot _ (List.mem_map_of_mem hc)
    rw [hwhole hfeed] at hread
    exact fun c hc => ⟨hcells.mp hread c hc, hfeed c hc⟩
  · intro hlabels
    rw [hwhole fun c hc => (hlabels c hc).2]
    exact hcells.mpr fun c hc => (hlabels c hc).1

/-- The two lines above those for snapshots. -/
def tableHead : List Text :=
  ["| # | Label | Frame | Size | File |", "| --- | --- | --- | --- | --- |"]

variable {r : RunResult} {m : Moment} {duration : Text}

/-- The line of the title. -/
def titleLine (m : Moment) : Text := "# Headless Run Report — " ++ m.title

/-- The lines above the table. -/
def above (r : RunResult) (m : Moment) (duration : Text) : List Text :=
  [titleLine m, []] ++ summary r duration ++ [[]]

theorem lines_of_captures (hne : r.captures ≠ []) :
    lines r m duration = (above r m duration ++ tableHead ++ rows 1 r.captures) ++
      [] :: diagnosticLines r.diagnostics := by
  have hfalse : r.captures.isEmpty = false := by simpa using hne
  simp [lines, titleLine, above, table, hfalse, tableHead]

theorem head?_titleLine (m : Moment) : (titleLine m).head? = some (CodePoint.ofChar '#') := by
  have hmark : ("# Headless Run Report — " : Text).head? = some (CodePoint.ofChar '#') := rfl
  rw [titleLine, List.head?_append, hmark, Option.some_or]

theorem head?_join_above (r : RunResult) (m : Moment) (duration : Text) (others : List Text) :
    (Text.join [lineFeed] (above r m duration ++ others)).head? = some (CodePoint.ofChar '#') :=
  Text.head?_join_cons (head?_titleLine m) _ _

theorem getLast?_join_rows (hne : captures ≠ []) (number : Nat) :
    (Text.join [lineFeed] (rows number captures)).getLast? = some bar := by
  have hrow (number : Nat) (a : Artifact) : (row number a).getLast? = some bar := by
    have hclose : (" |" : Text).getLast? = some bar := rfl
    rw [row, List.getLast?_append, hclose, Option.some_or]
  induction captures generalizing number with
  | nil => exact absurd rfl hne
  | cons a rest ih =>
    cases rest with
    | nil => simpa [rows, Text.join] using hrow number a
    | cons a' rest =>
      have hlater := ih (List.cons_ne_nil _ _) (number + 1)
      show (Text.join [lineFeed] ([row number a] ++ rows (number + 1) (a' :: rest))).getLast? = _
      exact Text.getLast?_join_append hlater (List.cons_ne_nil _ _) (List.cons_ne_nil _ _)

/-- After the table comes an empty line, also where blanks are taken off the end of the report. -/
theorem exists_after_table (diagnostics : List Text) :
    ∃ after rest, Text.trimRight
        (lineFeed :: Text.join [lineFeed] ([] :: diagnosticLines diagnostics)) ++ [lineFeed] =
          lineFeed :: after ∧ Text.splitOn lineFeed after = [] :: rest := by
  cases diagnostics with
  | nil => exact ⟨[], [], rfl, rfl⟩
  | cons message others =>
    let t := "# Diagnostics\n" ++ Text.join [lineFeed]
      (diagnosticLine message :: (others.map diagnosticLine ++ [[]]))
    have ht : lineFeed :: Text.join [lineFeed] ([] :: diagnosticLines (message :: others)) =
        "\n\n#" ++ t := rfl
    refine ⟨lineFeed :: (CodePoint.ofChar '#' :: (Text.trimRight t ++ [lineFeed])), _, ?_,
      Text.splitOn_append_cons lineFeed [] _⟩
    rw [ht, Text.trimRight_append (d := CodePoint.ofChar '#') rfl (by decide)]
    rfl

/-- In a report the lines for snapshots stand between the head of the table and an empty line. -/
theorem splitOn_textOf (hne : r.captures ≠ []) :
    ∃ before after, Text.splitOn lineFeed (textOf r m duration) =
      before ++ tableHead ++ rowLines 1 r.captures ++ [] :: after := by
  have hrows : rows 1 r.captures ≠ [] := by
    rw [rows_eq]
    simpa using hne
  have hparts : above r m duration ++ tableHead ≠ [] := by simp [tableHead]
  have hall : above r m duration ++ tableHead ++ rows 1 r.captures ≠ [] := by simp [hrows]
  have hfeed : ("\n" : Text) = [lineFeed] := rfl
  have hhead := head?_join_above r m duration (tableHead ++ rows 1 r.captures)
  have hlast := Text.getLast?_join_append (getLast?_join_rows hne 1) hparts hrows
  obtain ⟨after, rest, hafter, hsplit⟩ := exists_after_table r.diagnostics
  have htext : textOf r m duration =
      Text.join [lineFeed] (above r m duration ++ tableHead ++ rows 1 r.captures) ++
        lineFeed :: after := by
    rw [← List.append_assoc] at hhead
    rw [textOf, lines_of_captures hne, hfeed, Text.join_append hall (List.cons_ne_nil _ _),
      Text.trim_append hhead (by decide) hlast (by decide), List.append_assoc, hafter]
  have hlines : tableHead.flatMap (Text.splitOn lineFeed) = tableHead := by decide
  refine ⟨(above r m duration).flatMap (Text.splitOn lineFeed), rest, ?_⟩
  rw [htext, Text.splitOn_append_cons, Text.splitOn_join hall, hsplit, List.flatMap_append,
    List.flatMap_append, hlines]
  rfl

variable {s : Machine} {text : Text}

/-- What a report is made of when there is one. -/
theorem exists_textOf_of_render (h : (render r s).1 = .ok text) :
    ∃ m duration, text = textOf r m duration := by
  have hrender : render r s = (.ok text, (render r s).2) := Prod.ext h rfl
  rw [render_eq] at hrender
  obtain ⟨m, _, -, hrender⟩ := Action.bind_eq_ok_iff.mp hrender
  obtain ⟨duration, _, -, hrender⟩ := Action.bind_eq_ok_iff.mp hrender
  exact ⟨m, duration, (Except.ok.inj (Prod.mk.inj hrender).1).symm⟩

/-- In a report of snapshots the head of the table is followed by the lines for them and an empty
line. These are one line for each snapshot, and read as its number, label, frame, size and file,
exactly if no label has a bar or a line feed. -/
theorem render_table (hrender : (render r s).1 = .ok text) (hne : r.captures ≠ [])
    (h : ∀ a ∈ r.captures, a.IsListed) :
    (∃ before after, Text.splitOn lineFeed text =
      before ++ tableHead ++ rowLines 1 r.captures ++ [] :: after) ∧
    ((rowLines 1 r.captures).map cellsOf =
        (r.captures.zipIdx 1).map (fun c => [] :: cells c.2 c.1 ++ [[]]) ↔
      ∀ a ∈ r.captures, bar ∉ a.label ∧ lineFeed ∉ a.label) := by
  obtain ⟨m, duration, htext⟩ := exists_textOf_of_render hrender
  rw [htext]
  exact ⟨splitOn_textOf hne, cellsOf_rowLines_iff h 1⟩

/-- A label with a bar in it is a label of scripts, but it is not read as one cell. -/
theorem render_table_of_bar :
    let a : Artifact := ⟨"a|b", .int 1, Path.ofText "/run/01-a-b.png", 1, 1⟩
    let r : RunResult := ⟨true, .int 1, [a], [], none, [], [], .real .zero, []⟩
    let s : Machine := ⟨⟨[], [], fun _ => none, fun _ _ => none⟩, .ofReadings fun _ => default⟩
    let line : Text := "| 1 | a|b | 1 | 1x1 | 01-a-b.png |"
    a.IsListed ∧ ∃ text, (render r s).1 = .ok text ∧
      (∃ before after,
        Text.splitOn lineFeed text = before ++ tableHead ++ [line] ++ [] :: after) ∧
      cellsOf line ≠ [] :: cells 1 a ++ [[]] := by
  intro a r s line
  have hlisted : a.IsListed := by
    refine ⟨⟨0, .text "a|b", ?_⟩, ⟨1, rfl⟩, ⟨1, "a|b", ?_⟩⟩ <;> decide
  have hlabel : bar ∈ a.label := by decide
  have hlines : rowLines 1 r.captures = [line] := by decide
  have hrender : (render r s).1 = .ok (textOf r default (Double.zero.fixed 2)) := by
    have hone : (Number.int 1).isShort = true := Number.isShort_int (by decide) (by decide)
    have hframe : (Json.int 1).isShort = true := by rw [Json.int, Json.isShort, hone]
    have htail : hasShortTail r = true := by
      simp [hasShortTail, Artifact.isShort, r, a, hframe, hone]
    have hfixed : r.runtime.fixed 2 = .ok (Double.zero.fixed 2) := rfl
    have hcount : r.frameCount.isShort = true := hframe
    rw [render_of_duration (duration_eq_ok_iff.mpr ⟨hcount, hfixed, htail⟩)]
    rfl
  obtain ⟨htable, hread⟩ :=
    render_table hrender (List.cons_ne_nil _ _) (List.forall_mem_singleton.mpr hlisted)
  rw [hlines] at htable hread
  refine ⟨hlisted, _, hrender, htable, fun hcells => ?_⟩
  have hall := hread.mp (congrArg (fun cells => [cells]) hcells)
  exact (hall a List.mem_cons_self).1 hlabel

end Report

end Replay
