import Mathlib.Data.List.Chain
import Mathlib.Data.List.DropRight
import Replay.Proofs.Encodable
import Replay.Proofs.Trim

namespace Replay

namespace Label

variable {c : CodePoint} {t : Text} {goes p : CodePoint → Bool} {after : Bool}

/-- The code points at which a name may begin and end, all of which it keeps. -/
def isPlain (c : CodePoint) : Bool := c.isLower || c.isDigit

/-- Each run of code points that go becomes one hyphen; `after` tells that one went just before. -/
def replaceRuns (goes : CodePoint → Bool) (after : Bool) : Text → Text
  | [] => []
  | c :: rest =>
    if goes c then
      if after then replaceRuns goes true rest else hyphen :: replaceRuns goes true rest
    else c :: replaceRuns goes false rest

/-- Neighbours in a text without two hyphens in a row. -/
def Apart (c d : CodePoint) : Prop := c = hyphen → d ≠ hyphen

theorem isPlain_iff : isPlain c = true ↔ isKept c = true ∧ isEdge c = false := by
  have hunderscore : isPlain ('_' : CodePoint) = false := by decide
  have hhyphen : isPlain hyphen = false := by decide
  constructor
  · intro h
    refine ⟨?_, ?_⟩
    · simp only [isKept, ← isPlain.eq_1, h, Bool.true_or]
    · by_contra hedge
      simp only [isEdge, Bool.or_eq_false_iff, decide_eq_false_iff_not, not_and_or, not_not]
        at hedge
      rcases hedge with rfl | rfl
      · rw [hhyphen] at h
        cases h
      · rw [hunderscore] at h
        cases h
  · rintro ⟨hkept, hedge⟩
    simp only [isEdge, Bool.or_eq_false_iff, decide_eq_false_iff_not] at hedge
    simpa [isKept, isPlain, hedge.1, hedge.2] using hkept

/-- What does not go stays, in order. -/
theorem filter_replaceRuns (hhyphen : p hyphen = false) (hgoes : ∀ c, goes c = true → p c = false)
    (after : Bool) (t : Text) : (replaceRuns goes after t).filter p = t.filter p := by
  induction t generalizing after with
  | nil => rfl
  | cons c rest ih =>
    rw [replaceRuns]
    by_cases hc : goes c = true
    · have hleft : ¬ p c = true := by simp [hgoes c hc]
      rw [if_pos hc, List.filter_cons_of_neg hleft]
      split
      · exact ih true
      · rw [List.filter_cons_of_neg (by simp [hhyphen]), ih true]
    · rw [if_neg hc, List.filter_cons, List.filter_cons, ih false]

theorem replaceRuns_of_stays (h : ∀ c ∈ t, goes c = false) : replaceRuns goes after t = t := by
  induction t generalizing after with
  | nil => rfl
  | cons c rest ih =>
    have hc : ¬ goes c = true := by simp [h c List.mem_cons_self]
    rw [replaceRuns, if_neg hc, ih fun d hd => h d (List.mem_cons_of_mem c hd)]

/-- Replacing the runs of hyphens leaves no two of them in a row, and none at the front if one went
just before. -/
theorem isChain_replaceRuns (after : Bool) (t : Text) :
    (replaceRuns (· = hyphen) after t).IsChain Apart ∧
      (after = true → (replaceRuns (· = hyphen) after t).head? ≠ some hyphen) := by
  induction t generalizing after with
  | nil => exact ⟨.nil, fun _ => by simp [replaceRuns]⟩
  | cons c rest ih =>
    rw [replaceRuns]
    by_cases hc : c = hyphen
    · obtain ⟨hchain, hhead⟩ := ih true
      rw [if_pos (decide_eq_true hc)]
      cases after with
      | true => exact ⟨hchain, fun _ => hhead rfl⟩
      | false =>
        refine ⟨List.isChain_cons.mpr ⟨fun d hd _ => ?_, hchain⟩, fun h => by cases h⟩
        rintro rfl
        exact hhead rfl hd
    · rw [if_neg (by simpa using hc)]
      refine ⟨List.isChain_cons.mpr ⟨fun d _ h => absurd h hc, (ih false).1⟩, fun _ h => ?_⟩
      exact hc (Option.some.inj h)

/-- A text without two hyphens in a row is left alone. -/
theorem replaceRuns_of_isChain (h : t.IsChain Apart)
    (hhead : after = true → t.head? ≠ some hyphen) :
    replaceRuns (· = hyphen) after t = t := by
  induction t generalizing after with
  | nil => rfl
  | cons c rest ih =>
    obtain ⟨hnext, hrest⟩ := List.isChain_cons.mp h
    rw [replaceRuns]
    by_cases hc : c = hyphen
    · have hafter : ¬ after = true := fun hafter => hhead hafter (congrArg some hc)
      have hleft : replaceRuns (· = hyphen) true rest = rest :=
        ih hrest fun _ hd => hnext hyphen hd hc rfl
      rw [if_pos (decide_eq_true hc), if_neg hafter, hleft, hc]
    · rw [if_neg (by simpa using hc), ih hrest (by simp)]

/-- A text without the hyphen at its front. -/
def dropHyphen (t : Text) : Text := if t.head? = some hyphen then t.tail else t

theorem dropHyphen_hyphen (t : Text) : dropHyphen (hyphen :: t) = t := if_pos rfl

theorem dropHyphen_cons (h : c ≠ hyphen) (t : Text) : dropHyphen (c :: t) = c :: t :=
  if_neg fun hc => h (Option.some.inj hc)

theorem hyphenate_cons (c : CodePoint) (rest : Text) :
    hyphenate (c :: rest) =
      if isKept c = true ∧ c ≠ hyphen then c :: hyphenate rest
      else hyphen :: dropHyphen (hyphenate rest) := by
  have hjoin : (if (decide (hyphen = hyphen) &&
        decide ((hyphenate rest).head? = some hyphen)) = true
      then hyphenate rest else hyphen :: hyphenate rest) =
        hyphen :: dropHyphen (hyphenate rest) := by
    cases hyphenate rest with
    | nil => rfl
    | cons d name =>
      by_cases hd : d = hyphen
      · simp [hd, dropHyphen_hyphen]
      · simp [hd, dropHyphen_cons hd]
  rw [hyphenate]
  by_cases hc : isKept c = true ∧ c ≠ hyphen
  · simp [hc.1, hc.2]
  · have hgone : (if isKept c = true then c else hyphen) = hyphen := by
      split
      next hkept => exact not_not.mp fun hne => hc ⟨hkept, hne⟩
      next => rfl
    rw [if_neg hc, hgone]
    exact hjoin

/-- One pass over a text does the work of two replacements: that of the runs of all that is not
kept, and then that of the runs of hyphens. -/
theorem hyphenate_eq (t : Text) :
    hyphenate t =
      replaceRuns (· = hyphen) false (replaceRuns (fun c => !isKept c) false t) := by
  have hkeeps : isKept hyphen = true := by decide
  -- a run that goes on into the rest of the text is told apart by the flags of both passes
  have hboth : hyphenate t =
        replaceRuns (· = hyphen) false (replaceRuns (fun c => !isKept c) false t) ∧
      ∀ after, dropHyphen (hyphenate t) =
        replaceRuns (· = hyphen) true (replaceRuns (fun c => !isKept c) after t) := by
    induction t with
    | nil => exact ⟨rfl, fun _ => rfl⟩
    | cons c rest ih =>
      obtain ⟨hwhole, hdropped⟩ := ih
      rw [hyphenate_cons]
      by_cases hkept : isKept c = true
      · by_cases hc : c = hyphen
        · rw [if_neg fun h => h.2 hc, dropHyphen_hyphen, hdropped false]
          simp [replaceRuns, hc, hkeeps]
        · rw [if_pos ⟨hkept, hc⟩, dropHyphen_cons hc, hwhole]
          simp [replaceRuns, hkept, hc]
      · rw [if_neg fun h => hkept h.1, dropHyphen_hyphen, hdropped true]
        refine ⟨by simp [replaceRuns, hkept], fun after => ?_⟩
        cases after <;> simp [replaceRuns, hkept]
  exact hboth.1

/-- The letters and digits of a text are those of its name, in order. -/
theorem filter_hyphenate (t : Text) : (hyphenate t).filter isPlain = t.filter isPlain := by
  have hhyphen : isPlain hyphen = false := by decide
  rw [hyphenate_eq, filter_replaceRuns hhyphen, filter_replaceRuns hhyphen]
  · intro c hc
    by_contra hplain
    have hkept := (isPlain_iff.mp (Bool.not_eq_false _ ▸ hplain)).1
    simp [hkept] at hc
  · intro c hc
    rw [of_decide_eq_true hc]
    exact hhyphen

theorem isChain_hyphenate (t : Text) : (hyphenate t).IsChain Apart := by
  rw [hyphenate_eq]
  exact (isChain_replaceRuns false _).1

/-- A text that is made as names are is left alone. -/
theorem hyphenate_of_isChain (hkept : ∀ c ∈ t, isKept c = true) (h : t.IsChain Apart) :
    hyphenate t = t := by
  have hstays : ∀ c ∈ t, (!isKept c) = false := fun c hc => by simp [hkept c hc]
  have halone : replaceRuns (· = hyphen) false t = t :=
    replaceRuns_of_isChain h fun hafter => by cases hafter
  rw [hyphenate_eq, replaceRuns_of_stays hstays, halone]

theorem trimEdges_isInfix (t : Text) : trimEdges t <:+: t :=
  (List.rdropWhile_prefix _ _).isInfix.trans (List.dropWhile_suffix _).isInfix

/-- A name begins with no hyphen and no underscore. -/
theorem not_isEdge_head (h : (trimEdges t).head? = some c) : isEdge c = false :=
  Text.not_head_of_dropWhile h

/-- A name ends with no hyphen and no underscore. -/
theorem not_isEdge_getLast (h : trimEdges t ≠ []) : isEdge ((trimEdges t).getLast h) = false := by
  have hnot := List.rdropWhile_last_not isEdge (t.dropWhile isEdge) h
  exact Bool.not_eq_true _ ▸ hnot

/-- What is no edge stays, in order. -/
theorem filter_trimEdges (hedge : ∀ c, isEdge c = true → p c = false) (t : Text) :
    (trimEdges t).filter p = t.filter p := by
  have hleft (t : Text) : (t.dropWhile isEdge).filter p = t.filter p := by
    induction t with
    | nil => rfl
    | cons c rest ih =>
      by_cases hc : isEdge c = true
      · rw [List.dropWhile_cons_of_pos hc, ih, List.filter_cons_of_neg (by simp [hedge c hc])]
      · rw [List.dropWhile_cons_of_neg hc]
  rw [trimEdges, List.filter_reverse, hleft, List.filter_reverse, hleft, List.reverse_reverse]

/-- A text without an edge at either end is left alone. -/
theorem trimEdges_eq_self (hhead : ∀ c, t.head? = some c → isEdge c = false)
    (hlast : ∀ h : t ≠ [], isEdge (t.getLast h) = false) : trimEdges t = t :=
  Text.rdropWhile_dropWhile_eq_self hhead hlast

/-- All that a name keeps is in lower case. -/
theorem lower_of_isKept (h : ∀ c ∈ t, isKept c = true) : t.lower = t := by
  have hsmall (before : Text) : Text.lowerAfter before t = t := by
    induction t generalizing before with
    | nil => rfl
    | cons c rest ih =>
      obtain ⟨-, hhigh, hupper⟩ := bounds_of_isKept (h c List.mem_cons_self)
      have hascii : c.val < 0x80 := by omega
      have hsigma : c ≠ Text.capitalSigma := by
        rintro rfl
        exact absurd hascii (by decide)
      have hself : c.lower = [c] := by
        rw [CodePoint.lower, hupper, CodePoint.isAscii, decide_eq_true hascii]
        rfl
      rw [Text.lowerAfter, ih fun d hd => h d (List.mem_cons_of_mem c hd)]
      simp [hsigma, hself]
  exact hsmall []

theorem trim_of_isKept (h : ∀ c ∈ t, isKept c = true) : t.trim = t := by
  refine Text.trim_of_not_isBlank fun c hc => ?_
  obtain ⟨hlow, hhigh, -⟩ := bounds_of_isKept (h c hc)
  simp only [CodePoint.isBlank, Bool.or_eq_false_iff, Bool.and_eq_false_iff,
    decide_eq_false_iff_not, beq_eq_false_iff_ne]
  omega

/-- What a name is made of: kept code points, of which no two hyphens are in a row, from a letter or
digit to another one. -/
structure IsName (t : Text) : Prop where
  ne_nil : t ≠ []
  kept : ∀ c ∈ t, isKept c = true
  chain : t.IsChain Apart
  head : ∀ c, t.head? = some c → isEdge c = false
  last : ∀ h : t ≠ [], isEdge (t.getLast h) = false

/-- The name of a text that is one already is the text. -/
theorem IsName.fileName_eq (h : IsName t) : fileName t = t := by
  rw [fileName, trim_of_isKept h.kept, lower_of_isKept h.kept,
    hyphenate_of_isChain h.kept h.chain, trimEdges_eq_self h.head h.last]
  simp [h.ne_nil]

theorem IsName.of_trimEdges (h : trimEdges (hyphenate t) ≠ []) :
    IsName (trimEdges (hyphenate t)) where
  ne_nil := h
  kept _ hc := isKept_of_mem_hyphenate (trimEdges_subset _ hc)
  chain := List.IsChain.infix (isChain_hyphenate t) (trimEdges_isInfix _)
  head _ := not_isEdge_head
  last := not_isEdge_getLast

/-- The letters and digits of a text are those of its trimmed name. -/
theorem filter_trimEdges_hyphenate (t : Text) :
    (trimEdges (hyphenate t)).filter isPlain = t.filter isPlain := by
  have hedge : ∀ c, isEdge c = true → isPlain c = false := by
    intro c hc
    by_contra hplain
    have hnot := (isPlain_iff.mp (Bool.not_eq_false _ ▸ hplain)).2
    rw [hc] at hnot
    cases hnot
  rw [filter_trimEdges hedge, filter_hyphenate]

/-- Nothing is left of a text exactly if it has neither a letter nor a digit. -/
theorem trimEdges_hyphenate_eq_nil_iff :
    trimEdges (hyphenate t) = [] ↔ t.any isPlain = false := by
  have hfilter := filter_trimEdges_hyphenate t
  constructor
  · intro h
    rw [h, List.filter_nil, eq_comm, List.filter_eq_nil_iff] at hfilter
    simpa using hfilter
  · intro h
    by_contra hne
    have hname := IsName.of_trimEdges hne
    obtain ⟨c, rest, hcons⟩ := List.exists_cons_of_ne_nil hne
    have hc : isPlain c = true := by
      refine isPlain_iff.mpr ⟨hname.kept c ?_, hname.head c ?_⟩ <;> rw [hcons]
      · exact List.mem_cons_self
      · rfl
    have hnone : t.filter isPlain = [] := List.filter_eq_nil_iff.mpr (by simpa using h)
    rw [hnone, hcons, List.filter_cons_of_pos hc] at hfilter
    cases hfilter

theorem isName_fileName (label : Text) : IsName (fileName label) := by
  rw [fileName]
  split
  next =>
    have hsnap : trimEdges (hyphenate "snap") = "snap" := by decide
    rw [← hsnap]
    exact .of_trimEdges (by rw [hsnap]; decide)
  next h => exact .of_trimEdges (by simpa using h)

/-- Whatever the label is, its file name has nothing but small letters, digits, underscores and
hyphens, begins and ends with a letter or digit, has no two hyphens in a row, and names itself. It
spells the letters and digits that the label has in lower case, in order, or else it is `snap`. -/
theorem fileName_label (label : Text) :
    let name := fileName label
    let small := label.trim.lower
    name ≠ [] ∧
      (∀ c ∈ name, c.isLower ∨ c.isDigit ∨ c = ('_' : CodePoint) ∨ c = ('-' : CodePoint)) ∧
      (∃ first last, name.head? = some first ∧ name.getLast? = some last ∧
        (first.isLower ∨ first.isDigit) ∧ (last.isLower ∨ last.isDigit)) ∧
      ¬ ("--" : Text) <:+: name ∧
      fileName name = name ∧
      if small.any fun c => c.isLower || c.isDigit then
        name.filter (fun c => c.isLower || c.isDigit) =
          small.filter fun c => c.isLower || c.isDigit
      else name = "snap" := by
  intro name small
  have hname : IsName name := isName_fileName label
  have hplain : ∀ c, isKept c = true → isEdge c = false → c.isLower ∨ c.isDigit := by
    intro c hkept hedge
    exact Bool.or_eq_true_iff.mp (isPlain_iff.mpr ⟨hkept, hedge⟩)
  refine ⟨hname.ne_nil, fun c hc => ?_, ?_, fun h => ?_, hname.fileName_eq, ?_⟩
  · have hkept := hname.kept c hc
    simp only [isKept, Bool.or_eq_true, decide_eq_true_eq, or_assoc] at hkept
    exact hkept
  · obtain ⟨first, rest, hcons⟩ := List.exists_cons_of_ne_nil hname.ne_nil
    have hhead : name.head? = some first := by rw [hcons]; rfl
    refine ⟨first, name.getLast hname.ne_nil, hhead, List.getLast?_eq_getLast_of_ne_nil _, ?_, ?_⟩
    · exact hplain _ (hname.kept _ (List.mem_of_head? hhead)) (hname.head _ hhead)
    · exact hplain _ (hname.kept _ (List.getLast_mem _)) (hname.last _)
  · have hchain := List.IsChain.infix hname.chain h
    exact (List.isChain_cons.mp hchain).1 hyphen rfl rfl rfl
  · have hnil : trimEdges (hyphenate small) = [] ↔ small.any isPlain = false :=
      trimEdges_hyphenate_eq_nil_iff
    have hfilter := filter_trimEdges_hyphenate small
    by_cases hplainly : small.any isPlain = true
    · have hwhole : name = trimEdges (hyphenate small) := by
        refine if_neg fun hempty => ?_
        rw [hnil.mp (List.isEmpty_iff.mp hempty)] at hplainly
        cases hplainly
      refine (if_pos hplainly).mpr ?_
      rw [hwhole]
      exact hfilter
    · have hempty := hnil.mpr (Bool.not_eq_true _ ▸ hplainly)
      refine (if_neg hplainly).mpr ?_
      exact if_pos (List.isEmpty_iff.mpr hempty)

end Label

end Replay
