import Mathlib.Data.List.Perm.Basic
import Mathlib.Data.Option.Basic
import Mathlib.Logic.Relation
import Replay.Proofs.ScriptFaults
import Replay.Proofs.Trim

namespace Replay

namespace Members

variable {α : Type} {before after members others : Members α} {name key : Text} {v w : α}

theorem get?_cons (m : Text × α) (rest : Members α) (name : Text) :
    get? (m :: rest) name = if m.1 = name then some m.2 else get? rest name := by
  by_cases h : m.1 = name <;> simp [get?, h]

theorem get?_append (before after : Members α) (name : Text) :
    get? (before ++ after) name = (get? before name).or (get? after name) := by
  induction before with
  | nil => rfl
  | cons m rest ih =>
    rw [List.cons_append, get?_cons, get?_cons, ih]
    split <;> rfl

theorem get?_insert (h : key ≠ name) :
    get? (before ++ (key, v) :: after) name = get? (before ++ after) name := by
  rw [get?_append, get?_append, get?_cons, if_neg h]

theorem get?_replace (h : key ≠ name) :
    get? (before ++ (key, v) :: after) name = get? (before ++ (key, w) :: after) name := by
  rw [get?_insert h, get?_insert h]

theorem get?_eq_none (h : name ∉ members.map Prod.fst) : get? members name = none := by
  induction members with
  | nil => rfl
  | cons m rest ih =>
    rw [List.map_cons, List.mem_cons, not_or] at h
    rw [get?_cons, if_neg (Ne.symm h.1), ih h.2]

/-- The order of members of different names does not matter. -/
theorem get?_perm (h : members.Perm others) (distinct : (members.map Prod.fst).Nodup)
    (name : Text) : get? members name = get? others name := by
  induction h with
  | nil => rfl
  | cons m _ ih =>
    rw [get?_cons, get?_cons, ih (List.nodup_cons.mp distinct).2]
  | swap m n rest =>
    have hne : n.1 ≠ m.1 := by
      rintro heq
      exact (List.nodup_cons.mp distinct).1 (heq ▸ List.mem_cons_self)
    simp only [get?_cons]
    by_cases hm : m.1 = name
    · have hn : n.1 ≠ name := fun heq => hne (heq.trans hm.symm)
      simp [hm, hn]
    · simp [hm]
  | trans hfirst _ ih ih' =>
    exact (ih distinct).trans (ih' ((hfirst.map _).nodup_iff.mp distinct))

/-- A change of an object whose reader looks at some keys only: another member comes or goes, the
order changes, an optional member that is missing is null, or a member has another value for the
same. -/
inductive Edit (keys : List Text) (optional : Text → Prop) (recast : Text → Json → Json → Prop) :
    Members Json → Members Json → Prop
  | free {before after : Members Json} {name : Text} {value : Json} (free : name ∉ keys) :
      Edit keys optional recast (before ++ after) (before ++ (name, value) :: after)
  | order {members others : Members Json} (same : members.Perm others)
      (distinct : (members.map Prod.fst).Nodup) : Edit keys optional recast members others
  | absent {before after : Members Json} {name : Text} (free : optional name)
      (absent : name ∉ (before ++ after).map Prod.fst) :
      Edit keys optional recast (before ++ after) (before ++ (name, .null) :: after)
  | recast {before after : Members Json} {name : Text} {v w : Json} (same : recast name v w) :
      Edit keys optional recast (before ++ (name, v) :: after) (before ++ (name, w) :: after)

/-- What is found under a key before and after a change. -/
inductive Alike (optional : Text → Prop) (recast : Text → Json → Json → Prop) (key : Text) :
    Option Json → Option Json → Prop
  | same (value : Option Json) : Alike optional recast key value value
  | absent (free : optional key) : Alike optional recast key none (some .null)
  | recast {v w : Json} (same : recast key v w) : Alike optional recast key (some v) (some w)

theorem Edit.alike {keys : List Text} {optional : Text → Prop}
    {recast : Text → Json → Json → Prop} {members others : Members Json}
    (h : Edit keys optional recast members others) (hkey : key ∈ keys) :
    Alike optional recast key (get? members key) (get? others key) := by
  cases h with
  | @free before after name value hfree =>
    have hne : name ≠ key := fun heq => hfree (heq ▸ hkey)
    rw [get?_insert hne]
    exact .same _
  | order hsame hdistinct =>
    rw [get?_perm hsame hdistinct]
    exact .same _
  | @absent before after name hfree habsent =>
    by_cases hname : name = key
    · subst hname
      have hnone := get?_eq_none habsent
      have hbefore : get? before name = none := by
        rw [get?_append, Option.or_eq_none_iff] at hnone
        exact hnone.1
      rw [hnone, get?_append, hbefore, get?_cons, if_pos rfl]
      exact .absent hfree
    · rw [get?_insert hname]
      exact .same _
  | @recast before after name v w hsame =>
    by_cases hname : name = key
    · subst hname
      rw [get?_append, get?_append, get?_cons, get?_cons, if_pos rfl, if_pos rfl]
      cases get? before name with
      | some u => exact .same _
      | none => exact .recast hsame
    · rw [get?_replace hname]
      exact .same _

/-- What comes of a value before a change and after it. -/
theorem Alike.congr {β : Type} {optional : Text → Prop} {recast : Text → Json → Json → Prop}
    {a b : Option Json} (h : Alike optional recast key a b) (f : Option Json → β)
    (absent : optional key → f none = f (some .null))
    (recasts : ∀ v w, recast key v w → f (some v) = f (some w)) : f a = f b := by
  cases h with
  | same => rfl
  | absent hfree => exact absent hfree
  | recast hsame => exact recasts _ _ hsame

end Members

namespace Script

variable {viewport : Viewport} {limits : Limits} {i : Nat} {p : Progress}

/-- The integer as a double. -/
theorem toInt?_real {x : Double} {n : Int} (h : x.value? = some (n : ℚ)) :
    (Number.real x).toInt? = (Number.int n).toInt? := by
  rw [Number.toInt?_eq_some_iff.mpr (show (Number.real x).value? = some (n : ℚ) from h)]
  rfl

def pointerKeys : List Text := ["action", "pointerId", "x", "y", "space", "emit"]

/-- The members of a pointer event that may be left out, with what they are then taken to be. -/
def standards : List (Text × Text) := [("space", "norm01"), ("emit", "both")]

/-- Values of a pointer event that stand for the same. -/
inductive PointerRecast : Text → Json → Json → Prop
  | standard {name t : Text} (standard : (name, t) ∈ standards) : PointerRecast name .null (.text t)
  | whole {n : Int} {x : Double} (same : x.value? = some (n : ℚ)) :
      PointerRecast "pointerId" (.number (.int n)) (.number (.real x))

abbrev PointerEdit : Members Json → Members Json → Prop :=
  Members.Edit pointerKeys (· ∈ standards.map Prod.fst) PointerRecast

def stepKeys : List Text := ["run", "input", "snap"]

/-- Values of a step that stand for the same. -/
inductive StepRecast : Text → Json → Json → Prop
  | whole {n : Int} {x : Double} (same : x.value? = some (n : ℚ)) :
      StepRecast "run" (.number (.int n)) (.number (.real x))
  | input {members others : Members Json} (same : PointerEdit members others) :
      StepRecast "input" (.object members) (.object others)
  | label {left t right : Text} (left_blank : ∀ c ∈ left, c.isBlank = true)
      (right_blank : ∀ c ∈ right, c.isBlank = true) :
      StepRecast "snap" (.text t) (.text (left ++ t ++ right))

abbrev StepEdit : Members Json → Members Json → Prop :=
  Members.Edit stepKeys (fun _ => False) StepRecast

/-- A change of one of the steps of a script. -/
inductive Edit : Json → Json → Prop
  | step {before after : Members Json} {xs ys : List Json} {members others : Members Json}
      (same : StepEdit members others) :
      Edit (.object (before ++ (("steps" : Text), .array (xs ++ .object members :: ys)) :: after))
        (.object (before ++ (("steps" : Text), .array (xs ++ .object others :: ys)) :: after))

theorem readInteger_whole {f : StepField} {x : Double} {n : Int} (h : x.value? = some (n : ℚ)) :
    readInteger i f (some (.number (.int n))) = readInteger i f (some (.number (.real x))) := by
  simp only [readInteger, toInt?_real h]

namespace PointerEdit

variable {members others : Members Json}

/-- A member without another form is the same as before. -/
theorem get?_eq (h : PointerEdit members others) (key : Text) (hkey : key ∈ pointerKeys)
    (hfixed : key ∉ standards.map Prod.fst ∧ key ≠ "pointerId") :
    members.get? key = others.get? key := by
  refine (h.alike hkey).congr id (fun hopt => absurd hopt hfixed.1) fun v w hrecast => ?_
  cases hrecast with
  | standard hmem => exact absurd (List.mem_map_of_mem hmem) hfixed.1
  | whole => exact absurd rfl hfixed.2

theorem readInteger_eq (h : PointerEdit members others) :
    readInteger i .pointerId (members.get? "pointerId") =
      readInteger i .pointerId (others.get? "pointerId") := by
  refine (h.alike (by decide)).congr _ (fun hopt => absurd hopt (by decide)) fun v w hrecast => ?_
  generalize hname : ("pointerId" : Text) = name at hrecast
  cases hrecast with
  | @standard _ t hmem =>
    have hstandard : ("pointerId" : Text) ∈ standards.map Prod.fst :=
      List.mem_map.mpr ⟨(name, t), hmem, hname.symm⟩
    exact absurd hstandard (by decide)
  | whole hsame => exact readInteger_whole hsame

theorem orDefault_eq (h : PointerEdit members others) (key t : Text) (hkey : key ∈ pointerKeys)
    (hfixed : key ≠ "pointerId") (ht : ∀ m ∈ standards, m.1 = key → m.2 = t) :
    orDefault (members.get? key) t = orDefault (others.get? key) t := by
  refine (h.alike hkey).congr (orDefault · t) (fun _ => rfl) fun v w hrecast => ?_
  cases hrecast with
  | standard hmem =>
    obtain rfl := ht _ hmem rfl
    rfl
  | whole => exact absurd rfl hfixed

end PointerEdit

/-- An event that is stated otherwise is read alike. -/
theorem readPointer_edit {members others : Members Json} (h : PointerEdit members others) :
    readPointer viewport i (.object members) = readPointer viewport i (.object others) := by
  have haction := h.get?_eq "action" (by decide) (by decide)
  have hx := h.get?_eq "x" (by decide) (by decide)
  have hy := h.get?_eq "y" (by decide) (by decide)
  have hspace := h.orDefault_eq "space" Space.norm01.text (by decide) (by decide) (by decide)
  have hemit := h.orDefault_eq "emit" Emit.both.text (by decide) (by decide) (by decide)
  simp only [readPointer, members?, haction, hx, hy, hspace, hemit, h.readInteger_eq]

theorem readSnap_label {left t right : Text} (hleft : ∀ c ∈ left, c.isBlank = true)
    (hright : ∀ c ∈ right, c.isBlank = true) :
    readSnap limits i p (.text (left ++ t ++ right)) = readSnap limits i p (.text t) := by
  simp only [readSnap, readLabel, Text.trim_append_append hleft hright]

/-- What is found under one of the kinds of a step, before a change and after it. -/
theorem StepEdit.rel {β : Type} {members others : Members Json}
    (h : StepEdit members others) (key : Text) (hkey : key ∈ stepKeys) (f : Json → β)
    (hrecast : ∀ v w, StepRecast key v w → f v = f w) :
    Option.Rel (fun v w => f v = f w) (members.get? key) (others.get? key) := by
  have halike := h.alike hkey
  generalize members.get? key = a, others.get? key = b at halike
  cases halike with
  | same value =>
    cases a with
    | none => exact .none
    | some v => exact .some rfl
  | absent hfree => exact hfree.elim
  | recast hsame => exact .some (hrecast _ _ hsame)

theorem readRun_recast {v w : Json} (h : StepRecast "run" v w) :
    readRun limits i p v = readRun limits i p w := by
  generalize hname : ("run" : Text) = name at h
  cases h with
  | whole hsame => simp only [readRun, readInteger_whole hsame]
  | input => exact absurd hname (by decide)
  | label => exact absurd hname (by decide)

theorem readInput_recast {v w : Json} (h : StepRecast "input" v w) :
    readInput viewport i p v = readInput viewport i p w := by
  generalize hname : ("input" : Text) = name at h
  cases h with
  | whole => exact absurd hname (by decide)
  | input hsame => simp only [readInput, readPointer_edit hsame]
  | label => exact absurd hname (by decide)

theorem readSnap_recast {v w : Json} (h : StepRecast "snap" v w) :
    readSnap limits i p v = readSnap limits i p w := by
  generalize hname : ("snap" : Text) = name at h
  cases h with
  | whole => exact absurd hname (by decide)
  | input => exact absurd hname (by decide)
  | label hleft hright => exact (readSnap_label hleft hright).symm

theorem readStep_edit {members others : Members Json} (h : StepEdit members others) :
    readStep viewport limits i p (.object members) =
      readStep viewport limits i p (.object others) := by
  have hrun := h.rel "run" (by decide) (readRun limits i p) fun _ _ => readRun_recast
  have hinput := h.rel "input" (by decide) (readInput viewport i p) fun _ _ => readInput_recast
  have hsnap := h.rel "snap" (by decide) (readSnap limits i p) fun _ _ => readSnap_recast
  unfold readStep members?
  dsimp only
  generalize members.get? "run" = run, others.get? "run" = run' at hrun
  generalize members.get? "input" = input, others.get? "input" = input' at hinput
  generalize members.get? "snap" = snap, others.get? "snap" = snap' at hsnap
  cases hrun with
  | none =>
    cases hinput with
    | none =>
      cases hsnap with
      | none => rfl
      | some hsame => exact hsame
    | some hsame =>
      cases hsnap with
      | none => exact hsame
      | some => rfl
  | some hsame =>
    cases hinput with
    | none =>
      cases hsnap with
      | none => exact hsame
      | some => rfl
    | some => rfl

/-- Steps before the changed one lead to the same totals, and from it the same ones come. -/
theorem readSteps_edit {xs ys : List Json} {members others : Members Json}
    (h : StepEdit members others) :
    readSteps viewport limits i p (xs ++ .object members :: ys) =
      readSteps viewport limits i p (xs ++ .object others :: ys) := by
  rw [readSteps_append, readSteps_append]
  simp only [readSteps, readStep_edit h]

theorem read_edit {v w : Json} (h : Edit v w) :
    read viewport limits v = read viewport limits w := by
  obtain @⟨before, after, xs, ys, members, others, hsame⟩ := h
  have hfind (items : List Json) :
      (before ++ (("steps" : Text), Json.array items) :: after).find?
          (fun m => m.1 != ("steps" : Text)) =
        (before ++ after).find? fun m => m.1 != ("steps" : Text) := by
    rw [List.find?_append, List.find?_append, List.find?_cons_of_neg (by simp)]
  have hget (items : List Json) :
      Members.get? (before ++ (("steps" : Text), Json.array items) :: after) "steps" =
        (before.get? "steps").or (some (.array items)) := by
    rw [Members.get?_append, Members.get?_cons, if_pos rfl]
  have hempty (value : Json) : (xs ++ value :: ys).isEmpty = false := by simp
  simp only [read, members?, hfind, hget]
  cases before.get? "steps" with
  | some value => rfl
  | none =>
    simp only [Option.none_or, readSteps_edit hsame, hempty, List.length_append, List.length_cons]

/-- Scripts that differ by any number of such changes, made or undone, are read alike, or they are
refused for the same. -/
theorem read_edits {v w : Json} (h : Relation.EqvGen Edit v w) :
    read viewport limits v = read viewport limits w := by
  induction h with
  | rel v w hedit => exact read_edit hedit
  | refl v => rfl
  | symm v w _ ih => exact ih.symm
  | trans v w u _ _ ih ih' => exact ih.trans ih'

/-- Three frames too many, also with a note, a double and a null in the steps before. -/
theorem read_edits_of_frameLimit :
    let event : Members Json :=
      [("action", .text "up"), ("pointerId", .int 1), ("x", .int 0), ("y", .int 0)]
    let nothing : Members Json := [("emit", .null)]
    let hundred : Double := .ofDecimal false 100 0
    let v := ofValues [.object [("run", .int 100)], .object [("input", .object event)],
      .object [("run", .int 23)]]
    let w := ofValues [.object [("note", .null), ("run", .number (.real hundred))],
      .object [("input", .object (event ++ nothing))], .object [("run", .int 23)]]
    Relation.EqvGen Edit v w ∧
      read .standard .standard w = .error (.invalid (.frameLimit 2 120 123)) := by
  intro event nothing hundred v w
  have hvalue (x : Double) (h : (Number.real x).toInt? = some 100) :
      x.value? = some ((100 : Int) : ℚ) := Number.toInt?_eq_some_iff.mp h
  have hwhole := hvalue hundred (by decide +kernel)
  have hnote : Edit v (ofValues [.object [("note", .null), ("run", .int 100)],
      .object [("input", .object event)], .object [("run", .int 23)]]) :=
    @Edit.step [] [] [] _ _ _ (@Members.Edit.free _ _ _ [] _ _ _ (by decide))
  have hrun : Edit (ofValues [.object [("note", .null), ("run", .int 100)],
      .object [("input", .object event)], .object [("run", .int 23)]])
      (ofValues [.object [("note", .null), ("run", .number (.real hundred))],
        .object [("input", .object event)], .object [("run", .int 23)]]) :=
    @Edit.step [] [] [] _ _ _ (@Members.Edit.recast _ _ _ [_] [] _ _ _ (.whole hwhole))
  have hevent : PointerEdit event (event ++ nothing) :=
    @Members.Edit.absent _ _ _ event [] "emit" (by decide) (by decide)
  have hemit : StepEdit [("input", .object event)] [("input", .object (event ++ nothing))] :=
    @Members.Edit.recast _ _ _ [] [] _ _ _ (.input hevent)
  have hinput : Edit (ofValues [.object [("note", .null), ("run", .number (.real hundred))],
      .object [("input", .object event)], .object [("run", .int 23)]]) w :=
    @Edit.step [] [] [_] _ _ _ hemit
  have hedits : Relation.EqvGen Edit v w :=
    .trans _ _ _ (.rel _ _ hnote) (.trans _ _ _ (.rel _ _ hrun) (.rel _ _ hinput))
  refine ⟨hedits, ?_⟩
  rw [← read_edits hedits]
  decide +kernel

end Script

end Replay
