import Mathlib.Data.List.Forall2
import Mathlib.Tactic.Linarith
import Replay.Limiter
import Replay.Proofs.NumberValue
import Replay.Proofs.StepReading

namespace Replay

namespace Limiter

/-- What a limiter is asked, with the reading of its clock; the numbers are of type `α`. -/
inductive Operation (α : Type) where
  | allow (now : α) (caller : Text) (limit window : α)
  | retryAfter (now : α) (caller : Text) (window : α)
  | reset

namespace Operation

def reading? {α : Type} : Operation α → Option α
  | allow now _ _ _ => some now
  | retryAfter now _ _ => some now
  | reset => none

/-- Whether a request for admission is for the window of its caller. -/
def Keeps {α : Type} (windows : Text → α) : Operation α → Prop
  | allow _ caller _ window => window = windows caller
  | retryAfter _ _ _ => True
  | reset => True

/-- The exact numbers that an operation is about. -/
inductive HasValues : Operation Number → Operation ℚ → Prop
  | allow {now limit window : Number} {q m w : ℚ} (caller : Text) (hnow : now.value? = some q)
      (hlimit : limit.value? = some m) (hwindow : window.value? = some w) :
      HasValues (.allow now caller limit window) (.allow q caller m w)
  | retryAfter {now window : Number} {q w : ℚ} (caller : Text) (hnow : now.value? = some q)
      (hwindow : window.value? = some w) :
      HasValues (.retryAfter now caller window) (.retryAfter q caller w)
  | reset : HasValues .reset .reset

end Operation

/-- The limiter after an operation. -/
def after (l : Limiter) : Operation Number → Limiter
  | .allow now caller limit window => (l.allow now caller limit window).2
  | .retryAfter _ _ _ => l
  | .reset => l.reset

/-- The limiter after operations one after the other. -/
def run (l : Limiter) (ops : List (Operation Number)) : Limiter := ops.foldl after l

/-- The answers to the requests for admission among the operations. -/
def verdicts (l : Limiter) : List (Operation Number) → List (Except NumberError Bool)
  | [] => []
  | .allow now caller limit window :: rest =>
    (l.allow now caller limit window).1 :: verdicts (l.after (.allow now caller limit window)) rest
  | .retryAfter _ _ _ :: rest => verdicts l rest
  | .reset :: rest => verdicts l.reset rest

/-- For each caller the times of all admissions since the last reset. -/
abbrev History := Text → List ℚ

namespace History

def empty : History := fun _ => []

/-- Whether fewer admissions of the caller than the limit are younger than the window. -/
def Allows (h : History) (now : ℚ) (caller : Text) (limit window : ℚ) : Prop :=
  ((h caller).countP fun t => now - t < window : ℚ) < limit

instance (h : History) (now : ℚ) (caller : Text) (limit window : ℚ) :
    Decidable (h.Allows now caller limit window) :=
  inferInstanceAs (Decidable (_ < limit))

def put (h : History) (now : ℚ) (caller : Text) : History := fun other =>
  if other = caller then h other ++ [now] else h other

def after (h : History) : Operation ℚ → History
  | .allow now caller limit window =>
    if h.Allows now caller limit window then h.put now caller else h
  | .retryAfter _ _ _ => h
  | .reset => empty

def run (h : History) (ops : List (Operation ℚ)) : History := ops.foldl after h

def verdicts (h : History) : List (Operation ℚ) → List Bool
  | [] => []
  | .allow now caller limit window :: rest =>
    decide (h.Allows now caller limit window) ::
      verdicts (h.after (.allow now caller limit window)) rest
  | .retryAfter _ _ _ :: rest => verdicts h rest
  | .reset :: rest => verdicts empty rest

end History

/-- The later of two readings is no smaller, and their difference is exact. -/
def ExactlyAfter (earlier later : Number) : Prop :=
  ∃ p q d, earlier.value? = some p ∧ later.value? = some q ∧ p ≤ q ∧
    later.sub earlier = .ok d ∧ d.value? = some (q - p)

theorem exactlyAfter_int {a b : Int} (h : a ≤ b) : ExactlyAfter (.int a) (.int b) :=
  ⟨a, b, .int (b - a), rfl, rfl, by exact_mod_cast h, rfl, by simp⟩

/-- Numbers with their values. -/
def Valued (times : List Number) (values : List ℚ) : Prop :=
  List.Forall₂ (fun (n : Number) q => n.value? = some q) times values

section

variable {now window time : Number} {q w t : ℚ} {times : List Number} {values : List ℚ}

theorem isPast_of_sub {age : Number} {v : ℚ} (hwindow : window.value? = some w)
    (hsub : now.sub time = .ok age) (hage : age.value? = some v) :
    isPast now window time = .ok (decide (w ≤ v)) := by
  have hle : window.le age = decide (w ≤ v) := by
    rw [Bool.eq_iff_iff, Number.le_iff hwindow hage, decide_eq_true_iff]
  rw [isPast, hsub, ← hle]
  rfl

theorem isPast_of_exactlyAfter (hnow : now.value? = some q) (hwindow : window.value? = some w)
    (htime : time.value? = some t) (h : ExactlyAfter time now) :
    isPast now window time = .ok (decide (w ≤ q - t)) := by
  obtain ⟨p, r, d, hp, hr, -, hd, hv⟩ := h
  obtain rfl : t = p := Option.some.inj (htime.symm.trans hp)
  obtain rfl : q = r := Option.some.inj (hnow.symm.trans hr)
  exact isPast_of_sub hwindow hd hv

/-- Of sorted times those that still count are kept, although only the first ones are looked at. -/
theorem evict_of_sorted (hnow : now.value? = some q) (hwindow : window.value? = some w)
    (hvalues : Valued times values) (hsorted : values.Pairwise (· ≤ ·))
    (hexact : ∀ n ∈ times, ExactlyAfter n now) :
    ∃ kept, evict now window times = (.ok (), kept) ∧ kept ⊆ times ∧
      Valued kept (values.filter fun t => q - t < w) := by
  induction hvalues with
  | nil => exact ⟨[], rfl, by simp, .nil⟩
  | @cons time t times values htime hrest ih =>
    obtain ⟨hfirst, hsorted⟩ := List.pairwise_cons.mp hsorted
    have hpast := isPast_of_exactlyAfter hnow hwindow htime (hexact time List.mem_cons_self)
    by_cases h : w ≤ q - t
    · obtain ⟨kept, hkept, hsub, hv⟩ := ih hsorted fun n hn => hexact n (List.mem_cons_of_mem _ hn)
      refine ⟨kept, ?_, fun n hn => List.mem_cons_of_mem _ (hsub hn), ?_⟩
      · rw [evict, hpast, decide_eq_true h]
        exact hkept
      · rwa [List.filter_cons_of_neg (by simpa using h)]
    · refine ⟨time :: times, ?_, List.Subset.refl _, ?_⟩
      · rw [evict, hpast, decide_eq_false h]
      · -- The values are sorted, so after the first one that counts all count.
        have hall : ∀ u ∈ t :: values, (decide (q - u < w)) = true := by
          intro u hu
          have htu : t ≤ u := by
            rcases List.mem_cons.mp hu with rfl | hu
            · exact le_rfl
            · exact hfirst u hu
          exact decide_eq_true (by linarith)
        rw [List.filter_eq_self.mpr hall]
        exact .cons htime hrest

end

/-- The times that are kept of a caller tell at all readings to come how many of its admissions
count. -/
structure Counts (w : ℚ) (future times : List Number) (history values : List ℚ) : Prop where
  valued : Valued times values
  sorted : values.Pairwise (· ≤ ·)
  exact : ∀ n ∈ times, ∀ now ∈ future, ExactlyAfter n now
  counting : ∀ now ∈ future, ∀ q, now.value? = some q →
    (values.filter fun t => q - t < w) = history.filter fun t => q - t < w

namespace Counts

variable {w q : ℚ} {now window : Number} {future times : List Number} {history values : List ℚ}

theorem nil (w : ℚ) (future : List Number) : Counts w future [] [] [] :=
  ⟨.nil, .nil, by simp, by simp⟩

theorem of_subset {sooner : List Number} (h : Counts w sooner times history values)
    (hsub : future ⊆ sooner) : Counts w future times history values :=
  ⟨h.valued, h.sorted, fun n hn now hnow => h.exact n hn now (hsub hnow),
    fun now hnow => h.counting now (hsub hnow)⟩

theorem le_now (h : Counts w (now :: future) times history values) (hnow : now.value? = some q) :
    ∀ t ∈ values, t ≤ q := by
  intro t ht
  obtain ⟨n, hn, hv⟩ := exists_of_mem_right h.valued ht
  obtain ⟨p, r, -, hp, hr, hle, -⟩ := h.exact n hn now List.mem_cons_self
  obtain rfl : t = p := Option.some.inj (hv.symm.trans hp)
  obtain rfl : q = r := Option.some.inj (hnow.symm.trans hr)
  exact hle

/-- What no longer counts at one reading counts at no later one. -/
theorem evict (h : Counts w (now :: future) times history values) (hnow : now.value? = some q)
    (hwindow : window.value? = some w) (hlater : ∀ later ∈ future, ExactlyAfter now later) :
    ∃ kept, Limiter.evict now window times = (.ok (), kept) ∧
      Counts w (now :: future) kept history (history.filter fun t => q - t < w) := by
  obtain ⟨kept, hkept, hsub, hvalued⟩ := evict_of_sorted hnow hwindow h.valued h.sorted
    fun n hn => h.exact n hn now List.mem_cons_self
  have hcount := h.counting now List.mem_cons_self q hnow
  refine ⟨kept, hkept, hcount ▸ hvalued, hcount ▸ h.sorted.filter _, ?_, ?_⟩
  · exact fun n hn => h.exact n (hsub hn)
  · intro later hmem r hr
    have hle : q ≤ r := by
      rcases List.mem_cons.mp hmem with rfl | hmem
      · exact (Option.some.inj (hnow.symm.trans hr)).le
      · obtain ⟨p, u, -, hp, hu, hle, -⟩ := hlater later hmem
        obtain rfl : q = p := Option.some.inj (hnow.symm.trans hp)
        obtain rfl : r = u := Option.some.inj (hr.symm.trans hu)
        exact hle
    rw [List.filter_filter]
    apply List.filter_congr
    intro t _
    rw [Bool.eq_iff_iff, Bool.and_eq_true, decide_eq_true_iff, decide_eq_true_iff]
    constructor
    · exact fun ht => ht.1
    · intro ht
      exact ⟨ht, by linarith⟩

theorem concat (h : Counts w (now :: future) times history values) (hnow : now.value? = some q)
    (hlater : ∀ later ∈ future, ExactlyAfter now later) :
    Counts w future (times ++ [now]) (history ++ [q]) (values ++ [q]) := by
  refine ⟨List.rel_append h.valued (.cons hnow .nil), ?_, ?_, ?_⟩
  · rw [List.pairwise_append]
    refine ⟨h.sorted, List.pairwise_singleton _ _, ?_⟩
    intro t ht u hu
    obtain rfl := List.mem_singleton.mp hu
    exact h.le_now hnow t ht
  · intro n hn later hmem
    rcases List.mem_append.mp hn with hn | hn
    · exact h.exact n hn later (List.mem_cons_of_mem _ hmem)
    · obtain rfl := List.mem_singleton.mp hn
      exact hlater later hmem
  · intro later hmem r hr
    rw [List.filter_append, List.filter_append,
      h.counting later (List.mem_cons_of_mem _ hmem) r hr]

end Counts

theorem times_put (l : Limiter) (caller other : Text) (times : List Number) :
    (⟨l.windows.put caller times⟩ : Limiter).times other =
      if other = caller then times else l.times other := by
  rw [Limiter.times, Members.get?_put]
  split <;> rfl

/-- What is kept of every caller tells how many of its admissions count. -/
def Tracks (windows : Text → ℚ) (future : List Number) (l : Limiter) (h : History) : Prop :=
  ∀ caller, ∃ values, Counts (windows caller) future (l.times caller) (h caller) values

section

variable {windows : Text → ℚ} {now limit window : Number} {q m : ℚ} {future : List Number}
  {l : Limiter} {h : History} {caller : Text}

theorem tracks_empty (windows : Text → ℚ) (future : List Number) :
    Tracks windows future empty .empty := fun _ => ⟨[], .nil _ _⟩

/-- If the times of one caller change, those of the others must still count. -/
theorem Tracks.put {times : List Number} {history values : List ℚ}
    (ht : Tracks windows (now :: future) l h)
    (hc : Counts (windows caller) future times history values) :
    Tracks windows future ⟨l.windows.put caller times⟩
      fun other => if other = caller then history else h other := by
  intro other
  simp only [times_put]
  by_cases ho : other = caller
  · subst ho
    exact ⟨values, by simpa using hc⟩
  · obtain ⟨values, hv⟩ := ht other
    exact ⟨values, by simpa [ho] using hv.of_subset (List.subset_cons_self _ _)⟩

/-- A request for admission is answered by the admissions that count, and exactly those are kept,
with its own if it is admitted. -/
theorem allow_of_tracks (ht : Tracks windows (now :: future) l h) (hnow : now.value? = some q)
    (hlimit : limit.value? = some m) (hwindow : window.value? = some (windows caller))
    (hlater : ∀ later ∈ future, ExactlyAfter now later) :
    (l.allow now caller limit window).1 = .ok (decide (h.Allows q caller m (windows caller))) ∧
      Tracks windows future (l.allow now caller limit window).2
        (h.after (.allow q caller m (windows caller))) ∧
      (0 < windows caller → Valued ((l.allow now caller limit window).2.times caller)
        ((h.after (.allow q caller m (windows caller)) caller).filter
          fun t => q - t < windows caller)) := by
  obtain ⟨values, hcounts⟩ := ht caller
  obtain ⟨kept, hkept, hc⟩ := hcounts.evict hnow hwindow hlater
  have hlength : kept.length = (h caller).countP fun t => q - t < windows caller := by
    rw [hc.valued.length_eq, List.countP_eq_length_filter]
  have hle : limit.le (.int kept.length) =
      decide (¬ h.Allows q caller m (windows caller)) := by
    rw [Bool.eq_iff_iff, Number.le_iff hlimit (Number.value?_int _), decide_eq_true_iff,
      History.Allows, not_lt, hlength, Int.cast_natCast]
  by_cases ha : h.Allows q caller m (windows caller)
  · have hallow : l.allow now caller limit window =
        (.ok true, ⟨l.windows.put caller (kept ++ [now])⟩) := by
      rw [allow, hkept]
      simp [hle, ha]
    have hput : h.after (.allow q caller m (windows caller)) =
        fun other => if other = caller then h caller ++ [q] else h other := by
      funext other
      rw [History.after, if_pos ha, History.put]
      by_cases ho : other = caller <;> simp [ho]
    rw [hallow, hput]
    refine ⟨by simp [ha], ht.put (hc.concat hnow hlater), fun hpos => ?_⟩
    simp only [times_put, ↓reduceIte, List.filter_append]
    refine List.rel_append hc.valued ?_
    rw [List.filter_cons_of_pos (by simpa using hpos)]
    exact .cons hnow .nil
  · have hallow : l.allow now caller limit window =
        (.ok false, ⟨l.windows.put caller kept⟩) := by
      rw [allow, hkept]
      simp [hle, ha]
    have hsame : h.after (.allow q caller m (windows caller)) =
        fun other => if other = caller then h caller else h other := by
      funext other
      rw [History.after, if_neg ha]
      by_cases ho : other = caller <;> simp [ho]
    rw [hallow, hsame]
    refine ⟨by simp [ha], ht.put (hc.of_subset (List.subset_cons_self _ _)), fun _ => ?_⟩
    simp only [times_put, ↓reduceIte]
    exact hc.valued

/-- Operations one after the other are answered alike, and leave the limiter to tell the same at
the readings after them. -/
theorem run_tracks {ops : List (Operation Number)} {exact : List (Operation ℚ)}
    (hvalues : List.Forall₂ Operation.HasValues ops exact)
    (hclock : (ops.filterMap Operation.reading? ++ future).Pairwise ExactlyAfter)
    (hkeeps : ∀ op ∈ exact, op.Keeps windows)
    (ht : Tracks windows (ops.filterMap Operation.reading? ++ future) l h) :
    verdicts l ops = (History.verdicts h exact).map .ok ∧
      Tracks windows future (l.run ops) (h.run exact) := by
  induction hvalues generalizing l h with
  | nil => exact ⟨rfl, ht⟩
  | @cons op op' ops exact hop _ ih =>
    have hkeep := hkeeps op' List.mem_cons_self
    replace hkeeps : ∀ op ∈ exact, op.Keeps windows :=
      fun op hmem => hkeeps op (List.mem_cons_of_mem _ hmem)
    cases hop with
    | @allow now limit window q m w caller hnow hlimit hwindow =>
      obtain rfl : w = windows caller := hkeep
      obtain ⟨hlater, hclock⟩ := List.pairwise_cons.mp hclock
      obtain ⟨hverdict, htracks, -⟩ := allow_of_tracks ht hnow hlimit hwindow hlater
      obtain ⟨hrest, hrun⟩ := ih hclock hkeeps htracks
      refine ⟨?_, hrun⟩
      rw [verdicts, History.verdicts, List.map_cons, hverdict]
      exact congrArg _ hrest
    | @retryAfter now window q w caller hnow hwindow =>
      refine ih (List.pairwise_cons.mp hclock).2 hkeeps fun other => ?_
      obtain ⟨values, hcounts⟩ := ht other
      exact ⟨values, hcounts.of_subset (List.subset_cons_self _ _)⟩
    | reset => exact ih hclock hkeeps (tracks_empty _ _)

end

/-- A request for admission is granted exactly if fewer earlier admissions of its caller than the
limit, among all since the last reset, are younger than the window; and those, with its own if it
is granted, are what is kept of the caller afterwards. -/
theorem verdicts_eq_history {windows : Text → ℚ} {ops : List (Operation Number)}
    {exact : List (Operation ℚ)} (hwindows : ∀ caller, 0 < windows caller)
    (hvalues : List.Forall₂ Operation.HasValues ops exact)
    (hclock : (ops.filterMap Operation.reading?).Pairwise ExactlyAfter)
    (hkeeps : ∀ op ∈ exact, op.Keeps windows) :
    verdicts empty ops = (History.verdicts .empty exact).map .ok ∧
      ∀ now caller limit, exact.getLast? = some (.allow now caller limit (windows caller)) →
        Valued ((empty.run ops).times caller)
          ((History.empty.run exact caller).filter fun t => now - t < windows caller) := by
  constructor
  · have hall : (ops.filterMap Operation.reading? ++ []).Pairwise ExactlyAfter := by
      rwa [List.append_nil]
    exact (run_tracks hvalues hall hkeeps (tracks_empty _ _)).1
  · intro now caller limit hlast
    obtain ⟨before, rfl⟩ := List.getLast?_eq_some_iff.mp hlast
    have hdone := List.forall₂_take_append _ _ _ hvalues
    have hlast := List.forall₂_drop_append _ _ _ hvalues
    rw [← List.take_append_drop before.length ops] at hclock ⊢
    generalize ops.take before.length = done at hdone hclock ⊢
    generalize ops.drop before.length = tail at hlast hclock ⊢
    obtain ⟨op, _, hop, hnil, rfl⟩ := List.forall₂_cons_right_iff.mp hlast
    obtain rfl := List.forall₂_nil_right_iff.mp hnil
    cases hop with
    | @allow reading limit' window _ _ _ _ hnow hlimit hwindow =>
      rw [List.filterMap_append] at hclock
      obtain ⟨-, htracks⟩ := run_tracks hdone hclock
        (fun op hmem => hkeeps op (List.mem_append_left _ hmem)) (tracks_empty _ _)
      have hkept := (allow_of_tracks htracks hnow hlimit hwindow (by simp)).2.2 (hwindows caller)
      rw [run, History.run, List.foldl_append, List.foldl_append]
      exact hkept

/-- An admission stops counting when it is exactly as old as the window. -/
theorem verdicts_at_edge_of_window :
    let a : Text := "a"
    let b : Text := "b"
    let ops : List (Operation Number) :=
      [.allow (.int 0) a (.int 1) (.int 10), .reset, .allow (.int 0) a (.int 2) (.int 10),
        .allow (.int 4) a (.int 2) (.int 10), .allow (.int 5) b (.int 1) (.int 3),
        .allow (.int 9) a (.int 2) (.int 10), .retryAfter (.int 9) a (.int 10),
        .allow (.int 10) a (.int 2) (.int 10)]
    verdicts empty ops = [.ok true, .ok true, .ok true, .ok true, .ok false, .ok true] ∧
      Valued ((empty.run ops).times a) [4, 10] := by
  intro a b ops
  let windows : Text → ℚ := fun caller => if caller = a then 10 else 3
  let exact : List (Operation ℚ) :=
    [.allow 0 a 1 10, .reset, .allow 0 a 2 10, .allow 4 a 2 10, .allow 5 b 1 3, .allow 9 a 2 10,
      .retryAfter 9 a 10, .allow 10 a 2 10]
  have hpos : ∀ caller, 0 < windows caller := by
    intro caller
    by_cases h : caller = a <;> norm_num [windows, h]
  have hvalues : List.Forall₂ Operation.HasValues ops exact := by
    repeat' constructor
  have hclock : (ops.filterMap Operation.reading?).Pairwise ExactlyAfter := by
    have hint : ([0, 0, 4, 5, 9, 9, 10].map Number.int).Pairwise ExactlyAfter := by
      rw [List.pairwise_map]
      exact List.Pairwise.imp exactlyAfter_int (by decide)
    exact hint
  have hkeeps : ∀ op ∈ exact, op.Keeps windows := by
    have hb : b ≠ a := by decide
    simp [exact, Operation.Keeps, windows, hb]
  obtain ⟨hverdicts, hkept⟩ := verdicts_eq_history hpos hvalues hclock hkeeps
  refine ⟨hverdicts.trans ?_, ?_⟩
  · decide +kernel
  · have h := hkept 10 a 2 rfl
    have hcount : ((History.empty.run exact a).filter fun t => 10 - t < windows a) = [4, 10] := by
      decide +kernel
    rwa [hcount] at h

end Limiter

end Replay
