import Replay.Proofs.LimiterHistory
import Replay.Proofs.Rounding

namespace Replay

/-- Whether the number is in the half-open interval of the length that begins at the start. -/
def Number.isWithin (start length : ℚ) (n : Number) : Bool :=
  n.value?.any fun q => start ≤ q && q < start + length

theorem Number.isWithin_iff {start length : ℚ} {n : Number} :
    n.isWithin start length = true ↔ ∃ q, n.value? = some q ∧ start ≤ q ∧ q < start + length := by
  rw [isWithin]
  cases n.value? with
  | none => simp
  | some q => simp

/-- The second number is larger than the first by the age at least. -/
def Number.Precedes (age : ℚ) (earlier later : Number) : Prop :=
  ∃ p q, earlier.value? = some p ∧ later.value? = some q ∧ p + age ≤ q

theorem Number.Precedes.trans {age : ℚ} {l m n : Number} (h : Precedes age l m)
    (h' : Precedes age m n) (hage : 0 ≤ age) : Precedes age l n := by
  obtain ⟨p, q, hp, hq, hle⟩ := h
  obtain ⟨q', r, hq', hr, hle'⟩ := h'
  obtain rfl : q = q' := Option.some.inj (hq.symm.trans hq')
  exact ⟨p, r, hp, hr, by linarith⟩

theorem Number.Precedes.isWithin {length start : ℚ} {m n : Number} (h : Precedes length m n)
    (hwithin : n.isWithin start length = true) : ¬ m.isWithin start length = true := by
  intro hin
  obtain ⟨p, q, hp, hq, hle⟩ := h
  obtain ⟨q', hq', -, hlt⟩ := isWithin_iff.mp hwithin
  obtain ⟨p', hp', hstart, -⟩ := isWithin_iff.mp hin
  obtain rfl : p = p' := Option.some.inj (hp.symm.trans hp')
  obtain rfl : q = q' := Option.some.inj (hq.symm.trans hq')
  linarith

namespace Limiter

/-- A request for admission. -/
structure Demand where
  now : Number
  caller : Text
  limit : Number
  window : Number

def ask (l : Limiter) (d : Demand) : Except NumberError Bool × Limiter :=
  l.allow d.now d.caller d.limit d.window

def isAdmitted (l : Limiter) (d : Demand) : Bool := (l.ask d).1.toOption = some true

/-- The limiter after requests one after the other. -/
def serve (l : Limiter) (demands : List Demand) : Limiter :=
  demands.foldl (fun l d => (l.ask d).2) l

/-- The readings at which a caller is admitted. -/
def admissions (caller : Text) (l : Limiter) : List Demand → List Number
  | [] => []
  | d :: rest =>
    (if d.caller = caller ∧ l.isAdmitted d = true then [d.now] else [])
      ++ admissions caller (l.ask d).2 rest

variable {window now : Number} {age : ℚ} {l l' : Limiter} {d : Demand} {caller : Text}

theorem evict_eq (now window : Number) (times : List Number) :
    ∃ past, times = past ++ (evict now window times).2 ∧
      ∀ t ∈ past, isPast now window t = .ok true := by
  induction times with
  | nil => exact ⟨[], rfl, by simp⟩
  | cons time rest ih =>
    rw [evict]
    cases h : isPast now window time with
    | error e => exact ⟨[], rfl, by simp⟩
    | ok past =>
      cases past with
      | false => exact ⟨[], rfl, by simp⟩
      | true =>
        obtain ⟨past, hsplit, hpast⟩ := ih
        refine ⟨time :: past, congrArg (time :: ·) hsplit, fun t ht => ?_⟩
        rcases List.mem_cons.mp ht with rfl | ht
        · exact h
        · exact hpast t ht

/-- What a request does to the times of its caller: those that have passed are dropped from the
front, and the reading is added if there is room for it. -/
theorem times_ask (l : Limiter) (d : Demand) :
    ∃ past kept, l.times d.caller = past ++ kept ∧
      (∀ t ∈ past, isPast d.now d.window t = .ok true) ∧
      (l.ask d).2.times d.caller = kept ++ (if l.isAdmitted d = true then [d.now] else []) ∧
      (l.isAdmitted d = true → d.limit.le (.int kept.length) = false) := by
  obtain ⟨past, hsplit, hpast⟩ := evict_eq d.now d.window (l.times d.caller)
  refine ⟨past, _, hsplit, hpast, ?_⟩
  rw [isAdmitted, ask, allow]
  rcases evict d.now d.window (l.times d.caller) with ⟨e | _, kept⟩
  · simp [times_put, Except.toOption]
  · cases hfull : d.limit.le (.int kept.length) <;> simp [times_put, hfull, Except.toOption]

theorem times_ask_of_ne {other : Text} (h : other ≠ d.caller) :
    (l.ask d).2.times other = l.times other := by
  rw [ask, allow]
  rcases evict d.now d.window (l.times d.caller) with ⟨e | _, kept⟩
  · simp [times_put, h]
  · cases hfull : d.limit.le (.int kept.length) <;> simp [times_put, h, hfull]

/-- A request is answered by the times of its caller alone. -/
theorem ask_congr (h : l.times d.caller = l'.times d.caller) :
    (l.ask d).1 = (l'.ask d).1 ∧
      (l.ask d).2.times d.caller = (l'.ask d).2.times d.caller := by
  rw [ask, ask, allow, allow, h]
  rcases evict d.now d.window (l'.times d.caller) with ⟨e | _, kept⟩
  · simp [times_put]
  · cases hfull : d.limit.le (.int kept.length) <;> simp [times_put, hfull]

theorem isAdmitted_congr (h : l.times d.caller = l'.times d.caller) :
    l.isAdmitted d = l'.isAdmitted d := by
  rw [isAdmitted, isAdmitted, (ask_congr h).1]

/-- Requests of other callers leave the times of a caller as they would be without them. -/
theorem times_serve_filter (demands : List Demand) (h : l.times caller = l'.times caller) :
    (l.serve demands).times caller =
      (l'.serve (demands.filter fun d => d.caller = caller)).times caller := by
  induction demands generalizing l l' with
  | nil => exact h
  | cons d rest ih =>
    by_cases hd : d.caller = caller
    · rw [List.filter_cons_of_pos (by simpa using hd)]
      exact ih (hd ▸ (ask_congr (hd ▸ h)).2)
    · rw [List.filter_cons_of_neg (by simpa using hd)]
      exact ih ((times_ask_of_ne (Ne.symm hd)).trans h)

/-- The later of two readings is no smaller, and if the earlier one has then passed, it is at least
of the age. -/
def Ages (window : Number) (age : ℚ) (earlier later : Number) : Prop :=
  ∃ p q, earlier.value? = some p ∧ later.value? = some q ∧ p ≤ q ∧
    (isPast later window earlier = .ok true → p + age ≤ q)

theorem ages_of_exactlyAfter {window earlier later : Number} {w : ℚ}
    (hw : window.value? = some w) (h : ExactlyAfter earlier later) :
    Ages window w earlier later := by
  obtain ⟨p, q, -, hp, hq, hle, -⟩ := id h
  refine ⟨p, q, hp, hq, hle, fun hpast => ?_⟩
  rw [isPast_of_exactlyAfter hq hw hp h, Except.ok.injEq, decide_eq_true_iff] at hpast
  linarith

/-- Ages are rounded, and then a time that is this old may already be taken to be as old as the
window. -/
def leastAge (w : ℚ) : ℚ := w * 2 ^ 53 / (2 ^ 53 + 1)

theorem leastAge_le {n d k : Nat} (hk : 0 < k) (h : 2 ^ 53 * (n * k) ≤ (2 ^ 53 + 1) * d) :
    leastAge n ≤ (d : ℚ) / k := by
  have hcast : ((2 ^ 53 * (n * k) : Nat) : ℚ) ≤ ((2 ^ 53 + 1) * d : Nat) := Nat.cast_le.mpr h
  have hpos : (0 : ℚ) < k := Nat.cast_pos.mpr hk
  push_cast at hcast
  rw [leastAge, div_le_div_iff₀ (by norm_num) hpos]
  linarith

theorem ages_of_doubles {x y : Double} {p q : ℚ} {n : Nat} (hn : n ≤ 2 ^ 1024)
    (hx : x.value? = some p) (hy : y.value? = some q) (hle : p ≤ q) :
    Ages (.int n) (leastAge n) (.real x) (.real y) := by
  refine ⟨p, q, hx, hy, hle, fun hpast => ?_⟩
  have hle : (Number.int n).le (.real (y.sub x)) = true := Except.ok.inj hpast
  obtain ⟨d, hd, hsub⟩ := Double.sub_of_le hx hy ‹p ≤ q›
  suffices h : 2 ^ 53 * (n * Double.one) ≤ (2 ^ 53 + 1) * d by
    have hage := leastAge_le Double.units_pos h
    linarith
  have hwindow : (Number.int n).value? = some (n : ℚ) := Number.value?_int n
  rcases hsub with hsub | ⟨rfl, s, hsub⟩
  · rw [hsub] at hle
    have hnear : n * Double.one ≤ Double.nearest d 1 := by
      rcases Nat.lt_or_ge (Double.nearest d 1) Double.overflow with hlt | hge
      · rw [Double.ofUnits_of_lt _ hlt, Number.le_iff hwindow rfl, le_div_iff₀ Double.one_pos]
          at hle
        have hcast : ((n * Double.one : Nat) : ℚ) ≤ (Double.nearest d 1 : Nat) := by
          rw [Nat.cast_mul]
          exact hle
        exact Nat.cast_le.mp hcast
      · rw [Double.overflow_eq] at hge
        exact (Nat.mul_le_mul_right _ hn).trans hge
    exact (Nat.mul_le_mul_left _ hnear).trans (Double.nearest_one_le d)
  · rw [hsub, Number.le_iff hwindow rfl] at hle
    have hzero : Double.signed s 0 = 0 := by cases s <;> rfl
    rw [hzero, Int.cast_zero, zero_div] at hle
    have hnone : n = 0 := by exact_mod_cast le_antisymm hle (Nat.cast_nonneg n)
    rw [hnone, Nat.zero_mul, Nat.mul_zero]
    exact Nat.zero_le _

/-- Readings of a clock that counts in doubles and does not go back. -/
structure IsMonotonic (readings : List Number) : Prop where
  doubles : ∀ n ∈ readings, ∃ x q, n = .real x ∧ x.value? = some q
  sorted : readings.Pairwise fun m n => ∃ p q, m.value? = some p ∧ n.value? = some q ∧ p ≤ q

theorem IsMonotonic.tail {first : Number} {rest : List Number} (h : IsMonotonic (first :: rest)) :
    IsMonotonic rest :=
  ⟨fun n hn => h.doubles n (List.mem_cons_of_mem _ hn), (List.pairwise_cons.mp h.sorted).2⟩

theorem isMonotonic_of_le {xs : List Double} (hfinite : ∀ x ∈ xs, x.isFinite = true)
    (hle : xs.Pairwise fun x y => (Number.real x).le (.real y) = true) :
    IsMonotonic (xs.map Number.real) := by
  have hvalue : ∀ x ∈ xs, ∃ q, x.value? = some q := fun x hx =>
    Number.isFinite_iff (x := .real x) |>.mp (hfinite x hx)
  refine ⟨fun n hn => ?_, List.pairwise_map.mpr (hle.imp_of_mem fun {x y} hx hy h => ?_)⟩
  · obtain ⟨x, hx, rfl⟩ := List.mem_map.mp hn
    exact ⟨x, (hvalue x hx).imp fun q hq => ⟨rfl, hq⟩⟩
  · obtain ⟨p, hp⟩ := hvalue x hx
    obtain ⟨q, hq⟩ := hvalue y hy
    exact ⟨p, q, hp, hq, (Number.le_iff (x := .real x) (y := .real y) hp hq).mp h⟩

theorem IsMonotonic.ages {readings : List Number} {n k : Nat} (h : IsMonotonic readings)
    (hk : k ≤ 1024) (hn : n ≤ 2 ^ k) : readings.Pairwise (Ages (.int n) (leastAge n)) := by
  have hle {e : Nat} (hk : k ≤ e) : n ≤ 2 ^ e := hn.trans (Nat.pow_le_pow_right (by decide) hk)
  refine h.sorted.imp_of_mem ?_
  rintro earlier later hearlier hlater ⟨p, q, hp, hq, hpq⟩
  obtain ⟨x, -, rfl, -⟩ := h.doubles earlier hearlier
  obtain ⟨y, -, rfl, -⟩ := h.doubles later hlater
  exact ages_of_doubles (hle hk) hp hq hpq

theorem length_lt_of_le {m : Int} {times : List Number}
    (h : (Number.int m).le (.int times.length) = false) : (times.length : Int) < m := by
  rw [← Bool.not_eq_true, Number.le_iff (Number.value?_int m) (Number.value?_int _)] at h
  exact_mod_cast not_le.mp h

/-- Of the earlier readings only those that are kept are in one stretch with the new one. -/
theorem countP_concat_le {gone kept : List Number} {length start : ℚ} {m : Nat}
    (hgone : ∀ t ∈ gone, Number.Precedes length t now) (hkept : kept.length < m)
    (h : (gone ++ kept).countP (Number.isWithin start length) ≤ m) :
    (gone ++ kept ++ [now]).countP (Number.isWithin start length) ≤ m := by
  rw [List.countP_append]
  by_cases hwithin : now.isWithin start length = true
  · have hnone : gone.countP (Number.isWithin start length) = 0 :=
      List.countP_eq_zero.mpr fun t ht => (hgone t ht).isWithin hwithin
    have hcount : kept.countP (Number.isWithin start length) ≤ kept.length :=
      List.countP_le_length
    rw [List.countP_append, hnone, List.countP_cons_of_pos hwithin, List.countP_nil]
    omega
  · rw [List.countP_cons_of_neg hwithin, List.countP_nil]
    exact h

/-- What is kept of a caller with all its admissions: those that are not kept were too long ago to
be in one stretch with a reading to come, and no stretch has more of them than the limit. -/
structure Remembers (window : Number) (age : ℚ) (limit : Nat) (future times history : List Number) :
    Prop where
  split : ∃ gone, history = gone ++ times ∧ ∀ t ∈ gone, ∀ now ∈ future,
    ∃ p q, t.value? = some p ∧ now.value? = some q ∧ p + age ≤ q
  ages : ∀ t ∈ times, ∀ now ∈ future, Ages window age t now
  quota : ∀ start, history.countP (Number.isWithin start age) ≤ limit

theorem remembers_nil (window : Number) (age : ℚ) (limit : Nat) (future : List Number) :
    Remembers window age limit future [] [] :=
  ⟨⟨[], rfl, by simp⟩, by simp, by simp⟩

theorem Remembers.of_subset {limit : Nat} {future sooner times history : List Number}
    (h : Remembers window age limit sooner times history) (hsub : future ⊆ sooner) :
    Remembers window age limit future times history := by
  obtain ⟨gone, hsplit, hgone⟩ := h.split
  exact ⟨⟨gone, hsplit, fun t ht now hnow => hgone t ht now (hsub hnow)⟩,
    fun t ht now hnow => h.ages t ht now (hsub hnow), h.quota⟩

/-- A request of the caller itself, admitted or not. -/
theorem Remembers.ask {m : Int} {future history : List Number}
    (h : Remembers d.window age m.toNat (d.now :: future) (l.times d.caller) history)
    (hlimit : d.limit = .int m) (hlater : ∀ later ∈ future, Ages d.window age d.now later) :
    Remembers d.window age m.toNat future ((l.ask d).2.times d.caller)
      (history ++ if l.isAdmitted d = true then [d.now] else []) := by
  obtain ⟨past, kept, htimes, hpast, hafter, hroom⟩ := times_ask l d
  obtain ⟨gone, hsplit, hgone⟩ := h.split
  rw [htimes] at hsplit
  have hnow : ∀ t ∈ gone ++ past, Number.Precedes age t d.now := by
    intro t ht
    rcases List.mem_append.mp ht with ht | ht
    · exact hgone t ht d.now List.mem_cons_self
    · obtain ⟨p, q, hp, hq, -, hold⟩ :=
        h.ages t (htimes ▸ List.mem_append_left _ ht) d.now List.mem_cons_self
      exact ⟨p, q, hp, hq, hold (hpast t ht)⟩
  refine ⟨⟨gone ++ past, ?_, fun t ht later hmem => ?_⟩, fun t ht later hmem => ?_, fun start => ?_⟩
  · rw [hsplit, hafter, List.append_assoc, List.append_assoc, List.append_assoc]
  · obtain ⟨p, q, hp, hq, hle⟩ := hnow t ht
    obtain ⟨q', r, hq', hr, hqr, -⟩ := hlater later hmem
    obtain rfl : q = q' := Option.some.inj (hq.symm.trans hq')
    exact ⟨p, r, hp, hr, hle.trans hqr⟩
  · rw [hafter] at ht
    rcases List.mem_append.mp ht with ht | ht
    · exact h.ages t (htimes ▸ List.mem_append_right _ ht) later (List.mem_cons_of_mem _ hmem)
    · split at ht
      · obtain rfl := List.mem_singleton.mp ht
        exact hlater later hmem
      · cases ht
  · cases hadmitted : l.isAdmitted d with
    | false => simpa using h.quota start
    | true =>
      have hkept : kept.length < m.toNat := by
        have hlt : (kept.length : Int) < m := length_lt_of_le (hlimit ▸ hroom hadmitted)
        omega
      have hquota := h.quota start
      rw [if_pos rfl]
      rw [hsplit, ← List.append_assoc] at hquota ⊢
      exact countP_concat_le hnow hkept hquota

/-- The same limit and window at all requests of the caller bound its admissions. -/
theorem Remembers.admissions {m : Int} {demands : List Demand} {history : List Number}
    (hclock : (demands.map Demand.now).Pairwise (Ages window age))
    (hsame : ∀ d ∈ demands, d.caller = caller → d.limit = .int m ∧ d.window = window)
    (h : Remembers window age m.toNat (demands.map Demand.now) (l.times caller) history)
    (start : ℚ) :
    (history ++ admissions caller l demands).countP (Number.isWithin start age) ≤ m.toNat := by
  induction demands generalizing l history with
  | nil => simpa [Limiter.admissions] using h.quota start
  | cons d rest ih =>
    obtain ⟨hlater, hclock⟩ := List.pairwise_cons.mp hclock
    have hrest : ∀ d ∈ rest, d.caller = caller → d.limit = .int m ∧ d.window = window :=
      fun d hd => hsame d (List.mem_cons_of_mem _ hd)
    rw [Limiter.admissions, ← List.append_assoc]
    refine ih hclock hrest ?_
    by_cases hd : d.caller = caller
    · subst hd
      obtain ⟨hlimit, rfl⟩ := hsame d List.mem_cons_self rfl
      have hstep := h.ask hlimit hlater
      by_cases hadmitted : l.isAdmitted d = true
      · simpa [hadmitted] using hstep
      · simpa [hadmitted] using hstep
    · rw [times_ask_of_ne (Ne.symm hd)]
      simpa [hd] using h.of_subset (List.subset_cons_self _ _)

/-- No stretch of the age has more admissions of a caller than the limit. -/
theorem countP_admissions_le {m : Int} {demands : List Demand} (hempty : l.times caller = [])
    (hclock : (demands.map Demand.now).Pairwise (Ages window age))
    (hsame : ∀ d ∈ demands, d.caller = caller → d.limit = .int m ∧ d.window = window)
    (start : ℚ) :
    (admissions caller l demands).countP (Number.isWithin start age) ≤ m.toNat := by
  have hnone : Remembers window age m.toNat (demands.map Demand.now) (l.times caller) [] := by
    rw [hempty]
    exact remembers_nil _ _ _ _
  exact hnone.admissions hclock hsame start

end Limiter

end Replay
