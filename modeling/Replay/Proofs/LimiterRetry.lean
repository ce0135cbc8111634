import Replay.Proofs.LimiterQuota
import Replay.Proofs.Outcome

namespace Replay

namespace Double

variable {x y : Double} {m k : Nat}

/-- A finite double of no more units than that. -/
def IsAtMost (m : Nat) (x : Double) : Prop := ∃ s u, x = finite s u ∧ u ≤ m

theorem two_pow_mul_one_lt_two_pow {e : Nat} (h : k < e) : 2 ^ k * one < 2 ^ e * one :=
  Nat.mul_lt_mul_of_pos_right (Nat.pow_lt_pow_right (by decide) h) units_pos

theorem two_pow_mul_one_lt (h : k < 1024) : 2 ^ k * one < overflow := by
  rw [overflow_eq]
  exact two_pow_mul_one_lt_two_pow h

theorem isKept_two_pow_mul_one (k : Nat) : IsKept (2 ^ k * one) := (isKept_two_pow k).mul_one

theorem ofUnits_isAtMost {num den : Nat} (s : Bool) (hden : 0 < den) (hk : k < 1024)
    (h : num ≤ 2 ^ k * one * den) : (ofUnits s num den).IsAtMost (2 ^ k * one) := by
  have hle := nearest_le hden (isKept_two_pow_mul_one k) h
  exact ⟨s, _, ofUnits_of_lt s (hle.trans_lt (two_pow_mul_one_lt hk)), hle⟩

theorem IsAtMost.mono {n : Nat} (h : x.IsAtMost m) (hle : m ≤ n) : x.IsAtMost n := by
  obtain ⟨s, u, rfl, hu⟩ := h
  exact ⟨s, u, rfl, hu.trans hle⟩

theorem IsAtMost.mono_two_pow {e : Nat} (h : x.IsAtMost (2 ^ k * one)) (hle : k ≤ e) :
    x.IsAtMost (2 ^ e * one) :=
  h.mono (Nat.mul_le_mul_right _ (Nat.pow_le_pow_right (by decide) hle))

theorem IsAtMost.neg (h : x.IsAtMost m) : x.neg.IsAtMost m := by
  obtain ⟨s, u, rfl, hle⟩ := h
  exact ⟨!s, u, rfl, hle⟩

theorem natAbs_signed (s : Bool) (u : Nat) : (signed s u).natAbs = u := by
  cases s <;> simp [signed]

/-- A sum is finite if the magnitudes of its terms are well below the largest double. -/
theorem IsAtMost.add (hx : x.IsAtMost (2 ^ k * one)) (hy : y.IsAtMost (2 ^ k * one))
    (hk : k + 1 < 1024) : (x.add y).IsAtMost (2 ^ (k + 1) * one) := by
  obtain ⟨s, u, rfl, hu⟩ := hx
  obtain ⟨t, v, rfl, hv⟩ := hy
  rw [Double.add]
  split
  · exact ⟨_, 0, rfl, Nat.zero_le _⟩
  · refine ofUnits_isAtMost _ Nat.one_pos hk ?_
    have habs := Int.natAbs_add_le (signed s u) (signed t v)
    rw [natAbs_signed, natAbs_signed] at habs
    rw [Nat.mul_one, Nat.pow_succ, Nat.mul_right_comm]
    omega

theorem IsAtMost.sub (hx : x.IsAtMost (2 ^ k * one)) (hy : y.IsAtMost (2 ^ k * one))
    (hk : k + 1 < 1024) : (x.sub y).IsAtMost (2 ^ (k + 1) * one) :=
  hx.add hy.neg hk

theorem ofUnits_of_ge {num den : Nat} (s : Bool) (h : overflow ≤ nearest num den) :
    ofUnits s num den = infinity s := by
  rw [nearest] at h
  rw [ofUnits]
  exact if_neg (Nat.not_lt.mpr h)

end Double

namespace Number

variable {x : Double} {m n k : Nat}

theorem toDouble_of_le (hk : k < 1024) (h : n ≤ 2 ^ k) :
    ∃ x, (Number.int n).toDouble = .ok x ∧ x.IsAtMost (2 ^ k * Double.one) := by
  have hunits : n * Double.one ≤ 2 ^ k * Double.one * 1 := by
    rw [Nat.mul_one]
    exact Nat.mul_le_mul_right _ h
  have hatMost := Double.ofUnits_isAtMost false Nat.one_pos hk hunits
  have hsign : decide ((n : Int) < 0) = false := by simp
  have hfraction : Double.ofFraction (decide ((n : Int) < 0)) (n : Int).natAbs 1 =
      .ofUnits false (n * Double.one) 1 := by
    rw [hsign, Int.natAbs_natCast, Double.ofFraction]
  refine ⟨_, ?_, hatMost⟩
  rw [toDouble_int]
  unfold Double.ofInt?
  rw [hfraction]
  generalize Double.ofUnits false (n * Double.one) 1 = x at hatMost ⊢
  obtain ⟨s, u, rfl, -⟩ := hatMost
  rfl

theorem truncate_of_isAtMost (h : x.IsAtMost m) : ∃ seconds, (real x).truncate = .ok seconds := by
  obtain ⟨s, u, rfl, -⟩ := h
  exact ⟨_, rfl⟩

end Number

namespace Limiter

variable {x y : Double}

theorem roundingUp_isAtMost : ∃ x, roundingUp = .real x ∧ x.IsAtMost (2 ^ 0 * Double.one) := by
  refine ⟨_, rfl, ?_⟩
  have h : Double.ofDecimal false 999 (-3) = .ofFraction false 999 (10 ^ (2 + 1)) := by
    unfold Double.ofDecimal
    rw [if_neg (by decide)]
    dsimp only
    rw [if_neg (by decide), if_neg (by decide)]
    rfl
  rw [h, Double.ofFraction]
  refine Double.ofUnits_isAtMost false (by decide) (by decide) ?_
  generalize Double.one = u
  omega

/-- The doubles among the times that are kept are dropped until one still counts. -/
theorem evict_of_reals (now : Double) (window : Number) (times : List Number)
    (h : ∀ t ∈ times, ∃ x, t = .real x) :
    ∃ kept, evict (.real now) window times = (.ok (), kept) ∧ kept ⊆ times ∧
      ∀ t ∈ kept.head?, isPast (.real now) window t = .ok false := by
  induction times with
  | nil => exact ⟨[], rfl, List.Subset.refl _, by simp⟩
  | cons t rest ih =>
    obtain ⟨x, rfl⟩ := h t List.mem_cons_self
    obtain ⟨kept, hkept, hsub, hhead⟩ := ih fun t ht => h t (List.mem_cons_of_mem _ ht)
    have hpast : isPast (.real now) window (.real x) = .ok (window.le (.real (now.sub x))) := rfl
    rw [evict, hpast]
    cases hle : window.le (.real (now.sub x)) with
    | true => exact ⟨kept, hkept, fun t ht => List.mem_cons_of_mem _ (hsub ht), hhead⟩
    | false =>
      refine ⟨_, rfl, List.Subset.refl _, fun t ht => ?_⟩
      obtain rfl := Option.some.inj ht
      rw [hpast, hle]

/-- What is left of a window is finite if the window is a good deal smaller than the largest
double, and a request is not older. -/
theorem remaining_isAtMost {p q : ℚ} {n k : Nat} (hk : k + 1 < 1024) (hn : n ≤ 2 ^ k)
    (hx : x.value? = some p) (hy : y.value? = some q) (hle : p ≤ q)
    (h : isPast (.real y) (.int n) (.real x) = .ok false) :
    ∃ z, (Number.int n).sub (.real (y.sub x)) = .ok (.real z) ∧
      z.IsAtMost (2 ^ (k + 1) * Double.one) := by
  have hyoung : (Number.int n).le (.real (y.sub x)) = false := Except.ok.inj h
  have hage : (y.sub x).IsAtMost (2 ^ k * Double.one) := by
    obtain ⟨d, -, hsub⟩ := Double.sub_of_le hx hy hle
    rcases hsub with hsub | ⟨-, s, hsub⟩
    · rw [hsub] at hyoung ⊢
      rcases Nat.lt_or_ge (Double.nearest d 1) Double.overflow with hlt | hge
      · rw [Double.ofUnits_of_lt _ hlt] at hyoung ⊢
        refine ⟨_, _, rfl, ?_⟩
        rw [← Bool.not_eq_true, Number.le_iff (Number.value?_int _) rfl, not_le,
          div_lt_iff₀ Double.one_pos] at hyoung
        have hcast : (Double.nearest d 1 : ℚ) < (n * Double.one : Nat) := by
          rw [Nat.cast_mul]
          exact hyoung
        exact (Nat.cast_lt.mp hcast).le.trans (Nat.mul_le_mul_right _ hn)
      · rw [Double.ofUnits_of_ge _ hge] at hyoung
        cases hyoung
    · rw [hsub]
      exact ⟨s, 0, rfl, Nat.zero_le _⟩
  obtain ⟨w, hw, hwindow⟩ := Number.toDouble_of_le (Nat.lt_of_succ_lt hk) hn
  refine ⟨w.sub (y.sub x), ?_, hwindow.sub hage hk⟩
  show ((Number.int n).toDouble >>= fun a => (Number.real (y.sub x)).toDouble >>= fun b =>
    pure (Number.real (a.sub b))) = _
  rw [hw]
  rfl

/-- The wait of a caller whose oldest request still counts. -/
theorem retryAfter_of_young {l : Limiter} {caller : Text} {q : ℚ} {n k : Nat}
    (hk : k + 2 < 1024) (hn : n ≤ 2 ^ k) (hy : y.value? = some q)
    (htimes : ∀ t ∈ (l.times caller).head?, isPast (.real y) (.int n) t = .ok false ∧
      ∃ x p, t = .real x ∧ x.value? = some p ∧ p ≤ q) :
    ∃ seconds, l.retryAfter (.real y) caller (.int n) = .ok seconds := by
  rw [retryAfter]
  cases hkept : l.times caller with
  | nil => exact ⟨0, rfl⟩
  | cons t rest =>
    obtain ⟨hyoung, x, p, rfl, hx, hle⟩ := htimes t (by rw [hkept]; rfl)
    obtain ⟨z, hz, hremaining⟩ := remaining_isAtMost (Nat.lt_of_succ_lt hk) hn hx hy hle hyoung
    obtain ⟨u, hu, hsmall⟩ := roundingUp_isAtMost
    have hsum := hremaining.add (hsmall.mono_two_pow (Nat.zero_le _)) hk
    obtain ⟨seconds, hseconds⟩ := Number.truncate_of_isAtMost hsum
    refine ⟨max 1 seconds, ?_⟩
    have hage : (Number.real y).sub (.real x) = .ok (.real (y.sub x)) := rfl
    have hadd : (Number.real z).add roundingUp = .ok (.real (z.add u)) := by
      rw [hu]
      rfl
    exact bind_eq_ok_iff.mpr ⟨_, hage, bind_eq_ok_iff.mpr ⟨_, hz, bind_eq_ok_iff.mpr ⟨_, hadd,
      bind_eq_ok_iff.mpr ⟨_, hseconds, rfl⟩⟩⟩⟩

/-- A request is admitted or refused, and a refused one is told how long to wait. -/
theorem ask_of_doubles {l : Limiter} {d : Demand} {q : ℚ} {n k : Nat} (hk : k + 2 < 1024)
    (hnow : d.now = .real y) (hy : y.value? = some q) (hwindow : d.window = .int n)
    (hn : n ≤ 2 ^ k)
    (htimes : ∀ t ∈ l.times d.caller, ∃ x p, t = .real x ∧ x.value? = some p ∧ p ≤ q) :
    l.isAdmitted d = true ∨ (l.ask d).1 = .ok false ∧
      ∃ seconds, (l.ask d).2.retryAfter d.now d.caller d.window = .ok seconds := by
  obtain ⟨kept, hkept, hsub, hhead⟩ := evict_of_reals y d.window (l.times d.caller)
    fun t ht => (htimes t ht).imp fun x hx => hx.choose_spec.1
  cases hfull : d.limit.le (.int kept.length) with
  | false =>
    rw [isAdmitted, ask, allow, hnow, hkept]
    exact .inl (by simp [hfull, Except.toOption])
  | true =>
    have hask : l.ask d = (.ok false, ⟨l.windows.put d.caller kept⟩) := by
      rw [ask, allow, hnow, hkept]
      exact if_pos hfull
    have hyoung : ∀ t ∈ ((⟨l.windows.put d.caller kept⟩ : Limiter).times d.caller).head?,
        isPast (.real y) (.int n) t = .ok false ∧
          ∃ x p, t = .real x ∧ x.value? = some p ∧ p ≤ q := by
      rw [times_put, if_pos rfl, ← hwindow]
      exact fun t ht => ⟨hhead t ht, htimes t (hsub (List.mem_of_mem_head? ht))⟩
    rw [hask, hnow, hwindow]
    exact .inr ⟨rfl, retryAfter_of_young hk hn hy hyoung⟩

/-- All times that are kept are doubles, and no reading goes before them. -/
def IsBefore (readings : List Number) (l : Limiter) : Prop :=
  ∀ caller, ∀ t ∈ l.times caller, ∃ x p, t = .real x ∧ x.value? = some p ∧
    ∀ now ∈ readings, ∀ q, now.value? = some q → p ≤ q

theorem isBefore_empty (readings : List Number) : empty.IsBefore readings := by
  intro caller t ht
  cases ht

theorem IsBefore.of_subset {l : Limiter} {sooner later : List Number} (h : l.IsBefore sooner)
    (hsub : later ⊆ sooner) : l.IsBefore later := by
  intro caller t ht
  obtain ⟨x, p, hx, hp, hle⟩ := h caller t ht
  exact ⟨x, p, hx, hp, fun now hnow => hle now (hsub hnow)⟩

theorem IsBefore.ask {l : Limiter} {d : Demand} {later : List Number}
    (h : l.IsBefore (d.now :: later)) (hclock : IsMonotonic (d.now :: later)) :
    (l.ask d).2.IsBefore later := by
  have hold := h.of_subset (List.subset_cons_self d.now later)
  intro caller t ht
  by_cases hcaller : caller = d.caller
  · subst hcaller
    obtain ⟨past, kept, htimes, -, hafter, -⟩ := times_ask l d
    rw [hafter] at ht
    rcases List.mem_append.mp ht with ht | ht
    · exact hold d.caller t (htimes ▸ List.mem_append_right _ ht)
    · split at ht
      · obtain rfl := List.mem_singleton.mp ht
        obtain ⟨x, p, hx, hp⟩ := hclock.doubles d.now List.mem_cons_self
        refine ⟨x, p, hx, hp, fun now hnow q hq => ?_⟩
        obtain ⟨p', q', hp', hq', hle⟩ := (List.pairwise_cons.mp hclock.sorted).1 now hnow
        rw [hx] at hp'
        obtain rfl : p = p' := Option.some.inj (hp.symm.trans hp')
        obtain rfl : q = q' := Option.some.inj (hq.symm.trans hq')
        exact hle
      · cases ht
  · rw [times_ask_of_ne hcaller] at ht
    exact hold caller t ht

end Limiter

end Replay
