import Mathlib.Data.Nat.Log
import Mathlib.Tactic.Linarith
import Mathlib.Tactic.Ring
import Replay.Proofs.NumberValue

namespace Replay

namespace Double

variable {num den u v m : Nat}

theorem spacing_pos (u : Nat) : 0 < spacing u := Nat.two_pow_pos _

theorem spacing_dvd (h : u ≤ v) : spacing u ∣ spacing v := by
  have hlog : Nat.log2 u ≤ Nat.log2 v := by
    rw [Nat.log2_eq_log_two, Nat.log2_eq_log_two]
    exact Nat.log_mono_right h
  exact Nat.pow_dvd_pow 2 (by omega)

/-- A magnitude with 53 significant bits. -/
def IsKept (u : Nat) : Prop := spacing u ∣ u

theorem isKept_of_lt (h : u < 2 ^ 53) : IsKept u := by
  have hlog : Nat.log2 u - 52 = 0 := by
    by_cases hu : u = 0
    · subst hu
      rfl
    · have := (Nat.log2_lt hu).mpr h
      omega
  rw [IsKept, spacing, hlog]
  exact one_dvd u

theorem isKept_two_pow (e : Nat) : IsKept (2 ^ e) := by
  rw [IsKept, spacing, Nat.log2_two_pow]
  exact Nat.pow_dvd_pow 2 (Nat.sub_le e 52)

theorem IsKept.mul_two (h : IsKept u) : IsKept (u * 2) := by
  by_cases hu : u = 0
  · rw [hu, Nat.zero_mul]
    exact Nat.dvd_zero _
  · have hlog : Nat.log2 (u * 2) = Nat.log2 u + 1 := by
      rw [Nat.log2_eq_log_two, Nat.log2_eq_log_two, Nat.log_mul_base Nat.one_lt_two hu]
    have hspacing : spacing (u * 2) ∣ spacing u * 2 := by
      rw [spacing, spacing, hlog, ← Nat.pow_succ]
      exact Nat.pow_dvd_pow 2 (by omega)
    exact hspacing.trans (Nat.mul_dvd_mul_right h 2)

theorem IsKept.mul_two_pow (h : IsKept u) (k : Nat) : IsKept (u * 2 ^ k) := by
  induction k with
  | zero => simpa using h
  | succ k ih =>
    rw [Nat.pow_succ, ← Nat.mul_assoc]
    exact ih.mul_two

theorem one_eq_two_pow : ∃ k, one = 2 ^ k := ⟨1074, by rw [one]⟩

theorem IsKept.mul_one (h : IsKept u) : IsKept (u * one) := by
  obtain ⟨k, hk⟩ := one_eq_two_pow
  rw [hk]
  exact h.mul_two_pow k

/-- The quotient is taken, or the next integer, whichever is nearer. -/
theorem roundDiv_cases (num den : Nat) :
    (roundDiv num den = num / den ∧ 2 * (num % den) ≤ den) ∨
      (roundDiv num den = num / den + 1 ∧ den ≤ 2 * (num % den)) := by
  simp only [roundDiv]
  split
  next h => exact .inl ⟨rfl, Nat.le_of_lt h⟩
  next h =>
    split
    next h' => exact .inr ⟨rfl, Nat.le_of_lt h'⟩
    next h' =>
      have heq : 2 * (num % den) = den := by omega
      split
      next => exact .inl ⟨rfl, heq.le⟩
      next => exact .inr ⟨rfl, heq.ge⟩

theorem roundDiv_le (hden : 0 < den) (h : num ≤ m * den) : roundDiv num den ≤ m := by
  have hle : num / den ≤ m := Nat.div_le_of_le_mul (by rwa [mul_comm])
  rcases roundDiv_cases num den with ⟨hr, -⟩ | ⟨hr, hrest⟩
  · rw [hr]
    exact hle
  · have hlt : num / den < m := by
      refine lt_of_le_of_ne hle fun heq => ?_
      have hsplit := Nat.div_add_mod num den
      rw [heq, mul_comm] at hsplit
      omega
    omega

theorem le_roundDiv (hden : 0 < den) (h : m * den ≤ num) : m ≤ roundDiv num den := by
  have hle : m ≤ num / den := (Nat.le_div_iff_mul_le hden).mpr h
  rcases roundDiv_cases num den with ⟨hr, -⟩ | ⟨hr, -⟩
  · rwa [hr]
  · omega

theorem two_mul_roundDiv_mul_le (num den : Nat) : 2 * (roundDiv num den * den) ≤ 2 * num + den := by
  have hsplit := Nat.div_add_mod num den
  rcases roundDiv_cases num den with ⟨hr, -⟩ | ⟨hr, hrest⟩
  · rw [hr, mul_comm _ den]
    omega
  · rw [hr, Nat.add_mul, mul_comm _ den]
    omega

theorem roundDiv_mul (hden : 0 < den) (m : Nat) : roundDiv (m * den) den = m := by
  rcases roundDiv_cases (m * den) den with ⟨hr, -⟩ | ⟨hr, hrest⟩
  · rw [hr, Nat.mul_div_cancel m hden]
  · rw [Nat.mul_mod_left] at hrest
    omega

/-- The magnitude of the double nearest to `num / den` units. -/
def nearest (num den : Nat) : Nat := roundDiv num (den * spacing (num / den)) * spacing (num / den)

theorem ofUnits_of_lt (s : Bool) (h : nearest num den < overflow) :
    ofUnits s num den = finite s (nearest num den) := by
  rw [nearest] at h ⊢
  rw [ofUnits]
  simp only [if_pos h]

theorem ofUnits_eq_finite {s t : Bool} (h : ofUnits s num den = finite t u) :
    t = s ∧ u = nearest num den ∧ u < overflow := by
  rw [nearest]
  simp only [ofUnits] at h
  split at h
  next hlt =>
    obtain ⟨rfl, rfl⟩ := Double.finite.inj h
    exact ⟨rfl, rfl, hlt⟩
  next => cases h

/-- Rounding does not pass a magnitude that is kept. -/
theorem nearest_le (hden : 0 < den) (hm : IsKept m) (h : num ≤ m * den) : nearest num den ≤ m := by
  have hle : num / den ≤ m := Nat.div_le_of_le_mul (by rwa [mul_comm])
  obtain ⟨k, hk⟩ := (spacing_dvd hle).trans hm
  have hpos := spacing_pos (num / den)
  rw [nearest]
  generalize spacing (num / den) = step at hk hpos ⊢
  have hround : roundDiv num (den * step) ≤ k := by
    refine roundDiv_le (Nat.mul_pos hden hpos) ?_
    calc num ≤ m * den := h
      _ = k * (den * step) := by rw [hk]; ring
  calc roundDiv num (den * step) * step ≤ k * step := Nat.mul_le_mul_right step hround
    _ = m := by rw [hk, mul_comm]

/-- Rounding does not fall below a magnitude that is kept. -/
theorem le_nearest (hden : 0 < den) (hm : IsKept m) (h : m * den ≤ num) : m ≤ nearest num den := by
  have hle : m ≤ num / den := (Nat.le_div_iff_mul_le hden).mpr h
  -- of `m` and the power of two below the quotient the larger one has the spacing of the quotient
  obtain ⟨l, hml, hl, hdvd⟩ : ∃ l, m ≤ l ∧ l * den ≤ num ∧ spacing (num / den) ∣ l := by
    by_cases hlog : Nat.log2 (num / den) ≤ Nat.log2 m
    · exact ⟨m, le_rfl, h, (Nat.pow_dvd_pow 2 (Nat.sub_le_sub_right hlog 52)).trans hm⟩
    · have hne : num / den ≠ 0 := by
        intro hzero
        rw [hzero] at hlog
        exact hlog (Nat.zero_le _)
      have hlt : m < 2 ^ Nat.log2 (num / den) := by
        by_cases hzero : m = 0
        · rw [hzero]
          exact Nat.two_pow_pos _
        · exact (Nat.log2_lt hzero).mp (Nat.lt_of_not_le hlog)
      exact ⟨2 ^ Nat.log2 (num / den), hlt.le,
        (Nat.le_div_iff_mul_le hden).mp (Nat.log2_self_le hne), Nat.pow_dvd_pow 2 (Nat.sub_le _ _)⟩
  obtain ⟨c, rfl⟩ := hdvd
  have hpos := spacing_pos (num / den)
  rw [nearest]
  generalize spacing (num / den) = step at hpos hml hl ⊢
  have hround : c ≤ roundDiv num (den * step) := by
    refine le_roundDiv (Nat.mul_pos hden hpos) ?_
    calc c * (den * step) = step * c * den := by ring
      _ ≤ num := hl
  calc m ≤ step * c := hml
    _ = c * step := Nat.mul_comm _ _
    _ ≤ roundDiv num (den * step) * step := Nat.mul_le_mul_right step hround

theorem nearest_mul (hden : 0 < den) (hm : IsKept m) : nearest (m * den) den = m := by
  obtain ⟨k, hk⟩ := id hm
  have hpos := spacing_pos m
  rw [nearest, Nat.mul_div_cancel m hden]
  generalize spacing m = step at hk hpos ⊢
  have hround : roundDiv (m * den) (den * step) = k := by
    rw [hk, show step * k * den = k * (den * step) by ring]
    exact roundDiv_mul (Nat.mul_pos hden hpos) k
  rw [hround, hk, mul_comm]

theorem isKept_nearest (hden : 0 < den) : IsKept (nearest num den) := by
  -- the next power of two is kept, so that the rounding has at most one bit more
  let e := Nat.log2 (num / den)
  have hnext : nearest num den ≤ 2 ^ (e + 1) := by
    refine nearest_le hden (isKept_two_pow _) ?_
    have hlt : num / den < 2 ^ (e + 1) := Nat.lt_log2_self
    have := (Nat.div_lt_iff_lt_mul hden).mp hlt
    omega
  rcases Nat.lt_or_eq_of_le hnext with hlt | heq
  · have hlog : Nat.log2 (nearest num den) ≤ e := by
      by_cases hzero : nearest num den = 0
      · rw [hzero]
        exact Nat.zero_le e
      · have := (Nat.log2_lt hzero).mpr hlt
        omega
    have hdvd : spacing (nearest num den) ∣ spacing (num / den) :=
      Nat.pow_dvd_pow 2 (Nat.sub_le_sub_right hlog 52)
    exact hdvd.trans (Nat.dvd_mul_left _ _)
  · rw [heq]
    exact isKept_two_pow _

/-- Rounding a whole number of units adds at most one part in `2 ^ 53`. -/
theorem nearest_one_le (num : Nat) : 2 ^ 53 * nearest num 1 ≤ (2 ^ 53 + 1) * num := by
  by_cases hsmall : num < 2 ^ 53
  · have hkept : nearest num 1 = num := by
      have h := nearest_mul Nat.one_pos (isKept_of_lt hsmall)
      rwa [mul_one] at h
    rw [hkept]
    omega
  · have hnum : num ≠ 0 := by omega
    have hlog : 52 ≤ Nat.log2 num := (Nat.le_log2 hnum).mpr (by omega)
    have hstep : 2 ^ 52 * spacing num ≤ num := by
      rw [spacing, ← Nat.pow_add, Nat.add_sub_cancel' hlog]
      exact Nat.log2_self_le hnum
    have hhalf := two_mul_roundDiv_mul_le num (spacing num)
    rw [nearest, Nat.div_one, Nat.one_mul]
    generalize roundDiv num (spacing num) * spacing num = r at hhalf ⊢
    omega

theorem signed_not (s : Bool) (u : Nat) : signed (!s) u = -signed s u := by
  cases s <;> simp [signed]

theorem overflow_eq : overflow = 2 ^ 1024 * one := by
  rw [overflow, one, ← Nat.pow_add]

/-- The difference of two doubles is a whole number of units, which is rounded. -/
theorem sub_of_le {x y : Double} {p q : ℚ} (hx : x.value? = some p) (hy : y.value? = some q)
    (h : p ≤ q) : ∃ d : Nat, (d : ℚ) / one = q - p ∧
      (y.sub x = ofUnits false d 1 ∨ d = 0 ∧ ∃ s, y.sub x = finite s 0) := by
  obtain ⟨s, u, rfl, rfl⟩ := value?_eq_some_iff.mp hx
  obtain ⟨t, v, rfl, rfl⟩ := value?_eq_some_iff.mp hy
  rw [div_le_div_iff_of_pos_right one_pos, Int.cast_le] at h
  obtain ⟨d, hd⟩ := Int.eq_ofNat_of_zero_le (Int.sub_nonneg_of_le h)
  have hvalue : (d : ℚ) / one = signed t v / one - signed s u / one := by
    rw [← sub_div, ← Int.cast_sub, hd, Int.cast_natCast]
  refine ⟨d, hvalue, ?_⟩
  have hsum : signed t v + signed (!s) u = d := by
    rw [signed_not, ← Int.sub_eq_add_neg, hd]
  rw [sub, neg, add, hsum]
  by_cases hzero : d = 0
  · subst hzero
    exact .inr ⟨rfl, _, if_pos rfl⟩
  · have hne : ¬ (d : Int) = 0 := by omega
    have hsign : decide ((d : Int) < 0) = false := by simp
    rw [if_neg hne, hsign, Int.natAbs_natCast]
    exact .inl rfl

theorem ofUnits_cases (s : Bool) (num den : Nat) :
    (∃ u, ofUnits s num den = finite s u) ∨ ofUnits s num den = infinity s := by
  simp only [ofUnits]
  split
  next => exact .inl ⟨_, rfl⟩
  next => exact .inr rfl

/-- A smaller double less a larger one is negative before it is rounded. -/
theorem sub_of_lt {x y : Double} {p q : ℚ} (hx : x.value? = some p) (hy : y.value? = some q)
    (h : q < p) : ∃ d, y.sub x = ofUnits true d 1 := by
  obtain ⟨s, u, rfl, rfl⟩ := value?_eq_some_iff.mp hx
  obtain ⟨t, v, rfl, rfl⟩ := value?_eq_some_iff.mp hy
  rw [div_lt_div_iff_of_pos_right one_pos, Int.cast_lt] at h
  have hsum : signed t v + signed (!s) u < 0 := by
    rw [signed_not]
    omega
  refine ⟨(signed t v + signed (!s) u).natAbs, ?_⟩
  rw [sub, neg, add]
  simp only [if_neg hsum.ne, decide_eq_true hsum]

theorem ofInt?_eq_some {n : Int} {x : Double} (h : ofInt? n = some x) :
    ofFraction (n < 0) n.natAbs 1 = x ∧ x.isFinite = true := by
  unfold ofInt? at h
  generalize ofFraction (n < 0) n.natAbs 1 = y at h ⊢
  cases hy : y.isFinite with
  | false => simp [hy] at h
  | true =>
    simp only [hy, if_true, Option.some.injEq] at h
    exact ⟨h, h ▸ hy⟩

end Double

namespace Number

theorem toDouble_int (n : Int) :
    (Number.int n).toDouble = (Double.ofInt? n).elim (.error .integerTooLarge) .ok := rfl

theorem ofInt?_of_toDouble {n : Int} {x : Double} (h : (Number.int n).toDouble = .ok x) :
    Double.ofInt? n = some x := by
  rw [toDouble_int] at h
  cases hx : Double.ofInt? n with
  | some y =>
    rw [hx] at h
    exact congrArg some (Except.ok.inj h)
  | none =>
    rw [hx] at h
    cases h

/-- The double of a natural number is its rounding. -/
theorem toDouble_natCast {n : Nat} {x : Double} (h : (Number.int n).toDouble = .ok x) :
    x = .finite false (Double.nearest (n * Double.one) 1) ∧
      Double.nearest (n * Double.one) 1 < Double.overflow := by
  obtain ⟨hx, hfinite⟩ := Double.ofInt?_eq_some (ofInt?_of_toDouble h)
  have hsign : decide ((n : Int) < 0) = false := by simp
  rw [hsign, Int.natAbs_natCast, Double.ofFraction] at hx
  cases x with
  | finite s u =>
    obtain ⟨rfl, rfl, hlt⟩ := Double.ofUnits_eq_finite hx
    exact ⟨rfl, hlt⟩
  | nan => cases hfinite
  | infinity s => cases hfinite

/-- Natural numbers of 53 bits are doubles. -/
theorem nearest_natCast {n : Nat} (h : n ≤ 2 ^ 53) :
    Double.nearest (n * Double.one) 1 = n * Double.one := by
  have hkept : Double.IsKept n := by
    rcases Nat.lt_or_eq_of_le h with hlt | rfl
    · exact Double.isKept_of_lt hlt
    · exact Double.isKept_two_pow 53
  have hnearest := Double.nearest_mul Nat.one_pos hkept.mul_one
  rwa [Nat.mul_one] at hnearest

end Number

end Replay
