import Mathlib.Algebra.Order.Field.Rat
import Mathlib.Algebra.Order.Field.Basic
import Mathlib.Tactic.Positivity
import Replay.Number

namespace Replay

namespace Double

/-- The exact value of a double, if it is finite. -/
def value? : Double → Option ℚ
  | finite s u => some (signed s u / one)
  | _ => none

theorem units_pos : 0 < one := by
  unfold one
  positivity

theorem one_pos : (0 : ℚ) < one := by exact_mod_cast units_pos

theorem value?_eq_some_iff {x : Double} {q : ℚ} :
    x.value? = some q ↔ ∃ s u, x = finite s u ∧ q = signed s u / one := by
  constructor
  · intro h
    cases x with
    | finite s u => exact ⟨s, u, rfl, (Option.some.inj h).symm⟩
    | nan => cases h
    | infinity s => cases h
  · rintro ⟨s, u, rfl, rfl⟩
    rfl

theorem lt_iff {x y : Double} {p q : ℚ} (hx : x.value? = some p) (hy : y.value? = some q) :
    x.lt y = true ↔ p < q := by
  obtain ⟨s, u, rfl, rfl⟩ := value?_eq_some_iff.mp hx
  obtain ⟨t, v, rfl, rfl⟩ := value?_eq_some_iff.mp hy
  simp only [lt, decide_eq_true_eq]
  rw [div_lt_div_iff_of_pos_right one_pos, Int.cast_lt]

theorem same_iff {x y : Double} {p q : ℚ} (hx : x.value? = some p) (hy : y.value? = some q) :
    x.same y = true ↔ p = q := by
  obtain ⟨s, u, rfl, rfl⟩ := value?_eq_some_iff.mp hx
  obtain ⟨t, v, rfl, rfl⟩ := value?_eq_some_iff.mp hy
  simp only [same, decide_eq_true_eq]
  rw [div_left_inj' one_pos.ne']
  exact_mod_cast Iff.rfl

theorem ltInt_iff {x : Double} {p : ℚ} (hx : x.value? = some p) (n : Int) :
    x.ltInt n = true ↔ p < n := by
  obtain ⟨s, u, rfl, rfl⟩ := value?_eq_some_iff.mp hx
  simp only [ltInt, decide_eq_true_eq]
  rw [div_lt_iff₀ one_pos]
  exact_mod_cast Iff.rfl

theorem gtInt_iff {x : Double} {p : ℚ} (hx : x.value? = some p) (n : Int) :
    x.gtInt n = true ↔ n < p := by
  obtain ⟨s, u, rfl, rfl⟩ := value?_eq_some_iff.mp hx
  simp only [gtInt, decide_eq_true_eq]
  rw [lt_div_iff₀ one_pos]
  exact_mod_cast Iff.rfl

theorem sameInt_iff {x : Double} {p : ℚ} (hx : x.value? = some p) (n : Int) :
    x.sameInt n = true ↔ p = n := by
  obtain ⟨s, u, rfl, rfl⟩ := value?_eq_some_iff.mp hx
  simp only [sameInt, decide_eq_true_eq]
  rw [div_eq_iff one_pos.ne']
  exact_mod_cast Iff.rfl

/-- A magnitude that is a multiple of one has the quotient as its integer. -/
theorem signed_eq_mul_one_iff {s : Bool} {u : Nat} {n : Int} :
    signed s u = n * one ↔ u % one = 0 ∧ signed s (u / one) = n := by
  have hk := units_pos
  generalize one = k at hk ⊢
  constructor
  · intro h
    have hd : k ∣ u := by
      have hi : (k : Int) ∣ u := by
        cases s with
        | false => exact ⟨n, by simpa [signed, mul_comm] using h⟩
        | true => exact ⟨-n, by rw [Int.mul_neg, mul_comm, ← h]; simp [signed]⟩
      exact_mod_cast hi
    obtain ⟨m, rfl⟩ := hd
    refine ⟨by simp, ?_⟩
    rw [Nat.mul_div_cancel_left m hk]
    have hm : signed s (k * m) = signed s m * k := by
      cases s <;> simp [signed, mul_comm]
    exact Int.eq_of_mul_eq_mul_right (by omega) (hm ▸ h)
  · rintro ⟨hd, rfl⟩
    obtain ⟨m, rfl⟩ := Nat.dvd_of_mod_eq_zero hd
    rw [Nat.mul_div_cancel_left m hk]
    cases s <;> simp [signed, mul_comm]

end Double

namespace Number

/-- The exact value of a number, if it is finite. -/
def value? : Number → Option ℚ
  | int n => some n
  | real x => x.value?

@[simp] theorem value?_int (n : Int) : (int n).value? = some (n : ℚ) := rfl

theorem isFinite_iff {x : Number} : x.isFinite = true ↔ ∃ q, x.value? = some q := by
  cases x with
  | int n => simp [isFinite]
  | real x =>
    cases x with
    | finite s u => exact ⟨fun _ => ⟨_, rfl⟩, fun _ => rfl⟩
    | nan =>
      simp only [isFinite, Double.isFinite, value?, Double.value?, reduceCtorEq, exists_false]
    | infinity s =>
      simp only [isFinite, Double.isFinite, value?, Double.value?, reduceCtorEq, exists_false]

theorem lt_iff {x y : Number} {p q : ℚ} (hx : x.value? = some p) (hy : y.value? = some q) :
    x.lt y = true ↔ p < q := by
  cases x with
  | int a =>
    obtain rfl := Option.some.inj hx
    cases y with
    | int b =>
      obtain rfl := Option.some.inj hy
      simp [lt]
    | real y => exact Double.gtInt_iff hy a
  | real x =>
    cases y with
    | int b =>
      obtain rfl := Option.some.inj hy
      exact Double.ltInt_iff hx b
    | real y => exact Double.lt_iff hx hy

theorem same_iff {x y : Number} {p q : ℚ} (hx : x.value? = some p) (hy : y.value? = some q) :
    x.same y = true ↔ p = q := by
  cases x with
  | int a =>
    obtain rfl := Option.some.inj hx
    cases y with
    | int b =>
      obtain rfl := Option.some.inj hy
      simp [same]
    | real y => exact (Double.sameInt_iff hy a).trans eq_comm
  | real x =>
    cases y with
    | int b =>
      obtain rfl := Option.some.inj hy
      exact Double.sameInt_iff hx b
    | real y => exact Double.same_iff hx hy

theorem le_iff {x y : Number} {p q : ℚ} (hx : x.value? = some p) (hy : y.value? = some q) :
    x.le y = true ↔ p ≤ q := by
  rw [le, Bool.or_eq_true, lt_iff hx hy, same_iff hx hy, le_iff_lt_or_eq]

/-- A number that is an integer has that integer as its value. -/
theorem toInt?_eq_some_iff {x : Number} {n : Int} :
    x.toInt? = some n ↔ x.value? = some (n : ℚ) := by
  cases x with
  | int m => simp [toInt?]
  | real x =>
    cases x with
    | nan => simp [toInt?, value?, Double.value?, Double.isInteger]
    | infinity s => simp [toInt?, value?, Double.value?, Double.isInteger]
    | finite s u =>
      have hv : (Double.signed s u / Double.one : ℚ) = n ↔
          u % Double.one = 0 ∧ Double.signed s (u / Double.one) = n := by
        rw [div_eq_iff Double.one_pos.ne', ← Double.signed_eq_mul_one_iff]
        exact_mod_cast Iff.rfl
      simp only [toInt?, Double.isInteger, Double.truncate?, value?, Double.value?,
        Option.some.injEq, hv]
      simp

end Number

end Replay
