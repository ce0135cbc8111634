import Mathlib.Data.Rat.Floor
import Replay.Proofs.LimiterRetry

namespace Replay

namespace Double

variable {u c n : Nat} {x y : Double}

/-- The magnitude has no more bits than a double has. -/
def IsStored (x : Double) : Prop := ∀ s u, x = finite s u → IsKept u

theorem ofUnits_isStored {num den : Nat} (s : Bool) (hden : 0 < den) :
    (ofUnits s num den).IsStored := by
  intro t u h
  obtain ⟨-, rfl, -⟩ := ofUnits_eq_finite h
  exact isKept_nearest hden

theorem add_isStored (x y : Double) : (x.add y).IsStored := by
  intro s u h
  cases x with
  | nan => cases h
  | infinity a =>
    cases y with
    | nan => cases h
    | infinity b =>
      rw [add] at h
      split at h <;> cases h
    | finite b w => cases h
  | finite a v =>
    cases y with
    | nan => cases h
    | infinity b => cases h
    | finite b w =>
      simp only [add] at h
      split at h
      next =>
        obtain ⟨-, rfl⟩ := Double.finite.inj h
        exact Nat.dvd_zero _
      next => exact ofUnits_isStored _ Nat.one_pos s u h

/-- A sum of less than one more does not round below a whole number that it reaches. -/
theorem le_nearest_add (hu : IsKept u) (hc : c < one) (hn : n * one ≤ u + c) :
    n * one ≤ nearest (u + c) 1 := by
  rcases Nat.lt_or_ge u (2 ^ 53 * one) with hlt | hge
  · have hle : n ≤ 2 ^ 53 := by
      have hpos := units_pos
      by_contra hgt
      have hmul : (2 ^ 53 + 1) * one ≤ n * one := Nat.mul_le_mul_right _ (Nat.lt_of_not_le hgt)
      rw [Nat.add_mul] at hmul
      omega
    have hkept : IsKept n := by
      rcases Nat.lt_or_eq_of_le hle with hlt | rfl
      · exact isKept_of_lt hlt
      · exact isKept_two_pow 53
    exact le_nearest Nat.one_pos hkept.mul_one (by omega)
  · -- a double of this size is a whole number
    have hone : one ∣ spacing u := by
      obtain ⟨e, he⟩ := one_eq_two_pow
      refine Nat.dvd_trans ?_ (spacing_dvd hge)
      rw [he, ← Nat.pow_add, spacing, Nat.log2_two_pow]
      exact Nat.pow_dvd_pow 2 (by omega)
    obtain ⟨m, hm⟩ := hone.trans hu
    have hnm : n ≤ m := by
      by_contra hgt
      have hmul : (m + 1) * one ≤ n * one := Nat.mul_le_mul_right _ (Nat.lt_of_not_le hgt)
      rw [Nat.add_mul, Nat.mul_comm m] at hmul
      omega
    have hle : n * one ≤ u := by
      rw [hm, Nat.mul_comm one]
      exact Nat.mul_le_mul_right _ hnm
    exact hle.trans (le_nearest Nat.one_pos hu (by omega))

/-- The units of the double nearest to 999 thousandths. -/
def thousandths : Nat := 8998192055486251 * 2 ^ 1021

theorem ofDecimal_thousandths : ofDecimal false 999 (-3) = finite false thousandths := by
  decide +kernel

theorem thousandths_lt_one : thousandths < one := by
  decide +kernel

theorem one_and_thousandths :
    ∃ e, one = 2 ^ (e + 53) ∧ thousandths = 8998192055486251 * 2 ^ e := by
  refine ⟨1021, ?_, rfl⟩
  have hexponent : 1074 = 1021 + 53 := rfl
  rw [one, hexponent]

/-- From a thousandth on the fraction of a number above one is raised to one. -/
theorem one_le_mod_add (hu : IsKept u) (hone : one ≤ u) (h : one ≤ 1000 * (u % one)) :
    one ≤ u % one + thousandths := by
  obtain ⟨e, heq, hthousandths⟩ := one_and_thousandths
  have hsplit : one = 2 ^ 53 * 2 ^ e := by rw [heq, Nat.pow_add, Nat.mul_comm]
  have hstep : 2 * 2 ^ e ∣ u % one := by
    have hspacing : 2 * 2 ^ e ∣ spacing one := by
      have hlog : e + 53 - 52 = e + 1 := by omega
      rw [heq, spacing, Nat.log2_two_pow, hlog, Nat.pow_succ']
    have hdvd : 2 * 2 ^ e ∣ one := by
      rw [hsplit]
      exact Nat.mul_dvd_mul_right (by decide) _
    exact (Nat.dvd_mod_iff hdvd).mpr ((hspacing.trans (spacing_dvd hone)).trans hu)
  obtain ⟨g, hg⟩ := hstep
  rw [hg, hsplit] at h
  rw [hg, hsplit, hthousandths]
  have hbits : 2 ^ 53 ≤ 2000 * g := by
    refine Nat.le_of_mul_le_mul_right ?_ (Nat.two_pow_pos e)
    calc 2 ^ 53 * 2 ^ e ≤ 1000 * (2 * 2 ^ e * g) := h
      _ = 2000 * g * 2 ^ e := by ring
  calc 2 ^ 53 * 2 ^ e ≤ (2 * g + 8998192055486251) * 2 ^ e := Nat.mul_le_mul_right _ (by omega)
    _ = 2 * 2 ^ e * g + 8998192055486251 * 2 ^ e := by ring

/-- The whole seconds of a number and 999 thousandths fall short of it by less than a thousandth,
and not at all unless its own fraction is smaller than that. -/
theorem lt_floor_add (hu : IsKept u) (hone : one ≤ u) :
    let n := nearest (u + thousandths) 1 / one
    (u / one : ℚ) < n + 1 / 1000 ∧
      (Int.fract (u / one : ℚ) = 0 ∨ 1 / 1000 ≤ Int.fract (u / one : ℚ) → (u / one : ℚ) ≤ n) := by
  intro n
  have hpos : (0 : ℚ) < one := one_pos
  have hsplit : u / one * one + u % one = u := by rw [Nat.mul_comm]; exact Nat.div_add_mod u one
  have hreach (m : Nat) (hm : m * one ≤ u + thousandths) : m ≤ n :=
    (Nat.le_div_iff_mul_le units_pos).mpr (le_nearest_add hu thousandths_lt_one hm)
  have hfloor : u / one ≤ n := hreach _ (by omega)
  have hraise (h : one ≤ 1000 * (u % one)) : u / one + 1 ≤ n := by
    have hmod := one_le_mod_add hu hone h
    refine hreach _ ?_
    rw [Nat.add_mul]
    omega
  have hmod : u % one < one := Nat.mod_lt u units_pos
  have hfract : Int.fract (u / one : ℚ) = (u % one : Nat) / one :=
    Int.fract_div_natCast_eq_div_natCast_mod
  have hvalue : (u / one : ℚ) = (u / one : Nat) + (u % one : Nat) / one := by
    have hcast : (u : ℚ) = (u / one : Nat) * one + (u % one : Nat) := by exact_mod_cast hsplit.symm
    rw [div_eq_iff hpos.ne', add_mul, div_mul_cancel₀ _ hpos.ne']
    exact hcast
  rw [hfract, hvalue]
  by_cases h : one ≤ 1000 * (u % one)
  · have hn : ((u / one : Nat) : ℚ) + 1 ≤ n := by exact_mod_cast hraise h
    have hlt : ((u % one : Nat) : ℚ) / one < 1 := by
      rw [div_lt_one hpos]
      exact_mod_cast hmod
    exact ⟨by linarith, fun _ => by linarith⟩
  · have hn : ((u / one : Nat) : ℚ) ≤ n := by exact_mod_cast hfloor
    have hlt : ((u % one : Nat) : ℚ) / one < 1 / 1000 := by
      rw [div_lt_div_iff₀ hpos (by norm_num)]
      have hcast : ((1000 * (u % one) : Nat) : ℚ) < one := by exact_mod_cast Nat.lt_of_not_le h
      push_cast at hcast ⊢
      linarith
    refine ⟨by linarith, fun hsmall => ?_⟩
    rcases hsmall with hzero | hlarge
    · linarith
    · exact absurd hlarge (not_le.mpr hlt)

end Double

namespace Limiter

variable {l : Limiter} {caller : Text} {now later window limit : Number}

theorem roundingUp_eq : roundingUp = .real (.finite false Double.thousandths) := by
  rw [roundingUp, Double.ofDecimal_thousandths]

/-- What is left of a window of whole seconds is a double. -/
theorem toDouble_sub_isStored {w : Int} {age rest : Number} {x : Double}
    (hsub : (Number.int w).sub age = .ok rest) (hx : rest.toDouble = .ok x) : x.IsStored := by
  cases age with
  | int n =>
    obtain rfl : .int (w - n) = rest := Except.ok.inj hsub
    obtain ⟨hofInt, -⟩ := Double.ofInt?_eq_some (Number.ofInt?_of_toDouble hx)
    rw [← hofInt]
    exact Double.ofUnits_isStored _ Nat.one_pos
  | real a =>
    have hbind : ((Number.int w).toDouble >>= fun b => (Number.real a).toDouble >>= fun c =>
        pure (Number.real (b.sub c))) = .ok rest := hsub
    obtain ⟨b, -, hb⟩ := bind_eq_ok_iff.mp hbind
    obtain rfl : Number.real (b.sub a) = rest := Except.ok.inj hb
    obtain rfl : b.sub a = x := Except.ok.inj hx
    exact Double.add_isStored b a.neg

/-- The whole seconds of a sum with 999 thousandths. -/
theorem lt_truncate_add {x : Double} {r : ℚ} {seconds : Int} (hx : x.value? = some r)
    (hstored : x.IsStored) (hr : 1 < r)
    (h : (Number.real (x.add (.finite false Double.thousandths))).truncate = .ok seconds) :
    r < seconds + 1 / 1000 ∧ (Int.fract r = 0 ∨ 1 / 1000 ≤ Int.fract r → r ≤ seconds) := by
  obtain ⟨s, u, rfl, rfl⟩ := Double.value?_eq_some_iff.mp hx
  rw [one_lt_div Double.one_pos] at hr
  have hunits : (Double.one : Int) < Double.signed s u := by exact_mod_cast hr
  have hsign : s = false := by
    cases s with
    | false => rfl
    | true =>
      have hnegative : Double.signed true u = -(u : Int) := rfl
      omega
  subst hsign
  have hone : Double.one ≤ u := by
    have hu : Double.signed false u = u := rfl
    omega
  have hsum : Double.signed false u + Double.signed false Double.thousandths =
      (u + Double.thousandths : Nat) := rfl
  have hpositive : (0 : Int) < (u + Double.thousandths : Nat) := by
    have hpos := Double.units_pos
    omega
  have hadd : (Double.finite false u).add (.finite false Double.thousandths) =
      .ofUnits false (u + Double.thousandths) 1 := by
    rw [Double.add, hsum, if_neg hpositive.ne', decide_eq_false hpositive.le.not_gt,
      Int.natAbs_natCast]
  rw [hadd] at h
  rcases Nat.lt_or_ge (Double.nearest (u + Double.thousandths) 1) Double.overflow with hlt | hge
  · rw [Double.ofUnits_of_lt _ hlt] at h
    obtain rfl := Except.ok.inj h
    exact Double.lt_floor_add (hstored false u rfl) hone
  · rw [Double.ofUnits_of_ge _ hge] at h
    cases h

/-- What is left of the window after the earlier reading can be told exactly at the later one. -/
def ExactlyLeft (window earlier later : Number) : Prop :=
  ∃ w p q age rest x, window.value? = some w ∧ earlier.value? = some p ∧ later.value? = some q ∧
    later.sub earlier = .ok age ∧ window.sub age = .ok rest ∧ rest.toDouble = .ok x ∧
      x.value? = some (w - (q - p))

theorem add_roundingUp {n sum : Number} {x : Double} (hx : n.toDouble = .ok x)
    (h : n.add roundingUp = .ok sum) : sum = .real (x.add (.finite false Double.thousandths)) := by
  have hbind : (n.toDouble >>= fun a => (Number.real (.finite false Double.thousandths)).toDouble
      >>= fun b => pure (Number.real (a.add b))) = .ok sum := by
    rw [roundingUp_eq] at h
    cases n <;> exact h
  rw [hx] at hbind
  exact (Except.ok.inj hbind).symm

theorem retryAfter_of_exactlyLeft {w k : Int} {p q : ℚ} {oldest : Number} {times : List Number}
    (htimes : l.times caller = oldest :: times) (holdest : oldest.value? = some p)
    (hlater : later.value? = some q) (hleft : ExactlyLeft (.int w) oldest later)
    (h : l.retryAfter later caller (.int w) = .ok k) :
    1 ≤ k ∧ w - (q - p) < k + 1 / 1000 ∧
      (Int.fract (w - (q - p)) = 0 ∨ 1 / 1000 ≤ Int.fract (w - (q - p)) → w - (q - p) ≤ k) := by
  obtain ⟨w', p', q', age, rest, x, hw, hp, hq, hage, hrest, hx, hvalue⟩ := hleft
  obtain rfl : (w : ℚ) = w' := Option.some.inj hw
  obtain rfl : p = p' := Option.some.inj (holdest.symm.trans hp)
  obtain rfl : q = q' := Option.some.inj (hlater.symm.trans hq)
  rw [retryAfter, htimes] at h
  obtain ⟨age', hage', h⟩ := bind_eq_ok_iff.mp h
  obtain rfl := Except.ok.inj (hage.symm.trans hage')
  obtain ⟨rest', hrest', h⟩ := bind_eq_ok_iff.mp h
  obtain rfl := Except.ok.inj (hrest.symm.trans hrest')
  obtain ⟨sum, hsum, h⟩ := bind_eq_ok_iff.mp h
  obtain rfl := add_roundingUp hx hsum
  obtain ⟨seconds, hseconds, h⟩ := bind_eq_ok_iff.mp h
  obtain rfl : max 1 seconds = k := Except.ok.inj h
  have hone : (1 : ℚ) ≤ (max 1 seconds : Int) := by exact_mod_cast le_max_left 1 seconds
  refine ⟨le_max_left 1 seconds, ?_⟩
  rcases le_or_gt ((w : ℚ) - (q - p)) 1 with hle | hgt
  · exact ⟨by linarith, fun _ => hle.trans hone⟩
  · have hstored := toDouble_sub_isStored hrest hx
    obtain ⟨hlt, hexact⟩ := lt_truncate_add hvalue hstored hgt hseconds
    have hmax : (seconds : ℚ) ≤ (max 1 seconds : Int) := by exact_mod_cast le_max_right 1 seconds
    exact ⟨by linarith, fun hfract => (hexact hfract).trans hmax⟩

/-- The operation leaves alone what is kept of the caller. -/
def Operation.Spares {α : Type} (caller : Text) : Operation α → Prop
  | allow _ other _ _ => other ≠ caller
  | retryAfter _ _ _ => True
  | reset => False

/-- The caller is held to this limit. -/
def Operation.IsHeldTo {α : Type} (caller : Text) (limit : α) : Operation α → Prop
  | allow _ other limit' _ => other = caller → limit' = limit
  | retryAfter _ _ _ => True
  | reset => True

theorem times_after_of_spares {op : Operation Number} (h : op.Spares caller) :
    (l.after op).times caller = l.times caller := by
  cases op with
  | allow now other limit window =>
    have hne : caller ≠ other := Ne.symm h
    exact times_ask_of_ne (d := ⟨now, other, limit, window⟩) hne
  | retryAfter now other window => rfl
  | reset => exact h.elim

theorem times_run_of_spares {ops : List (Operation Number)}
    (h : ∀ op ∈ ops, op.Spares caller) : (l.run ops).times caller = l.times caller := by
  induction ops generalizing l with
  | nil => rfl
  | cons op rest ih =>
    obtain ⟨hop, hrest⟩ := List.forall_mem_cons.mp h
    exact (ih hrest).trans (times_after_of_spares hop)

/-- No more times are kept of a caller than its limit, and each is the reading at which it was
admitted. -/
theorem times_after {m : Int} {op : Operation Number} {readings : List Number}
    (hop : op.IsHeldTo caller (.int m)) (hlength : (l.times caller).length ≤ m.toNat)
    (hsub : l.times caller ⊆ readings) :
    ((l.after op).times caller).length ≤ m.toNat ∧
      (l.after op).times caller ⊆ readings ++ op.reading?.toList := by
  have hweak : l.times caller ⊆ readings ++ op.reading?.toList :=
    List.subset_append_of_subset_left _ hsub
  cases op with
  | retryAfter now other window => exact ⟨hlength, hweak⟩
  | reset => exact ⟨Nat.zero_le _, List.nil_subset _⟩
  | allow now other limit window =>
    by_cases hother : other = caller
    · obtain rfl : limit = .int m := hop hother
      subst hother
      obtain ⟨past, kept, htimes, -, hafter, hroom⟩ := times_ask l ⟨now, other, .int m, window⟩
      change l.times other = past ++ kept at htimes
      rw [htimes, List.length_append] at hlength
      rw [htimes] at hweak
      have hkept : kept ⊆ readings ++ [now] := fun t ht => hweak (List.mem_append_right _ ht)
      change (l.after (.allow now other (.int m) window)).times other = _ at hafter
      rw [hafter]
      split
      next hadmitted =>
        have hlt := length_lt_of_le (hroom hadmitted)
        refine ⟨?_, List.append_subset.mpr ⟨hkept, List.subset_append_right _ _⟩⟩
        rw [List.length_append, List.length_singleton]
        omega
      next =>
        rw [List.append_nil]
        exact ⟨by omega, hkept⟩
    · have hspares : (Operation.allow now other limit window).Spares caller := hother
      rw [times_after_of_spares hspares]
      exact ⟨hlength, hweak⟩

theorem times_run {m : Int} {ops : List (Operation Number)} {readings : List Number}
    (hops : ∀ op ∈ ops, op.IsHeldTo caller (.int m)) (hlength : (l.times caller).length ≤ m.toNat)
    (hsub : l.times caller ⊆ readings) :
    ((l.run ops).times caller).length ≤ m.toNat ∧
      (l.run ops).times caller ⊆ readings ++ ops.filterMap Operation.reading? := by
  induction ops generalizing l readings with
  | nil =>
    rw [List.filterMap_nil, List.append_nil]
    exact ⟨hlength, hsub⟩
  | cons op rest ih =>
    obtain ⟨hop, hrest⟩ := List.forall_mem_cons.mp hops
    obtain ⟨hlength, hsub⟩ := times_after hop hlength hsub
    obtain ⟨hlength, hsub⟩ := ih hrest hlength hsub
    refine ⟨hlength, ?_⟩
    have hsplit : (op :: rest).filterMap Operation.reading? =
        op.reading?.toList ++ rest.filterMap Operation.reading? := by
      rw [List.filterMap_cons]
      cases op.reading? <;> rfl
    rw [hsplit, ← List.append_assoc]
    exact hsub

/-- Of sorted times one no longer counts exactly if the oldest does not. -/
theorem countP_lt_length_iff {oldest q w : ℚ} {rest : List ℚ}
    (hsorted : (oldest :: rest).Pairwise (· ≤ ·)) :
    (oldest :: rest).countP (fun t => q - t < w) < (oldest :: rest).length ↔ w ≤ q - oldest := by
  rw [Nat.lt_iff_le_and_ne, and_iff_right List.countP_le_length, Ne, List.countP_eq_length]
  constructor
  · intro h
    by_contra hcounts
    refine h fun t ht => decide_eq_true ?_
    have hle : oldest ≤ t := by
      rcases List.mem_cons.mp ht with rfl | ht
      · exact le_rfl
      · exact (List.pairwise_cons.mp hsorted).1 t ht
    linarith
  · intro hpast hall
    have hcounts := of_decide_eq_true (hall oldest List.mem_cons_self)
    linarith

/-- At a later reading those of the earlier one that are not yet as old as the window count. -/
theorem countP_filter_of_le {q r w : ℚ} (times : List ℚ) (hle : q ≤ r) :
    (times.filter fun t => q - t < w).countP (fun t => r - t < w) =
      times.countP fun t => r - t < w := by
  rw [List.countP_filter]
  apply List.countP_congr
  intro t _
  rw [Bool.and_eq_true, decide_eq_true_iff, decide_eq_true_iff]
  exact ⟨fun hboth => hboth.1, fun hcounts => ⟨hcounts, by linarith⟩⟩

section

variable {windows : Text → ℚ} {q r : ℚ} {future : List Number} {h : History} {m w : Int}

/-- A request is refused only if as many admissions count as the limit, and those are what is kept
then. -/
theorem kept_of_refused (hwindow : windows caller = w) (hpos : 1 ≤ w) (hm : 1 ≤ m)
    (ht : Tracks windows (now :: future) l h) (hnow : now.value? = some q)
    (hlater : ∀ later ∈ future, ExactlyAfter now later)
    (hlength : (l.times caller).length ≤ m.toNat)
    (hrefused : (l.allow now caller (.int m) (.int w)).1 = .ok false) :
    ∃ oldest rest, (h caller).filter (fun t => q - t < w) = oldest :: rest ∧
      (oldest :: rest).Pairwise (· ≤ ·) ∧ ((oldest :: rest).length : Int) = m ∧
      Valued ((l.after (.allow now caller (.int m) (.int w))).times caller) (oldest :: rest) ∧
      Tracks windows future (l.after (.allow now caller (.int m) (.int w))) h := by
  obtain ⟨hverdict, htracks, hvalued⟩ := allow_of_tracks ht hnow (Number.value?_int m)
    (hwindow ▸ Number.value?_int w) hlater
  have hnot : ¬ h.Allows q caller m w := by
    rw [hwindow] at hverdict
    exact of_decide_eq_false (Except.ok.inj (hverdict.symm.trans hrefused))
  have hsame : h.after (.allow q caller m w) = h := if_neg hnot
  rw [hwindow, hsame] at htracks hvalued
  have hkept := hvalued (by exact_mod_cast hpos)
  have hsorted : ((h caller).filter fun t => q - t < w).Pairwise (· ≤ ·) := by
    obtain ⟨values, hcounts⟩ := ht caller
    rw [← hwindow, ← hcounts.counting now List.mem_cons_self q hnow]
    exact hcounts.sorted.filter _
  have hfew : ((h caller).filter fun t => q - t < w).length ≤ m.toNat := by
    rw [← hkept.length_eq]
    have hheld : (Operation.allow now caller (.int m) (.int w)).IsHeldTo caller (.int m) :=
      fun _ => rfl
    exact (times_after hheld hlength (List.Subset.refl _)).1
  have hmany : m ≤ ((h caller).filter fun t => q - t < w).length := by
    rw [History.Allows, not_lt, List.countP_eq_length_filter] at hnot
    exact_mod_cast hnot
  generalize (h caller).filter (fun t => q - t < w) = counting at hkept hsorted hfew hmany ⊢
  cases counting with
  | nil =>
    have hzero : (([] : List ℚ).length : Int) = 0 := rfl
    omega
  | cons oldest rest => exact ⟨oldest, rest, rfl, hsorted, by omega, hkept, htracks⟩

/-- A caller that was refused is admitted from the reading on at which the oldest of its requests is
as old as the window. -/
theorem allow_after_refused {other : Number} {oldest : ℚ} {rest : List ℚ}
    (hwindow : windows caller = w) (ht : Tracks windows [other] l h)
    (hother : other.value? = some r)
    (hcounting : (h caller).filter (fun t => q - t < w) = oldest :: rest)
    (hsorted : (oldest :: rest).Pairwise (· ≤ ·)) (hlength : ((oldest :: rest).length : Int) = m)
    (hle : q ≤ r) :
    (l.allow other caller (.int m) (.int w)).1 = .ok (decide (w ≤ r - oldest)) := by
  obtain ⟨hverdict, -, -⟩ := allow_of_tracks ht hother (Number.value?_int m)
    (hwindow ▸ Number.value?_int w) (by simp)
  rw [hwindow] at hverdict
  rw [hverdict, Except.ok.injEq, decide_eq_decide, ← countP_lt_length_iff hsorted, ← hcounting,
    countP_filter_of_le _ hle, hcounting, History.Allows, ← hlength]
  exact_mod_cast Iff.rfl

end

/-- The answer to a refused caller. The limiter keeps the times of as many admissions as the limit;
the caller is admitted again exactly from the reading on at which the window has passed since the
oldest of them, and the seconds that it is told are at least one and fall short of that by less than
a thousandth. They do not fall short at all unless what is left exceeds whole seconds by less than a
thousandth. -/
theorem allow_after_wait {windows : Text → ℚ} {m w k : Int} {ops between : List (Operation Number)}
    {exact : List (Operation ℚ)} {q q' : ℚ} (hm : 1 ≤ m) (hw : 1 ≤ w)
    (hwindow : windows caller = w) (hvalues : List.Forall₂ Operation.HasValues ops exact)
    (hkeeps : ∀ op ∈ exact, op.Keeps windows) (hheld : ∀ op ∈ ops, op.IsHeldTo caller (.int m))
    (hclock : (ops.filterMap Operation.reading? ++ [now]).Pairwise ExactlyAfter)
    (hnow : now.value? = some q) (hlater : later.value? = some q')
    (hleft : ∀ n ∈ ops.filterMap Operation.reading? ++ [now], ExactlyLeft (.int w) n later)
    (hrefused : ((empty.run ops).allow now caller (.int m) (.int w)).1 = .ok false)
    (hbetween : ∀ op ∈ between, op.Spares caller)
    (hwait : (((empty.run ops).after (.allow now caller (.int m) (.int w))).run
      between).retryAfter later caller (.int w) = .ok k) :
    ∃ oldest ∈ History.empty.run exact caller,
      let left := w - (q' - oldest)
      1 ≤ k ∧ left < k + 1 / 1000 ∧ (Int.fract left = 0 ∨ 1 / 1000 ≤ Int.fract left → left ≤ k) ∧
        ∀ others other r, (∀ op ∈ others, op.Spares caller) → other.value? = some r →
          (∀ n ∈ ops.filterMap Operation.reading? ++ [now], ExactlyAfter n other) →
          ((((empty.run ops).after (.allow now caller (.int m) (.int w))).run others).allow other
            caller (.int m) (.int w)).1 = .ok (decide (q' + left ≤ r)) := by
  have hempty : (empty.times caller).length ≤ m.toNat := Nat.zero_le _
  have hnone : empty.times caller ⊆ [] := List.nil_subset []
  obtain ⟨hlength, hsub⟩ := times_run hheld hempty hnone
  have htracks {future : List Number}
      (hfuture : (ops.filterMap Operation.reading? ++ now :: future).Pairwise ExactlyAfter) :
      Tracks windows (now :: future) (empty.run ops) (History.empty.run exact) :=
    (run_tracks hvalues hfuture hkeeps (tracks_empty _ _)).2
  obtain ⟨oldest, rest, hcounting, hsorted, hcount, hkept, -⟩ :=
    kept_of_refused hwindow hw hm (htracks hclock) hnow (by simp) hlength hrefused
  have hmem : oldest ∈ History.empty.run exact caller :=
    List.mem_of_mem_filter (hcounting ▸ List.mem_cons_self)
  obtain ⟨first, times, hfirst, -, htimes⟩ := List.forall₂_cons_right_iff.mp hkept
  have hread : first ∈ ops.filterMap Operation.reading? ++ [now] := by
    have hheld : (Operation.allow now caller (.int m) (.int w)).IsHeldTo caller (.int m) :=
      fun _ => rfl
    exact (times_after hheld hlength hsub).2 (htimes ▸ List.mem_cons_self)
  have hsame {others : List (Operation Number)} (h : ∀ op ∈ others, op.Spares caller) :
      (((empty.run ops).after (.allow now caller (.int m) (.int w))).run others).times caller =
        first :: times := (times_run_of_spares h).trans htimes
  obtain ⟨hone, hshort, hexact⟩ := retryAfter_of_exactlyLeft (hsame hbetween) hfirst hlater
    (hleft first hread) hwait
  refine ⟨oldest, hmem, hone, hshort, hexact, fun others other r hothers hother hlast => ?_⟩
  have hlong : (ops.filterMap Operation.reading? ++ [now, other]).Pairwise ExactlyAfter := by
    rw [List.append_cons, List.pairwise_append]
    refine ⟨hclock, List.pairwise_singleton _ _, fun n hn last hmem => ?_⟩
    obtain rfl := List.mem_singleton.mp hmem
    exact hlast n hn
  obtain ⟨p, r', -, hp, hr, hle, -⟩ := hlast now (by simp)
  obtain rfl : q = p := Option.some.inj (hnow.symm.trans hp)
  obtain rfl : r = r' := Option.some.inj (hother.symm.trans hr)
  obtain ⟨-, -, -, -, -, -, hafter⟩ := kept_of_refused hwindow hw hm (htracks hlong) hnow
    (by simpa using hlast now (by simp)) hlength hrefused
  have hverdict := allow_after_refused hwindow hafter hother hcounting hsorted hcount hle
  have hcongr := ask_congr (d := ⟨other, caller, .int m, .int w⟩)
    (htimes.trans (hsame hothers).symm)
  refine hcongr.1.symm.trans (hverdict.trans ?_)
  rw [Except.ok.injEq, decide_eq_decide]
  constructor <;> intro h <;> linarith

/-- A caller that is refused with a little more than a second left is told to wait for one second,
and when that has passed it is refused again. -/
theorem refused_after_wait :
    let a : Text := "a"
    let reading (n : Nat) : Number := .real (.ofFraction false n 2048)
    let ops : List (Operation Number) := [.allow (.int 0) a (.int 1) (.int 10)]
    let refused := (empty.run ops).after (.allow (reading 18431) a (.int 1) (.int 10))
    ((empty.run ops).allow (reading 18431) a (.int 1) (.int 10)).1 = .ok false ∧
      refused.retryAfter (reading 18431) a (.int 10) = .ok 1 ∧
      (refused.allow (reading (18431 + 2048)) a (.int 1) (.int 10)).1 = .ok false ∧
      (refused.allow (reading (18431 + 2049)) a (.int 1) (.int 10)).1 = .ok true := by
  intro a reading ops refused
  have hrefused : ((empty.run ops).allow (reading 18431) a (.int 1) (.int 10)).1 = .ok false := by
    decide +kernel
  have hwait : (refused.run []).retryAfter (reading 18431) a (.int 10) = .ok 1 := by decide +kernel
  let exact : List (Operation ℚ) := [.allow 0 a 1 10]
  have hvalues : List.Forall₂ Operation.HasValues ops exact := by
    repeat' constructor
  have hkeeps : ∀ op ∈ exact, op.Keeps fun _ => 10 := by simp [exact, Operation.Keeps]
  have hheld : ∀ op ∈ ops, op.IsHeldTo a (.int 1) := by simp [ops, Operation.IsHeldTo]
  have hclock : (ops.filterMap Operation.reading? ++ [reading 18431]).Pairwise ExactlyAfter := by
    have hlater : ExactlyAfter (.int 0) (reading 18431) :=
      ⟨0, 18431 / 2048, reading 18431, by decide +kernel⟩
    exact .cons (List.forall_mem_singleton.mpr hlater) (List.pairwise_singleton _ _)
  have hleft : ∀ n ∈ ops.filterMap Operation.reading? ++ [reading 18431],
      ExactlyLeft (.int 10) n (reading 18431) := by
    have hzero : ExactlyLeft (.int 10) (.int 0) (reading 18431) :=
      ⟨10, 0, 18431 / 2048, reading 18431, reading 2049, .ofFraction false 2049 2048,
        by decide +kernel⟩
    have hsame : ExactlyLeft (.int 10) (reading 18431) (reading 18431) :=
      ⟨10, 18431 / 2048, 18431 / 2048, reading 0, reading 20480, .ofFraction false 10 1,
        by decide +kernel⟩
    exact List.forall_mem_cons.mpr ⟨hzero, List.forall_mem_singleton.mpr hsame⟩
  have hnow : (reading 18431).value? = some (18431 / 2048) := by decide +kernel
  have hten : ((10 : Int) : ℚ) = 10 := by norm_num
  have hnone : ∀ op ∈ ([] : List (Operation Number)), op.Spares a := by simp
  obtain ⟨oldest, hmem, -, -, -, hallow⟩ := allow_after_wait (m := 1) (w := 10) (by decide)
    (by decide) hten.symm hvalues hkeeps hheld hclock hnow hnow hleft hrefused hnone hwait
  have hhistory : History.empty.run exact a = [0] := by decide +kernel
  obtain rfl : oldest = 0 := List.mem_singleton.mp (hhistory ▸ hmem)
  have hlater (other d : Number) (r : ℚ) (hother : other.value? = some r)
      (hle : 18431 / 2048 ≤ r) (hzero : other.sub (.int 0) = .ok other)
      (hsub : other.sub (reading 18431) = .ok d) (hd : d.value? = some (r - 18431 / 2048)) :
      (refused.allow other a (.int 1) (.int 10)).1 = .ok (decide (10 ≤ r)) := by
    have hfirst : ExactlyAfter (.int 0) other := by
      refine ⟨0, r, other, rfl, hother, by linarith, hzero, ?_⟩
      rw [hother, sub_zero]
    have hsecond : ExactlyAfter (reading 18431) other :=
      ⟨18431 / 2048, r, d, hnow, hother, hle, hsub, hd⟩
    have hend : (18431 / 2048 + (((10 : Int) : ℚ) - (18431 / 2048 - 0))) = 10 := by norm_num
    have hallowed := hallow [] other r hnone hother
      (List.forall_mem_cons.mpr ⟨hfirst, List.forall_mem_singleton.mpr hsecond⟩)
    rw [hend] at hallowed
    exact hallowed
  refine ⟨hrefused, hwait, ?_, ?_⟩
  · refine (hlater _ (.real (.ofFraction false 1 1)) (20479 / 2048) ?_ ?_ ?_ ?_ ?_).trans ?_ <;>
      decide +kernel
  · refine (hlater _ (.real (.ofFraction false 2049 2048)) 10 ?_ ?_ ?_ ?_ ?_).trans ?_ <;>
      decide +kernel

end Limiter

end Replay
