import Mathlib.Logic.Relation
import Replay.Proofs.LimiterQuota

namespace Replay

theorem Number.int_le_ofUnits {n : Nat} (hn : 0 < n) (d : Nat) :
    (Number.int n).le (.real (.ofUnits true d 1)) = false := by
  rcases Double.ofUnits_cases true d 1 with ⟨u, hu⟩ | hinfinite
  · rw [hu, ← Bool.not_eq_true, Number.le_iff (Number.value?_int n) rfl, not_le]
    have hnegative : ((Double.signed true u : ℤ) : ℚ) ≤ 0 := by simp [Double.signed]
    have hpos : (0 : ℚ) < (n : ℤ) := by exact_mod_cast hn
    exact (div_nonpos_of_nonpos_of_nonneg hnegative Double.one_pos.le).trans_lt hpos
  · rw [hinfinite]
    rfl

namespace Limiter

variable {l : Limiter} {d : Demand} {caller : Text} {window now s t : Number} {age delay : ℚ}
  {readings : List Number} {n m : Nat}

/-- If the one reading has passed at the other, then it is smaller by the age at least; which of
them is the larger one is not known. -/
def Dates (window : Number) (age : ℚ) (s t : Number) : Prop :=
  ∃ p q, s.value? = some p ∧ t.value? = some q ∧ (isPast t window s = .ok true → p + age ≤ q)

theorem Dates.precedes (h : Dates window age s t) (hpast : isPast t window s = .ok true) :
    s.Precedes age t := by
  obtain ⟨p, q, hp, hq, hage⟩ := h
  exact ⟨p, q, hp, hq, hage hpast⟩

/-- The difference of the readings is exact. -/
def ExactlyApart (s t : Number) : Prop :=
  ∃ p q v, s.value? = some p ∧ t.value? = some q ∧ t.sub s = .ok v ∧ v.value? = some (q - p)

theorem exactlyApart_int (a b : Int) : ExactlyApart (.int a) (.int b) :=
  ⟨a, b, .int (b - a), rfl, rfl, rfl, by simp⟩

theorem dates_of_exactlyApart (h : ExactlyApart s t) : Dates (.int n) n s t := by
  obtain ⟨p, q, v, hp, hq, hsub, hv⟩ := h
  refine ⟨p, q, hp, hq, fun hpast => ?_⟩
  rw [isPast_of_sub (Number.value?_int n) hsub hv, Except.ok.injEq, decide_eq_true_iff,
    Int.cast_natCast] at hpast
  linarith

theorem dates_of_doubles {x y : Double} {p q : ℚ} (hpos : 0 < n) (hn : n ≤ 2 ^ 1024)
    (hx : x.value? = some p) (hy : y.value? = some q) :
    Dates (.int n) (leastAge n) (.real x) (.real y) := by
  rcases le_or_gt p q with hle | hlt
  · obtain ⟨p, q, hp, hq, -, hage⟩ := ages_of_doubles hn hx hy hle
    exact ⟨p, q, hp, hq, hage⟩
  · refine ⟨p, q, hx, hy, fun hpast => ?_⟩
    have hle : (Number.int n).le (.real (y.sub x)) = true := Except.ok.inj hpast
    obtain ⟨d, hsub⟩ := Double.sub_of_lt hx hy hlt
    rw [hsub, Number.int_le_ofUnits hpos] at hle
    cases hle

theorem leastAge_nonneg (n : Nat) : 0 ≤ leastAge n :=
  div_nonneg (mul_nonneg (Nat.cast_nonneg n) (by norm_num)) (by norm_num)

/-- The readings of a clock with the least age at which one of them can have passed at another:
the window itself if all their differences are exact, and slightly less for doubles. -/
inductive IsTimed (n : Nat) (readings : List Number) : ℚ → Prop
  | exact (h : ∀ s ∈ readings, ∀ t ∈ readings, ExactlyApart s t) : IsTimed n readings n
  | rounded (hn : n ≤ 2 ^ 1024) (h : ∀ t ∈ readings, ∃ x q, t = .real x ∧ x.value? = some q) :
      IsTimed n readings (leastAge n)

theorem IsTimed.dates (h : IsTimed n readings age) (hpos : 0 < n) (hs : s ∈ readings)
    (ht : t ∈ readings) : Dates (.int n) age s t := by
  cases h with
  | exact h => exact dates_of_exactlyApart (h s hs t ht)
  | rounded hn h =>
    obtain ⟨x, p, rfl, hp⟩ := h s hs
    obtain ⟨y, q, rfl, hq⟩ := h t ht
    exact dates_of_doubles hpos hn hp hq

theorem IsTimed.of_subset {earlier : List Number} (h : IsTimed n readings age)
    (hsub : earlier ⊆ readings) : IsTimed n earlier age := by
  cases h with
  | exact h => exact .exact fun s hs t ht => h s (hsub hs) t (hsub ht)
  | rounded hn h => exact .rounded hn fun t ht => h t (hsub ht)

theorem IsTimed.age_nonneg (h : IsTimed n readings age) : 0 ≤ age := by
  cases h with
  | exact => exact Nat.cast_nonneg n
  | rounded => exact leastAge_nonneg n

/-- A caller with one admission or none is refused only because that one still counts. -/
theorem times_ask_of_refused (hlimit : d.limit.le (.int 0) = false)
    (hrefused : ¬ l.isAdmitted d = true) (hsingle : (l.times d.caller).length ≤ 1) :
    (l.ask d).2.times d.caller = l.times d.caller := by
  unfold isAdmitted at hrefused
  unfold ask allow at hrefused ⊢
  cases htimes : l.times d.caller with
  | nil =>
    rw [htimes] at hrefused
    simp [evict, hlimit, Except.toOption] at hrefused
  | cons t rest =>
    obtain rfl : rest = [] := by
      rw [htimes, List.length_cons] at hsingle
      exact List.length_eq_zero_iff.mp (by omega)
    rw [htimes] at hrefused
    cases hpast : isPast d.now d.window t with
    | error e => simp [evict, hpast, times_put]
    | ok past =>
      cases past with
      | true => simp [evict, hpast, hlimit, Except.toOption] at hrefused
      | false =>
        simp only [evict, hpast] at hrefused ⊢
        split
        next => simp [times_put]
        next hroom =>
          rw [if_neg hroom] at hrefused
          exact absurd rfl hrefused

theorem isPast_int (n : Nat) (a b : Int) :
    isPast (.int b) (.int n) (.int a) = .ok (decide ((n : Int) ≤ b - a)) := by
  have hle : (Number.int n).le (.int (b - a)) = decide ((n : Int) ≤ b - a) := by
    rw [Bool.eq_iff_iff, Number.le_iff (Number.value?_int _) (Number.value?_int _),
      decide_eq_true_iff, Int.cast_le]
  rw [← hle]
  rfl

theorem le_int_of_lt {k : Int} (h : k < m) : (Number.int m).le (.int k) = false := by
  rw [← Bool.not_eq_true, Number.le_iff (Number.value?_int m) (Number.value?_int k), not_le]
  exact_mod_cast h

theorem evict_of_past {times : List Number} (h : ∀ t ∈ times, isPast now window t = .ok true) :
    evict now window times = (.ok (), []) := by
  induction times with
  | nil => rfl
  | cons t rest ih =>
    rw [evict, h t List.mem_cons_self]
    exact ih fun u hu => h u (List.mem_cons_of_mem _ hu)

theorem ask_of_past (h : ∀ t ∈ l.times d.caller, isPast d.now d.window t = .ok true)
    (hlimit : d.limit.le (.int 0) = false) :
    l.isAdmitted d = true ∧ (l.ask d).2.times d.caller = [d.now] := by
  have hask : l.ask d = (.ok true, ⟨l.windows.put d.caller [d.now]⟩) := by
    rw [ask, allow, evict_of_past h]
    exact if_neg (by simp [hlimit])
  rw [isAdmitted, hask]
  exact ⟨by simp [Except.toOption], by simp [times_put]⟩

theorem isAdmitted_of_single (htimes : l.times d.caller = [t])
    (hpast : isPast d.now d.window t = .ok false) (hlimit : d.limit.le (.int 1) = false) :
    l.isAdmitted d = true := by
  rw [isAdmitted, ask, allow, htimes, evict, hpast]
  simp [hlimit, Except.toOption]

/-- Requests of one caller on their way through the limiter. -/
structure Race where
  limiter : Limiter
  /-- What the clock has been read as so far. -/
  readings : List Number
  /-- The readings of the requests that have not been let into the limiter. -/
  waiting : List Number
  /-- The readings of the others, in the order of their turns. -/
  entered : List Number
  admitted : List Number

namespace Race

def start (l : Limiter) : Race := ⟨l, [], [], [], []⟩

def read (race : Race) (now : Number) : Race :=
  { race with readings := race.readings ++ [now], waiting := race.waiting ++ [now] }

/-- One request has its turn, the others wait on. -/
def enter (race : Race) (d : Demand) (waiting : List Number) : Race where
  limiter := (race.limiter.ask d).2
  readings := race.readings
  waiting := waiting
  entered := race.entered ++ [d.now]
  admitted := race.admitted ++ if race.limiter.isAdmitted d = true then [d.now] else []

/-- The clock does not go back, and any request that waits may be the next one. -/
inductive Step (caller : Text) (limit window : Number) (race : Race) : Race → Prop
  | read (now : Number) (hclock : ∀ earlier ∈ race.readings, earlier.le now = true) :
      Step caller limit window race (race.read now)
  | enter (before : List Number) (now : Number) (after : List Number)
      (hwaiting : race.waiting = before ++ now :: after) :
      Step caller limit window race (race.enter ⟨now, caller, limit, window⟩ (before ++ after))

def Reaches (caller : Text) (limit window : Number) (l : Limiter) : Race → Prop :=
  Relation.ReflTransGen (Step caller limit window) (start l)

variable {race next : Race} {limit : Number} {waiting : List Number}

/-- The times that are kept are among the readings, as those of the requests are. -/
structure IsRead (caller : Text) (race : Race) : Prop where
  waiting : race.waiting ⊆ race.readings
  entered : race.entered ⊆ race.readings
  times : race.limiter.times caller ⊆ race.readings

theorem IsRead.step (h : race.IsRead caller) (hstep : Step caller limit window race next) :
    next.IsRead caller := by
  cases hstep with
  | read now hclock =>
    refine ⟨?_, fun t ht => List.mem_append_left _ (h.entered ht),
      fun t ht => List.mem_append_left _ (h.times ht)⟩
    exact List.append_subset.mpr ⟨fun t ht => List.mem_append_left _ (h.waiting ht),
      List.subset_append_right _ _⟩
  | enter before now after hwaiting =>
    have hsub : before ++ now :: after ⊆ race.readings := hwaiting ▸ h.waiting
    have hnow : now ∈ race.readings := hsub (List.mem_append_right _ List.mem_cons_self)
    obtain ⟨past, kept, htimes, -, hafter, -⟩ :=
      times_ask race.limiter ⟨now, caller, limit, window⟩
    refine ⟨fun t ht => hsub ?_, ?_, fun t ht => ?_⟩
    · rcases List.mem_append.mp ht with ht | ht
      · exact List.mem_append_left _ ht
      · exact List.mem_append_right _ (List.mem_cons_of_mem _ ht)
    · exact List.append_subset.mpr ⟨h.entered, List.cons_subset.mpr ⟨hnow, List.nil_subset _⟩⟩
    · have ht : t ∈ kept ++ _ := hafter ▸ ht
      rcases List.mem_append.mp ht with ht | ht
      · exact h.times (htimes ▸ List.mem_append_right _ ht)
      · split at ht
        · exact List.mem_singleton.mp ht ▸ hnow
        · cases ht

theorem Reaches.isRead (h : Reaches caller limit window l race) (hempty : l.times caller = []) :
    race.IsRead caller := by
  induction h with
  | refl => exact ⟨List.Subset.refl _, List.Subset.refl _, hempty ▸ List.Subset.refl _⟩
  | tail _ hstep ih => exact ih.step hstep

/-- What has been read stays, and the turns that have been had stay the first ones. -/
theorem Step.grows (h : Step caller limit window race next) :
    race.readings ⊆ next.readings ∧ race.entered <+: next.entered := by
  cases h with
  | read now hclock => exact ⟨List.subset_append_left _ _, List.prefix_rfl⟩
  | enter before now after hwaiting => exact ⟨List.Subset.refl _, List.prefix_append _ _⟩

/-- With a limit of one nothing but the last admission is kept, and those before it are so long ago
that no two admissions are in one stretch. -/
structure IsSpaced (caller : Text) (age : ℚ) (race : Race) : Prop where
  split : ∃ gone, race.admitted = gone ++ race.limiter.times caller ∧
    ∀ s ∈ gone, ∃ t ∈ race.limiter.times caller, s.Precedes age t
  single : (race.limiter.times caller).length ≤ 1
  quota : ∀ start, race.admitted.countP (Number.isWithin start age) ≤ 1

theorem IsSpaced.enter (h : race.IsSpaced caller age) (hage : 0 ≤ age)
    (hdates : ∀ s ∈ race.limiter.times caller, Dates window age s now) :
    (race.enter ⟨now, caller, .int 1, window⟩ waiting).IsSpaced caller age := by
  let d : Demand := ⟨now, caller, .int 1, window⟩
  obtain ⟨gone, hsplit, hgone⟩ := h.split
  by_cases hadmitted : race.limiter.isAdmitted d = true
  · obtain ⟨past, kept, htimes, hpast, hafter, hroom⟩ := times_ask race.limiter d
    obtain rfl : kept = [] := List.length_eq_zero_iff.mp (by
      have := length_lt_of_le (hroom hadmitted)
      omega)
    rw [List.append_nil] at htimes
    rw [if_pos hadmitted, List.nil_append] at hafter
    have hlast : ∀ t ∈ race.limiter.times caller, t.Precedes age now := fun t ht =>
      (hdates t ht).precedes (hpast t (htimes ▸ ht))
    have hall : ∀ s ∈ race.admitted, s.Precedes age now := by
      intro s hs
      rw [hsplit] at hs
      rcases List.mem_append.mp hs with hs | hs
      · obtain ⟨t, ht, hst⟩ := hgone s hs
        exact hst.trans (hlast t ht) hage
      · exact hlast s hs
    have hadmissions : (race.enter d waiting).admitted = race.admitted ++ [now] := by
      rw [Race.enter, if_pos hadmitted]
    have hkept : (race.enter d waiting).limiter.times caller = [now] := hafter
    refine ⟨⟨race.admitted, ?_, fun s hs => ⟨now, ?_, hall s hs⟩⟩, ?_, fun start => ?_⟩
    · rw [hadmissions, hkept]
    · rw [hkept]
      exact List.mem_singleton_self now
    · rw [hkept]
      exact le_rfl
    · have hquota := h.quota start
      rw [← List.append_nil race.admitted] at hquota hadmissions
      rw [hadmissions]
      exact countP_concat_le hall Nat.one_pos hquota
  · have hkept : (race.enter d waiting).limiter.times caller = race.limiter.times caller :=
      times_ask_of_refused (d := d) rfl hadmitted h.single
    have hadmissions : (race.enter d waiting).admitted = race.admitted := by
      rw [Race.enter, if_neg hadmitted, List.append_nil]
    refine ⟨⟨gone, ?_, ?_⟩, ?_, ?_⟩
    · rw [hadmissions, hkept, hsplit]
    · rw [hkept]
      exact hgone
    · rw [hkept]
      exact h.single
    · rw [hadmissions]
      exact h.quota

theorem Reaches.isSpaced (h : Reaches caller (.int 1) (.int n) l race) (hpos : 0 < n)
    (hempty : l.times caller = []) (htimed : IsTimed n race.readings age) :
    race.IsSpaced caller age := by
  induction h with
  | refl => exact ⟨⟨[], hempty.symm, by simp⟩, by simp [start, hempty], by simp [start]⟩
  | tail hreaches hstep ih =>
    have hspaced := ih (htimed.of_subset hstep.grows.1)
    cases hstep with
    | read now hclock => exact ⟨hspaced.split, hspaced.single, hspaced.quota⟩
    | enter before now after hwaiting =>
      have hread := Reaches.isRead hreaches hempty
      have hnow : now ∈ before ++ now :: after := List.mem_append_right _ List.mem_cons_self
      exact hspaced.enter htimed.age_nonneg fun s hs =>
        htimed.dates hpos (hread.times hs) (hread.waiting (hwaiting ▸ hnow))

/-- The first of two readings is ahead of the second by no more than the delay. -/
def IsAheadBy (delay : ℚ) (first second : Number) : Prop :=
  ∀ p q, first.value? = some p → second.value? = some q → p ≤ q + delay

/-- Those of the admissions that are not kept were dropped at some reading, and no stretch has more
of them than the limit that is shorter than the age by the delay. -/
structure Recalls (caller : Text) (age delay : ℚ) (m : Nat) (race : Race) : Prop where
  split : ∃ gone, race.admitted = gone ++ race.limiter.times caller ∧
    ∀ s ∈ gone, ∃ t ∈ race.entered, s.Precedes age t
  quota : ∀ start, race.admitted.countP (Number.isWithin start (age - delay)) ≤ m

theorem Recalls.enter (h : race.Recalls caller age delay m) (hdelay : 0 ≤ delay)
    (hdates : ∀ s ∈ race.limiter.times caller, Dates window age s now)
    (hahead : ∀ t ∈ race.entered, IsAheadBy delay t now) (hvalue : ∃ q, now.value? = some q) :
    (race.enter ⟨now, caller, .int m, window⟩ waiting).Recalls caller age delay m := by
  let d : Demand := ⟨now, caller, .int m, window⟩
  obtain ⟨gone, hsplit, hgone⟩ := h.split
  obtain ⟨past, kept, htimes, hpast, hafter, hroom⟩ := times_ask race.limiter d
  have hsplit : race.admitted = gone ++ past ++ kept := by
    rw [hsplit, List.append_assoc]
    exact congrArg (gone ++ ·) htimes
  have hdropped : ∀ s ∈ past, s.Precedes age now := fun s hs =>
    (hdates s (htimes ▸ List.mem_append_left _ hs)).precedes (hpast s hs)
  have hbefore : ∀ s ∈ gone ++ past, s.Precedes (age - delay) now := by
    intro s hs
    rcases List.mem_append.mp hs with hs | hs
    · obtain ⟨t, ht, p, r, hp, hr, hle⟩ := hgone s hs
      obtain ⟨q, hq⟩ := hvalue
      have := hahead t ht r q hr hq
      exact ⟨p, q, hp, hq, by linarith⟩
    · obtain ⟨p, q, hp, hq, hle⟩ := hdropped s hs
      exact ⟨p, q, hp, hq, by linarith⟩
  refine ⟨⟨gone ++ past, ?_, fun s hs => ?_⟩, fun start => ?_⟩
  · have hkept : (race.enter d waiting).limiter.times caller =
        kept ++ if race.limiter.isAdmitted d = true then [now] else [] := hafter
    rw [hkept, ← List.append_assoc, ← hsplit]
    rfl
  · rcases List.mem_append.mp hs with hs | hs
    · obtain ⟨t, ht, hle⟩ := hgone s hs
      exact ⟨t, List.mem_append_left _ ht, hle⟩
    · exact ⟨now, List.mem_append_right _ (List.mem_singleton_self now), hdropped s hs⟩
  · have hquota := h.quota start
    by_cases hadmitted : race.limiter.isAdmitted d = true
    · rw [Race.enter, if_pos hadmitted]
      rw [hsplit] at hquota ⊢
      exact countP_concat_le hbefore (Int.ofNat_lt.mp (length_lt_of_le (hroom hadmitted))) hquota
    · rw [Race.enter, if_neg hadmitted, List.append_nil]
      exact hquota

theorem Reaches.recalls (h : Reaches caller (.int m) (.int n) l race) (hpos : 0 < n)
    (hempty : l.times caller = []) (hdelay : 0 ≤ delay) (htimed : IsTimed n race.readings age)
    (hahead : race.entered.Pairwise (IsAheadBy delay)) : race.Recalls caller age delay m := by
  induction h with
  | refl => exact ⟨⟨[], hempty.symm, by simp⟩, by simp [start]⟩
  | tail hreaches hstep ih =>
    obtain ⟨hsub, hprefix⟩ := hstep.grows
    have hrecalls := ih (htimed.of_subset hsub) (hahead.sublist hprefix.sublist)
    cases hstep with
    | read now hclock => exact ⟨hrecalls.split, hrecalls.quota⟩
    | enter before now after hwaiting =>
      have hread := Reaches.isRead hreaches hempty
      have hnow := hread.waiting (hwaiting ▸ List.mem_append_right before List.mem_cons_self)
      obtain ⟨-, q, -, hq, -⟩ := htimed.dates hpos hnow hnow
      exact hrecalls.enter hdelay (fun s hs => htimed.dates hpos (hread.times hs) hnow)
        (fun t ht => (List.pairwise_append.mp hahead).2.2 t ht now (List.mem_singleton_self now))
        ⟨q, hq⟩

/-- A race of whole readings with as many admissions in the first window as there have been later
ones. Requests from the beginning of that window still wait. -/
structure IsStale (n rounds left : Nat) (race : Race) : Prop where
  waiting : race.waiting = List.replicate left (.int 0)
  readings : ∀ t ∈ race.readings, ∃ a : Int, t = .int a ∧ a ≤ rounds * n
  admitted : rounds ≤ race.admitted.countP (Number.isWithin 0 n)

theorem exists_isStale (caller : Text) (limit window : Number) (l : Limiter) (n left : Nat) :
    ∃ race, Reaches caller limit window l race ∧ race.IsStale n 0 left := by
  induction left with
  | zero => exact ⟨start l, .refl, rfl, by simp [start], Nat.zero_le _⟩
  | succ left ih =>
    obtain ⟨race, hreaches, hstale⟩ := ih
    refine ⟨race.read (.int 0), hreaches.tail (.read _ fun t ht => ?_), ?_, fun t ht => ?_,
      Nat.zero_le _⟩
    · obtain ⟨a, rfl, ha⟩ := hstale.readings t ht
      rw [Nat.cast_zero, zero_mul] at ha
      rw [Number.le_iff (Number.value?_int a) (Number.value?_int 0)]
      exact_mod_cast ha
    · rw [List.replicate_succ', ← hstale.waiting]
      rfl
    · rcases List.mem_append.mp ht with ht | ht
      · exact hstale.readings t ht
      · exact ⟨0, List.mem_singleton.mp ht, by simp⟩

/-- A late request takes away all that is kept, and then an early one meets no other early one. -/
theorem IsStale.succ {rounds left : Nat} (h : race.IsStale n rounds (left + 1))
    (hreaches : Reaches caller (.int m) (.int n) l race) (hempty : l.times caller = [])
    (hpos : 0 < n) (hm : 2 ≤ m) :
    ∃ next, Reaches caller (.int m) (.int n) l next ∧ next.IsStale n (rounds + 1) left := by
  let now : Int := (rounds + 1 : Nat) * n
  let late : Demand := ⟨.int now, caller, .int m, .int n⟩
  let early : Demand := ⟨.int 0, caller, .int m, .int n⟩
  let second := (race.read late.now).enter late (List.replicate (left + 1) (.int 0) ++ [])
  have hstep : now = rounds * n + n := by
    push_cast [now]
    ring
  have hclock : ∀ t ∈ race.readings, t.le late.now = true := by
    intro t ht
    obtain ⟨a, rfl, ha⟩ := h.readings t ht
    rw [Number.le_iff (Number.value?_int a) (Number.value?_int now)]
    exact_mod_cast show a ≤ now by omega
  have hpast : ∀ t ∈ race.limiter.times caller, isPast late.now late.window t = .ok true := by
    intro t ht
    obtain ⟨a, rfl, ha⟩ := h.readings t ((Reaches.isRead hreaches hempty).times ht)
    rw [isPast_int, decide_eq_true (by omega)]
  obtain ⟨hlate, hkept⟩ := ask_of_past (d := late) hpast (le_int_of_lt (by omega))
  have hcounts : isPast early.now early.window (.int now) = .ok false := by
    have hnow : (0 : Int) ≤ now := by positivity
    rw [isPast_int, decide_eq_false (by omega)]
  have hearly : second.limiter.isAdmitted early = true :=
    isAdmitted_of_single hkept hcounts (le_int_of_lt (by omega))
  have hadmitted : (second.enter early (List.replicate left (.int 0))).admitted =
      race.admitted ++ [.int now] ++ [.int 0] := by
    rw [Race.enter, if_pos hearly]
    exact congrArg (· ++ [early.now]) (congrArg (race.admitted ++ ·) (if_pos hlate))
  refine ⟨second.enter early (List.replicate left (.int 0)), ?_, rfl, fun t ht => ?_, ?_⟩
  · have hread := hreaches.tail (.read late.now hclock)
    have hsecond := hread.tail (.enter (List.replicate (left + 1) (.int 0)) late.now [] (by
      rw [Race.read, h.waiting]))
    exact hsecond.tail (.enter [] early.now (List.replicate left (.int 0)) (by
      exact List.append_nil _))
  · rcases List.mem_append.mp ht with ht | ht
    · obtain ⟨a, rfl, ha⟩ := h.readings t ht
      exact ⟨a, rfl, by push_cast; linarith⟩
    · exact ⟨now, List.mem_singleton.mp ht, le_rfl⟩
  · have hwithin : Number.isWithin 0 n (.int 0) = true :=
      Number.isWithin_iff.mpr ⟨0, by simp, le_rfl, by simpa using hpos⟩
    have hearlyCount : [Number.int 0].countP (Number.isWithin 0 n) = 1 :=
      List.countP_singleton.trans (if_pos hwithin)
    rw [hadmitted, List.countP_append, List.countP_append]
    have := h.admitted
    omega

theorem IsStale.isTimed {rounds left : Nat} (h : race.IsStale n rounds left) :
    IsTimed n race.readings n := by
  refine .exact fun s hs t ht => ?_
  obtain ⟨a, rfl, -⟩ := h.readings s hs
  obtain ⟨b, rfl, -⟩ := h.readings t ht
  exact exactlyApart_int a b

theorem exists_isStale_rounds (hempty : l.times caller = []) (hpos : 0 < n) (hm : 2 ≤ m)
    (rounds left : Nat) :
    ∃ race, Reaches caller (.int m) (.int n) l race ∧ race.IsStale n rounds left := by
  induction rounds generalizing left with
  | zero => exact exists_isStale caller (.int m) (.int n) l n left
  | succ rounds ih =>
    obtain ⟨race, hreaches, hstale⟩ := ih (left + 1)
    exact hstale.succ hreaches hempty hpos hm

/-- However the requests of a caller have their turns, a limit of one holds in every stretch of the
age. A higher limit holds in the stretches that are shorter by as much as any reading is ahead of
one that has its turn later; but any number of requests may be admitted in a single window. -/
theorem countP_admitted (hpos : 0 < n) (hempty : l.times caller = []) (m : Nat) :
    (∀ race age, Reaches caller (.int m) (.int n) l race → IsTimed n race.readings age →
      ∀ start,
        (m = 1 → race.admitted.countP (Number.isWithin start age) ≤ 1) ∧
        ∀ delay, 0 ≤ delay → race.entered.Pairwise (IsAheadBy delay) →
          race.admitted.countP (Number.isWithin start (age - delay)) ≤ m) ∧
    (2 ≤ m → ∀ k, ∃ race, Reaches caller (.int m) (.int n) l race ∧ IsTimed n race.readings n ∧
      k ≤ race.admitted.countP (Number.isWithin 0 n)) := by
  refine ⟨fun race age hreaches htimed start => ⟨fun hone => ?_, fun delay hdelay hahead => ?_⟩,
    fun hm k => ?_⟩
  · subst hone
    exact (Reaches.isSpaced hreaches hpos hempty htimed).quota start
  · exact (Reaches.recalls hreaches hpos hempty hdelay htimed hahead).quota start
  · obtain ⟨race, hreaches, hstale⟩ := exists_isStale_rounds hempty hpos hm k 0
    exact ⟨race, hreaches, hstale.isTimed, hstale.admitted⟩

/-- Two requests in ten seconds are allowed. A third one is admitted that has read the clock in the
middle of them, but has its turn only after one of the next ten seconds. -/
theorem countP_admitted_of_late_turn :
    let caller : Text := "a"
    ∃ race, Reaches caller (.int 2) (.int 10) .empty race ∧
      race.admitted = [.int 0, .int 0, .int 10, .int 5] ∧
      race.admitted.countP (Number.isWithin 0 10) = 3 ∧
      race.admitted.countP (Number.isWithin 0 (10 - 5)) ≤ 2 := by
  intro caller
  let demand (now : Int) : Demand := ⟨.int now, caller, .int 2, .int 10⟩
  let waits : Race :=
    ((((start .empty).read (.int 0)).read (.int 0)).enter (demand 0) [.int 0]).enter (demand 0) []
  let race : Race :=
    (((waits.read (.int 5)).read (.int 10)).enter (demand 10) [.int 5]).enter (demand 5) []
  have hwaits : Reaches caller (.int 2) (.int 10) .empty waits := by
    refine .tail (.tail (.tail (.tail .refl (.read _ ?_)) (.read _ ?_)) (.enter [] _ [.int 0] rfl))
      (.enter [] _ [] rfl)
    · decide +kernel
    · decide +kernel
  have hreaches : Reaches caller (.int 2) (.int 10) .empty race := by
    refine .tail (.tail (.tail (.tail hwaits (.read _ ?_)) (.read _ ?_)) (.enter [.int 5] _ [] rfl))
      (.enter [] _ [] rfl)
    · decide +kernel
    · decide +kernel
  have hadmitted : race.admitted = [.int 0, .int 0, .int 10, .int 5] := by decide +kernel
  have hentered : race.entered = [0, 0, 10, 5].map Number.int := rfl
  have htimed : IsTimed 10 race.readings (10 : Nat) := by
    have hreadings : race.readings = [0, 0, 5, 10].map Number.int := rfl
    refine .exact fun s hs t ht => ?_
    rw [hreadings] at hs ht
    obtain ⟨a, -, rfl⟩ := List.mem_map.mp hs
    obtain ⟨b, -, rfl⟩ := List.mem_map.mp ht
    exact exactlyApart_int a b
  have hahead : race.entered.Pairwise (IsAheadBy 5) := by
    have hint : [0, 0, 10, 5].Pairwise fun a b : Int => a ≤ b + 5 := by decide
    rw [hentered, List.pairwise_map]
    refine hint.imp fun {a b} h p q hp hq => ?_
    obtain rfl := Option.some.inj hp
    obtain rfl := Option.some.inj hq
    exact_mod_cast h
  refine ⟨race, hreaches, hadmitted, ?_, ?_⟩
  · rw [hadmitted]
    decide +kernel
  · have hquota := (countP_admitted (by decide) rfl 2).1 race (10 : Nat) hreaches htimed 0
    exact hquota.2 5 (by norm_num) hahead

end Race

end Limiter

end Replay
