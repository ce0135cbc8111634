import Mathlib.Data.List.Forall2
import Mathlib.Data.List.TakeDrop
import Replay.Base64

namespace Replay

namespace Base64

/-- The digits in the order of their values. -/
def alphabet : Text := "ABCDEFGHIJKLMNOPQRSTUVWXYZabcdefghijklmnopqrstuvwxyz0123456789+/"

/-- The lowest bits of a number, the highest of them first. -/
def bits : Nat → Nat → List Bool
  | 0, _ => []
  | width + 1, n => bits width (n / 2) ++ [decide (n % 2 = 1)]

def byteBits (bytes : Bytes) : List Bool := bytes.flatMap fun b => bits 8 b.toNat

def valueBits (values : List Nat) : List Bool := values.flatMap (bits 6)

/-- A text of the digits for some values, with equals signs that fill up its last group of four. -/
structure Spells (values : List Nat) (pads : Nat) (t : Text) : Prop where
  digits : ∃ digits, List.Forall₂ (fun (v : Nat) d => alphabet[v]? = some d) values digits ∧
    t = digits ++ List.replicate pads pad
  pads : pads ≤ 2
  groups : t.length % 4 = 0

/-- The text whose digits hold the bits of the bytes and nothing else. -/
def IsCanonical (bytes : Bytes) (t : Text) : Prop :=
  ∃ values pads, Spells values pads t ∧
    valueBits values = byteBits bytes ++ List.replicate (2 * pads) false

@[simp] theorem length_bits (width n : Nat) : (bits width n).length = width := by
  induction width generalizing n with
  | zero => rfl
  | succ width ih => simp [bits, ih]

theorem bits_add (v w n : Nat) : bits (v + w) n = bits v (n / 2 ^ w) ++ bits w n := by
  induction w generalizing n with
  | zero => simp [bits]
  | succ w ih =>
    have hpow : n / 2 / 2 ^ w = n / 2 ^ (w + 1) := by
      rw [Nat.div_div_eq_div_mul, Nat.pow_succ, Nat.mul_comm]
    rw [← Nat.add_assoc, bits, ih, bits, hpow, List.append_assoc]

theorem bits_mod (w n : Nat) : bits w (n % 2 ^ w) = bits w n := by
  induction w generalizing n with
  | zero => rfl
  | succ w ih =>
    have hdiv : n % 2 ^ (w + 1) / 2 = n / 2 % 2 ^ w := by
      rw [Nat.pow_succ, Nat.mul_comm, Nat.mod_mul_right_div_self]
    have hmod : n % 2 ^ (w + 1) % 2 = n % 2 := by
      rw [Nat.pow_succ, Nat.mod_mul_left_mod]
    rw [bits, bits, hdiv, hmod, ih]

theorem bits_inj {w m n : Nat} (hm : m < 2 ^ w) (hn : n < 2 ^ w) (h : bits w m = bits w n) :
    m = n := by
  induction w generalizing m n with
  | zero => omega
  | succ w ih =>
    rw [bits, bits] at h
    obtain ⟨hhigh, hlow⟩ := List.append_inj' h rfl
    have hhalf : m / 2 = n / 2 := ih (by omega) (by omega) hhigh
    have hbit : m % 2 = 1 ↔ n % 2 = 1 := by simpa using hlow
    omega

theorem bits_zero (w : Nat) : bits w 0 = List.replicate w false := by
  induction w with
  | zero => rfl
  | succ w ih => rw [bits, Nat.zero_div, ih, List.replicate_succ']; rfl

theorem bits_append (v w high low : Nat) (h : low < 2 ^ w) :
    bits v high ++ bits w low = bits (v + w) (high * 2 ^ w + low) := by
  have hpos : 0 < 2 ^ w := Nat.two_pow_pos w
  have hdiv : (high * 2 ^ w + low) / 2 ^ w = high := by
    rw [Nat.mul_comm, Nat.mul_add_div hpos, Nat.div_eq_of_lt h, Nat.add_zero]
  have hmod : bits w (high * 2 ^ w + low) = bits w low := by
    rw [← bits_mod, Nat.mul_comm, Nat.mul_add_mod, bits_mod]
  rw [bits_add, hdiv, hmod]

/-- Lists of numbers of one width are told apart by their bits. -/
theorem flatMap_bits_inj {w : Nat} {xs ys : List Nat} (hlength : xs.length = ys.length)
    (hx : ∀ x ∈ xs, x < 2 ^ w) (hy : ∀ y ∈ ys, y < 2 ^ w)
    (h : xs.flatMap (bits w) = ys.flatMap (bits w)) : xs = ys := by
  induction xs generalizing ys with
  | nil => exact (List.eq_nil_of_length_eq_zero hlength.symm).symm
  | cons x xs ih =>
    cases ys with
    | nil => simp at hlength
    | cons y ys =>
      obtain ⟨hhead, htail⟩ := List.append_inj h (by simp)
      have hxy : x = y := bits_inj (hx x List.mem_cons_self) (hy y List.mem_cons_self) hhead
      have hrest : xs = ys := ih (by simpa using hlength)
        (fun z hz => hx z (List.mem_cons_of_mem _ hz))
        (fun z hz => hy z (List.mem_cons_of_mem _ hz)) htail
      rw [hxy, hrest]

@[simp] theorem length_flatMap_bits (w : Nat) (xs : List Nat) :
    (xs.flatMap (bits w)).length = w * xs.length := by
  induction xs with
  | nil => rfl
  | cons x xs ih => simp [ih, Nat.mul_add, Nat.add_comm]

theorem byteBits_eq (bytes : Bytes) :
    byteBits bytes = (bytes.map UInt8.toNat).flatMap (bits 8) := by
  rw [byteBits, List.flatMap_map]

@[simp] theorem length_byteBits (bytes : Bytes) : (byteBits bytes).length = 8 * bytes.length := by
  rw [byteBits_eq, length_flatMap_bits, List.length_map]

@[simp] theorem length_valueBits (values : List Nat) :
    (valueBits values).length = 6 * values.length := length_flatMap_bits 6 values

theorem byteBits_inj {a b : Bytes} (h : byteBits a = byteBits b) : a = b := by
  have hlength : a.length = b.length := by
    have := congrArg List.length h
    simp only [length_byteBits] at this
    omega
  have hlt : ∀ bytes : Bytes, ∀ n ∈ bytes.map UInt8.toNat, n < 2 ^ 8 := by
    intro bytes n hn
    obtain ⟨b, -, rfl⟩ := List.mem_map.mp hn
    exact b.toNat_lt
  rw [byteBits_eq, byteBits_eq] at h
  have hmap := flatMap_bits_inj (by simpa using hlength) (hlt a) (hlt b) h
  exact List.map_injective_iff.mpr (fun _ _ => UInt8.toNat_inj.mp) hmap

theorem alphabet_digit : ∀ v < 64, alphabet[v]? = some (digit v) := by decide

theorem value?_digit : ∀ v < 64, value? (digit v) = some v := by decide

theorem lt_of_alphabet {v : Nat} {d : CodePoint} (h : alphabet[v]? = some d) : v < 64 := by
  obtain ⟨hlt, -⟩ := List.getElem?_eq_some_iff.mp h
  exact hlt

theorem digit_of_alphabet {v : Nat} {d : CodePoint} (h : alphabet[v]? = some d) : digit v = d :=
  Option.some.inj ((alphabet_digit v (lt_of_alphabet h)).symm.trans h)

theorem digit_ne_pad : ∀ v < 64, digit v ≠ pad := by decide

theorem isBlank_digit : ∀ v < 64, (digit v).isBlank = false := by decide

theorem ofNat_val (c : CodePoint) : CodePoint.ofNat c.val = c := by
  rw [CodePoint.ofNat, dif_pos c.isLt]

theorem digit_of_value? {c : CodePoint} {v : Nat} (h : value? c = some v) :
    v < 64 ∧ digit v = c := by
  unfold value? at h
  split at h
  next hc =>
    obtain rfl := Option.some.inj h
    have hval : 65 ≤ c.val ∧ c.val ≤ 90 := by simpa [CodePoint.isUpper] using hc
    rw [digit, if_pos (by omega), show 65 + (c.val - 65) = c.val by omega, ofNat_val]
    exact ⟨by omega, rfl⟩
  next =>
    split at h
    next hc =>
      obtain rfl := Option.some.inj h
      have hval : 97 ≤ c.val ∧ c.val ≤ 122 := by simpa [CodePoint.isLower] using hc
      rw [digit, if_neg (by omega), if_pos (by omega),
        show 97 + (c.val - 97 + 26 - 26) = c.val by omega, ofNat_val]
      exact ⟨by omega, rfl⟩
    next =>
      split at h
      next hc =>
        obtain rfl := Option.some.inj h
        have hval : 48 ≤ c.val ∧ c.val ≤ 57 := by simpa [CodePoint.isDigit] using hc
        rw [digit, if_neg (by omega), if_neg (by omega), if_pos (by omega),
          show 48 + (c.val - 48 + 52 - 52) = c.val by omega, ofNat_val]
        exact ⟨by omega, rfl⟩
      next =>
        split at h
        next hc =>
          obtain rfl := Option.some.inj h
          exact ⟨by omega, hc.symm⟩
        next =>
          split at h
          next hc =>
            obtain rfl := Option.some.inj h
            exact ⟨by omega, hc.symm⟩
          next => cases h

theorem value?_eq_some_iff {c : CodePoint} {v : Nat} :
    value? c = some v ↔ alphabet[v]? = some c := by
  constructor
  · intro h
    obtain ⟨hlt, rfl⟩ := digit_of_value? h
    exact alphabet_digit v hlt
  · intro h
    obtain rfl := digit_of_alphabet h
    exact value?_digit v (lt_of_alphabet h)

/-- The text of digits for values, each the digit of its value. -/
theorem digits_eq_map {values : List Nat} {digits : Text}
    (h : List.Forall₂ (fun (v : Nat) d => alphabet[v]? = some d) values digits) :
    digits = values.map digit ∧ ∀ v ∈ values, v < 64 := by
  induction h with
  | nil => simp
  | @cons v d values digits hd _ ih =>
    obtain ⟨hdigits, hlt⟩ := ih
    refine ⟨by rw [List.map_cons, digit_of_alphabet hd, hdigits], ?_⟩
    intro u hu
    rcases List.mem_cons.mp hu with rfl | hu
    · exact lt_of_alphabet hd
    · exact hlt u hu

theorem spells_map {values : List Nat} {pads : Nat} (hlt : ∀ v ∈ values, v < 64) (hpads : pads ≤ 2)
    (hgroups : (values.length + pads) % 4 = 0) :
    Spells values pads (values.map digit ++ List.replicate pads pad) := by
  refine ⟨⟨values.map digit, ?_, rfl⟩, hpads, by simpa using hgroups⟩
  rw [List.forall₂_map_right_iff, List.forall₂_same]
  exact fun v hv => alphabet_digit v (hlt v hv)

namespace Spells

variable {values : List Nat} {pads : Nat} {t : Text}

theorem eq (h : Spells values pads t) :
    t = values.map digit ++ List.replicate pads pad := by
  obtain ⟨digits, hdigits, rfl⟩ := h.digits
  rw [(digits_eq_map hdigits).1]

theorem lt (h : Spells values pads t) : ∀ v ∈ values, v < 64 := by
  obtain ⟨digits, hdigits, -⟩ := h.digits
  exact (digits_eq_map hdigits).2

theorem length_eq (h : Spells values pads t) : t.length = values.length + pads := by
  rw [h.eq]
  simp

/-- The equals signs are those that the last group is short of. -/
theorem pads_eq (h : Spells values pads t) : pads = (4 - values.length % 4) % 4 := by
  have hlength := h.length_eq
  have hgroups := h.groups
  have hpads := h.pads
  omega

theorem not_pad (h : Spells values pads t) : ∀ d ∈ values.map digit, d ≠ pad := by
  intro d hd
  obtain ⟨v, hv, rfl⟩ := List.mem_map.mp hd
  exact digit_ne_pad v (h.lt v hv)

theorem isBlank_eq (h : Spells values pads t) : ∀ c ∈ t, c.isBlank = false := by
  intro c hc
  rw [h.eq, List.mem_append] at hc
  rcases hc with hc | hc
  · obtain ⟨v, hv, rfl⟩ := List.mem_map.mp hc
    exact isBlank_digit v (h.lt v hv)
  · rw [List.eq_of_mem_replicate hc]
    decide

theorem span_eq (h : Spells values pads t) :
    t.takeWhile (· != pad) = values.map digit ∧
      t.dropWhile (· != pad) = List.replicate pads pad := by
  have hall : ∀ d ∈ values.map digit, (d != pad) = true := fun d hd => by simpa using h.not_pad d hd
  have hnone : List.takeWhile (· != pad) (List.replicate pads pad) = [] := by
    cases pads <;> simp [List.replicate_succ]
  have hrest : List.dropWhile (· != pad) (List.replicate pads pad) = List.replicate pads pad := by
    cases pads <;> simp [List.replicate_succ]
  rw [h.eq, List.takeWhile_append_of_pos hall, List.dropWhile_append_of_pos hall, hnone, hrest,
    List.append_nil]
  exact ⟨rfl, rfl⟩

theorem withoutPadding_eq (h : Spells values pads t) : withoutPadding t = values.map digit := by
  have hpads : ∀ d ∈ (List.replicate pads pad).reverse, decide (d = pad) = true := by
    intro d hd
    simpa using List.eq_of_mem_replicate (List.mem_reverse.mp hd)
  have hdigits : (values.map digit).reverse.dropWhile (· = pad) = (values.map digit).reverse := by
    cases hr : (values.map digit).reverse with
    | nil => rfl
    | cons d rest =>
      have hd : d ≠ pad := h.not_pad d (List.mem_reverse.mp (hr ▸ List.mem_cons_self))
      rw [List.dropWhile_cons_of_neg (by simpa using hd)]
  rw [h.eq, withoutPadding, List.reverse_append, List.dropWhile_append_of_pos hpads, hdigits,
    List.reverse_reverse]

theorem filterMap_value? (h : Spells values pads t) :
    (values.map digit).filterMap value? = values := by
  rw [List.filterMap_map]
  have hsome : ∀ v ∈ values, (value? ∘ digit) v = some v := fun v hv => value?_digit v (h.lt v hv)
  rw [List.filterMap_congr hsome, List.filterMap_some]

theorem all_value? (h : Spells values pads t) :
    (values.map digit).all (fun d => (value? d).isSome) = true := by
  rw [List.all_eq_true]
  intro d hd
  obtain ⟨v, hv, rfl⟩ := List.mem_map.mp hd
  rw [value?_digit v (h.lt v hv), Option.isSome_some]

theorem isFormed (h : Spells values pads t) : isFormed t = true := by
  obtain ⟨htake, hdrop⟩ := h.span_eq
  simp only [Base64.isFormed, List.span_eq_takeWhile_dropWhile, htake, hdrop, h.all_value?]
  simpa [isPadding] using h.pads

theorem decode?_eq (h : Spells values pads t) : decode? t = some (bytesAfter [] values) := by
  obtain ⟨htake, hdrop⟩ := h.span_eq
  have hpads := h.pads
  simp only [decode?, List.span_eq_takeWhile_dropWhile, htake, hdrop, h.all_value?,
    h.filterMap_value?]
  simp [h.groups, isPadding, hpads]

end Spells

/-- A text that passes the checks ahead of decoding is spelled by some values. -/
theorem exists_spells {t : Text} (hform : isFormed t = true) (hgroups : t.length % 4 = 0) :
    ∃ values pads, Spells values pads t := by
  rw [isFormed, List.span_eq_takeWhile_dropWhile] at hform
  simp only [Bool.and_eq_true, decide_eq_true_eq, isPadding, List.all_eq_true] at hform
  obtain ⟨⟨hdigits, hpads⟩, hpadding⟩ := hform
  have hsplit := List.takeWhile_append_dropWhile (p := (· != pad)) (l := t)
  generalize t.takeWhile (· != pad) = digits at hdigits hsplit
  generalize t.dropWhile (· != pad) = padding at hpads hpadding hsplit
  have hreplicate : padding = List.replicate padding.length pad :=
    List.eq_replicate_of_mem hpadding
  refine ⟨digits.filterMap value?, padding.length, ⟨digits, ?_, ?_⟩, hpads, hgroups⟩
  swap
  · rw [← hreplicate, hsplit]
  clear hsplit
  induction digits with
  | nil => exact .nil
  | cons d rest ih =>
    obtain ⟨v, hv⟩ := Option.isSome_iff_exists.mp (hdigits d List.mem_cons_self)
    rw [List.filterMap_cons_some hv]
    exact .cons (value?_eq_some_iff.mp hv) (ih fun c hc => hdigits c (List.mem_cons_of_mem _ hc))

theorem bits_bytes {a b c : Nat} (hb : b < 256) (hc : c < 256) :
    bits 8 a ++ (bits 8 b ++ bits 8 c) = bits 24 ((a * 256 + b) * 256 + c) := by
  rw [← List.append_assoc, bits_append 8 8 a b hb, bits_append 16 8 _ c hc]
  rfl

theorem bits_digits {a b c d : Nat} (hb : b < 64) (hc : c < 64) (hd : d < 64) :
    bits 6 a ++ (bits 6 b ++ (bits 6 c ++ bits 6 d)) =
      bits 24 (((a * 64 + b) * 64 + c) * 64 + d) := by
  rw [← List.append_assoc, ← List.append_assoc, bits_append 6 6 a b hb, bits_append 12 6 _ c hc,
    bits_append 18 6 _ d hd]
  rfl

theorem encodeAfter_eq : (done : Text) → (bytes : Bytes) →
    encodeAfter done bytes = done.reverse ++ encode bytes
  | done, a :: b :: c :: rest => by
    rw [encode, encodeAfter, encodeAfter, encodeAfter_eq _ rest, encodeAfter_eq [_, _, _, _] rest]
    simp
  | done, [a, b] => by simp [encode, encodeAfter]
  | done, [a] => by simp [encode, encodeAfter]
  | done, [] => by simp [encode, encodeAfter]

theorem bytesAfter_eq : (done : Bytes) → (values : List Nat) →
    bytesAfter done values = done.reverse ++ bytesAfter [] values
  | done, a :: b :: c :: d :: rest => by
    rw [bytesAfter, bytesAfter, bytesAfter_eq _ rest, bytesAfter_eq [_, _, _] rest]
    simp
  | done, [a, b, c] => by simp [bytesAfter]
  | done, [a, b] => by simp [bytesAfter]
  | done, [a] => by simp [bytesAfter]
  | done, [] => by simp [bytesAfter]

theorem encode_group (a b c : UInt8) (rest : Bytes) (n : Nat)
    (hn : n = (a.toNat * 256 + b.toNat) * 256 + c.toNat) :
    encode (a :: b :: c :: rest) = digit (n / 262144) :: digit (n / 4096 % 64) ::
      digit (n / 64 % 64) :: digit (n % 64) :: encode rest := by
  subst hn
  rw [encode, encodeAfter, encodeAfter_eq]
  rfl

theorem Spells.cons {values : List Nat} {pads : Nat} {t : Text} (h : Spells values pads t)
    {a b c d : Nat} (ha : a < 64) (hb : b < 64) (hc : c < 64) (hd : d < 64) :
    Spells (a :: b :: c :: d :: values) pads (digit a :: digit b :: digit c :: digit d :: t) := by
  have hlength := h.length_eq
  have hgroups := h.groups
  have hlt := h.lt
  have hspells : Spells (a :: b :: c :: d :: values) pads _ :=
    spells_map (by simp [ha, hb, hc, hd]; exact hlt) h.pads (by simp; omega)
  rw [h.eq]
  exact hspells

/-- The text that bytes are encoded as is canonical. -/
theorem isCanonical_encode : (bytes : Bytes) → IsCanonical bytes (encode bytes)
  | [] => ⟨[], 0, spells_map (by simp) (by simp) rfl, rfl⟩
  | [a] => by
    have ha := a.toNat_lt
    refine ⟨[a.toNat * 16 / 64, a.toNat * 16 % 64], 2,
      spells_map (by simp; omega) (by simp) (by simp), ?_⟩
    have hbits : bits 6 (a.toNat * 16 / 64) ++ bits 6 (a.toNat * 16 % 64) =
        bits 8 a.toNat ++ bits 4 0 := by
      rw [bits_append 6 6 _ _ (by omega), bits_append 8 4 _ _ (by omega)]
      congr 1
      omega
    simpa [valueBits, byteBits, bits_zero] using hbits
  | [a, b] => by
    have ha := a.toNat_lt
    have hb := b.toNat_lt
    obtain ⟨n, hn⟩ : ∃ n, n = (a.toNat * 256 + b.toNat) * 4 := ⟨_, rfl⟩
    have hencode : encode [a, b] =
        [n / 4096, n / 64 % 64, n % 64].map digit ++ List.replicate 1 pad := by
      subst hn
      rfl
    rw [hencode]
    refine ⟨_, 1, spells_map (by simp; omega) (by simp) (by simp), ?_⟩
    have hbits : bits 6 (n / 4096) ++ (bits 6 (n / 64 % 64) ++ bits 6 (n % 64)) =
        bits 8 a.toNat ++ (bits 8 b.toNat ++ bits 2 0) := by
      rw [← List.append_assoc, bits_append 6 6 _ _ (by omega), bits_append 12 6 _ _ (by omega),
        ← List.append_assoc, bits_append 8 8 _ _ (by omega), bits_append 16 2 _ _ (by omega)]
      congr 1
      omega
    simpa [valueBits, byteBits, bits_zero] using hbits
  | a :: b :: c :: rest => by
    obtain ⟨values, pads, hspells, hbits⟩ := isCanonical_encode rest
    have ha := a.toNat_lt
    have hb := b.toNat_lt
    have hc := c.toNat_lt
    obtain ⟨n, hn⟩ : ∃ n, n = (a.toNat * 256 + b.toNat) * 256 + c.toNat := ⟨_, rfl⟩
    rw [encode_group a b c rest n hn]
    refine ⟨_, pads, hspells.cons (by omega) (by omega) (by omega) (by omega), ?_⟩
    have hgroup : bits 6 (n / 262144) ++ (bits 6 (n / 4096 % 64) ++ (bits 6 (n / 64 % 64) ++
        bits 6 (n % 64))) = bits 8 a.toNat ++ (bits 8 b.toNat ++ bits 8 c.toNat) := by
      rw [bits_digits (by omega) (by omega) (by omega), bits_bytes hb hc]
      congr 1
      omega
    rw [valueBits] at hbits
    simp only [valueBits, byteBits, List.flatMap_cons, hbits]
    simpa [byteBits] using congrArg (· ++ (byteBits rest ++ List.replicate (2 * pads) false)) hgroup

/-- The bits of digits are those of the bytes they are decoded to, and the ones left over. -/
theorem valueBits_eq : (values : List Nat) → (hlt : ∀ v ∈ values, v < 64) →
    ∃ rest, valueBits values = byteBits (bytesAfter [] values) ++ rest ∧
      rest.length = 2 * ((4 - values.length % 4) % 4)
  | [], _ => ⟨[], rfl, rfl⟩
  | [a], _ => ⟨bits 6 a, by simp [valueBits, byteBits, bytesAfter], by simp⟩
  | [a, b], hlt => by
    have ha := hlt a (by simp)
    have hb := hlt b (by simp)
    refine ⟨bits 4 ((a * 64 + b) % 16), ?_, by simp⟩
    have hgroup : bits 6 a ++ bits 6 b =
        bits 8 ((a * 64 + b) / 16 % 256) ++ bits 4 ((a * 64 + b) % 16) := by
      rw [bits_append 6 6 a b hb, bits_append 8 4 _ _ (by omega)]
      congr 1
      omega
    simpa [valueBits, byteBits, bytesAfter] using hgroup
  | [a, b, c], hlt => by
    have ha := hlt a (by simp)
    have hb := hlt b (by simp)
    have hc := hlt c (by simp)
    obtain ⟨n, hn⟩ : ∃ n, n = (a * 64 + b) * 64 + c := ⟨_, rfl⟩
    refine ⟨bits 2 (n % 4), ?_, by simp⟩
    have hgroup : bits 6 a ++ (bits 6 b ++ bits 6 c) =
        bits 8 (n / 4 / 256 % 256) ++ (bits 8 (n / 4 % 256) ++ bits 2 (n % 4)) := by
      rw [← List.append_assoc, bits_append 6 6 a b hb, bits_append 12 6 _ c hc,
        ← List.append_assoc, bits_append 8 8 _ _ (by omega), bits_append 16 2 _ _ (by omega)]
      congr 1
      omega
    simpa [valueBits, byteBits, bytesAfter, ← hn] using hgroup
  | a :: b :: c :: d :: values, hlt => by
    obtain ⟨rest, hbits, hlength⟩ := valueBits_eq values fun v hv => hlt v (by simp [hv])
    have ha := hlt a (by simp)
    have hb := hlt b (by simp)
    have hc := hlt c (by simp)
    have hd := hlt d (by simp)
    obtain ⟨n, hn⟩ : ∃ n, n = ((a * 64 + b) * 64 + c) * 64 + d := ⟨_, rfl⟩
    refine ⟨rest, ?_, by simp only [List.length_cons]; omega⟩
    have hgroup : bits 6 a ++ (bits 6 b ++ (bits 6 c ++ bits 6 d)) =
        bits 8 (n / 65536 % 256) ++ (bits 8 (n / 256 % 256) ++ bits 8 (n % 256)) := by
      rw [bits_digits hb hc hd, bits_bytes (by omega) (by omega)]
      congr 1
      omega
    rw [bytesAfter, bytesAfter_eq, ← hn]
    rw [valueBits] at hbits
    simp only [valueBits, List.flatMap_cons, hbits]
    simpa [byteBits] using congrArg (· ++ (byteBits (bytesAfter [] values) ++ rest)) hgroup

theorem IsCanonical.unique {bytes : Bytes} {s t : Text} (hs : IsCanonical bytes s)
    (ht : IsCanonical bytes t) : s = t := by
  obtain ⟨values, pads, hspells, hbits⟩ := hs
  obtain ⟨values', pads', hspells', hbits'⟩ := ht
  have hpads := hspells.pads_eq
  have hpads' := hspells'.pads_eq
  have htwo := hspells.pads
  have htwo' := hspells'.pads
  have hlength := congrArg List.length hbits
  have hlength' := congrArg List.length hbits'
  simp only [length_valueBits, length_byteBits, List.length_append, List.length_replicate]
    at hlength hlength'
  have hsame : pads = pads' := by omega
  subst hsame
  have hvalues : values = values' :=
    flatMap_bits_inj (by omega) hspells.lt hspells'.lt (hbits.trans hbits'.symm)
  rw [hspells.eq, hspells'.eq, hvalues]

theorem isCanonical_iff {bytes : Bytes} {t : Text} : IsCanonical bytes t ↔ t = encode bytes := by
  constructor
  · intro h
    exact h.unique (isCanonical_encode bytes)
  · rintro rfl
    exact isCanonical_encode bytes

/-- The canonical text is decoded to the bytes. -/
theorem IsCanonical.decode?_eq {bytes : Bytes} {t : Text} (h : IsCanonical bytes t) :
    decode? t = some bytes := by
  obtain ⟨values, pads, hspells, hbits⟩ := h
  obtain ⟨rest, hdecoded, hrest⟩ := valueBits_eq values hspells.lt
  have hpads := hspells.pads_eq
  have hsame : byteBits bytes = byteBits (bytesAfter [] values) := by
    refine (List.append_inj' (hbits.symm.trans hdecoded) ?_).1
    rw [List.length_replicate]
    omega
  rw [hspells.decode?_eq, byteBits_inj hsame]

/-- A text that passes the checks is decoded, and to some bytes unless it is empty. -/
theorem exists_decode?_eq {t : Text} (hne : t ≠ []) (hform : isFormed t = true)
    (hgroups : t.length % 4 = 0) : ∃ bytes, decode? t = some bytes ∧ bytes ≠ [] := by
  obtain ⟨values, pads, hspells⟩ := exists_spells hform hgroups
  refine ⟨_, hspells.decode?_eq, fun hnil => ?_⟩
  obtain ⟨rest, hbits, hrest⟩ := valueBits_eq values hspells.lt
  rw [hnil] at hbits
  have hlength := congrArg List.length hbits
  simp only [length_valueBits, byteBits, List.flatMap_nil, List.nil_append] at hlength
  have hpads := hspells.pads_eq
  have htwo := hspells.pads
  have hpos := List.length_pos_iff.mpr hne
  rw [hspells.length_eq] at hpos
  omega

/-- Of the texts that pass the checks only the canonical one has the digits of its bytes. -/
theorem isCanonical_of_isEncoding {t : Text} {bytes : Bytes} (hform : isFormed t = true)
    (hgroups : t.length % 4 = 0) (hdigits : isEncoding t bytes = true) : IsCanonical bytes t := by
  obtain ⟨values, pads, hspells⟩ := exists_spells hform hgroups
  obtain ⟨values', pads', hspells', hbits⟩ := isCanonical_encode bytes
  have hmap : values'.map digit = values.map digit := by
    simpa [isEncoding, hspells.withoutPadding_eq, hspells'.withoutPadding_eq] using hdigits
  have hlength : values'.length = values.length := by
    simpa using congrArg List.length hmap
  have hpads : pads' = pads := by rw [hspells.pads_eq, hspells'.pads_eq, hlength]
  rw [isCanonical_iff, hspells.eq, hspells'.eq, hmap, hpads]

end Base64

end Replay
