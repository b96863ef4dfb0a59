import Mathlib
import DesignLayout.Decimal.Shortest

/-! The shortest decimal lies in the interval of its double.

A double stands for all numbers of an interval around it. The grid of one digit more than the
sixteenth digit of the double is finer than that interval is wide, so one of the two neighbours on
it lies inside (`isSome_pick?`), and the search for a decimal ends in one that does
(`covers_shortest`). -/
namespace DesignLayout.Decimal

/-- A power with a negative exponent allowed, as the fraction that the search calculates with. -/
theorem zpow_eq_div (b : Nat) (k : Int) :
    (b : ℚ) ^ k = (b ^ k.toNat : Nat) / (b ^ (-k).toNat : Nat) := by
  rcases Int.le_total 0 k with hk | hk
  · obtain ⟨n, rfl⟩ := Int.eq_ofNat_of_zero_le hk
    simp
  · obtain ⟨n, hn⟩ := Int.eq_ofNat_of_zero_le (Int.neg_nonneg_of_nonpos hk)
    obtain rfl : k = -n := by omega
    simp

/-- The number that a figure stands for. -/
def Figure.amount (f : Figure) : ℚ :=
  f.digits * 10 ^ f.exponent

namespace Rounding

variable {r : Rounding} {k : Int} {n : Nat} {tie : Tie}

/-- The interval holds the number. -/
def Covers (r : Rounding) (x : ℚ) : Prop :=
  if r.closed then (r.low : ℚ) / r.den ≤ x ∧ x ≤ r.high / r.den
  else (r.low : ℚ) / r.den < x ∧ x < r.high / r.den

theorem holds_iff (hden : 0 < r.den) : r.holds n = true ↔ r.Covers n := by
  have hden : (0 : ℚ) < r.den := by exact_mod_cast hden
  rw [holds, Covers]
  split
  · rw [Bool.and_eq_true, decide_eq_true_eq, decide_eq_true_eq, div_le_iff₀ hden,
      le_div_iff₀ hden]
    exact_mod_cast Iff.rfl
  · rw [Bool.and_eq_true, decide_eq_true_eq, decide_eq_true_eq, div_lt_iff₀ hden,
      lt_div_iff₀ hden]
    exact_mod_cast Iff.rfl

/-! ### Units of a power of ten -/

theorem den_inUnits_pos (hden : 0 < r.den) : 0 < (r.inUnits k).den :=
  Nat.mul_pos hden (Nat.pow_pos (by decide))

/-- A number in units of a power of ten. -/
theorem div_inUnits (a d : Nat) (k : Int) :
    ((a * Nat.pow 10 (-k).toNat : Nat) : ℚ) / (d * Nat.pow 10 k.toNat : Nat) =
      a / d / 10 ^ k := by
  have hpow := zpow_eq_div 10 k
  simp only [Nat.pow_eq]
  push_cast at hpow ⊢
  rw [hpow]
  field_simp

theorem low_inUnits : ((r.inUnits k).low : ℚ) / (r.inUnits k).den = r.low / r.den / 10 ^ k :=
  div_inUnits ..

theorem value_inUnits :
    ((r.inUnits k).value : ℚ) / (r.inUnits k).den = r.value / r.den / 10 ^ k :=
  div_inUnits ..

theorem high_inUnits : ((r.inUnits k).high : ℚ) / (r.inUnits k).den = r.high / r.den / 10 ^ k :=
  div_inUnits ..

theorem covers_inUnits {x : ℚ} : (r.inUnits k).Covers x ↔ r.Covers (x * 10 ^ k) := by
  have hpow : (0 : ℚ) < 10 ^ k := by positivity
  have hclosed : (r.inUnits k).closed = r.closed := rfl
  rw [Covers, Covers, low_inUnits, high_inUnits, hclosed, div_le_iff₀ hpow, le_div_iff₀ hpow,
    div_lt_iff₀ hpow, lt_div_iff₀ hpow]

/-! ### The search -/

theorem holds_of_pick? (h : r.pick? tie = some n) : r.holds n = true := by
  unfold pick? at h
  dsimp only at h
  split at h
  · cases h
  · cases h
    assumption
  · cases h
    assumption
  · cases tie <;> dsimp only at h <;> split_ifs at h <;> cases h <;> assumption

theorem holds_of_pick?_eq_none (h : r.pick? tie = none) :
    r.holds (r.value / r.den) = false ∧ r.holds (r.value / r.den + 1) = false := by
  unfold pick? at h
  dsimp only at h
  split at h
  · exact ⟨‹_›, ‹_›⟩
  · cases h
  · cases h
  · cases tie <;> dsimp only at h <;> split_ifs at h

/-- Numbers on the two sides of the double that are both outside are apart by the width. -/
theorem width_le_of_not_covers {x y : ℚ} (hx : ¬r.Covers x) (hy : ¬r.Covers y)
    (hxhigh : x < r.high / r.den) (hylow : (r.low : ℚ) / r.den < y) :
    (r.high : ℚ) / r.den - r.low / r.den ≤ y - x := by
  rw [Covers] at hx hy
  split_ifs at hx hy
  · have hlow : x < r.low / r.den := lt_of_not_ge fun h => hx ⟨h, hxhigh.le⟩
    have hhigh : (r.high : ℚ) / r.den < y := lt_of_not_ge fun h => hy ⟨hylow.le, h⟩
    linarith
  · have hlow : x ≤ r.low / r.den := le_of_not_gt fun h => hx ⟨h, hxhigh⟩
    have hhigh : (r.high : ℚ) / r.den ≤ y := le_of_not_gt fun h => hy ⟨hylow, h⟩
    linarith

/-- An interval around a number that is wider than one holds one of the neighbours. -/
theorem isSome_pick? (hden : 0 < r.den) (hlow : (r.low : ℚ) / r.den < r.value / r.den)
    (hhigh : (r.value : ℚ) / r.den < r.high / r.den)
    (hwide : 1 < (r.high : ℚ) / r.den - r.low / r.den) : (r.pick? tie).isSome = true := by
  cases hpick : r.pick? tie with
  | some n => rfl
  | none =>
    obtain ⟨hdown, hup⟩ := holds_of_pick?_eq_none hpick
    rw [Bool.eq_false_iff, ne_eq, holds_iff hden] at hdown hup
    have hq : (0 : ℚ) < r.den := by exact_mod_cast hden
    have hbelow : ((r.value / r.den : Nat) : ℚ) ≤ r.value / r.den := Nat.cast_div_le
    have habove : (r.value : ℚ) / r.den < ((r.value / r.den + 1 : Nat) : ℚ) := by
      rw [div_lt_iff₀ hq, mul_comm]
      exact_mod_cast Nat.lt_mul_div_succ r.value hden
    have hwidth := width_le_of_not_covers hdown hup (hbelow.trans_lt hhigh) (hlow.trans habove)
    push_cast at hwidth
    linarith

theorem covers_search (hden : 0 < r.den) (steps : Nat) (k : Int)
    (h : ∃ i < steps, ((r.inUnits (k - i)).pick? tie).isSome = true) :
    r.Covers (r.search tie steps k).amount := by
  induction steps generalizing k with
  | zero =>
    obtain ⟨i, hi, -⟩ := h
    omega
  | succ steps ih =>
    rw [search]
    split
    · rename_i n hpick
      exact covers_inUnits.mp ((holds_iff (den_inUnits_pos hden)).mp (holds_of_pick? hpick))
    · rename_i hnone
      refine ih (k - 1) ?_
      obtain ⟨i, hi, hsome⟩ := h
      cases i with
      | zero =>
        rw [Nat.cast_zero, sub_zero, hnone] at hsome
        cases hsome
      | succ i =>
        refine ⟨i, by omega, ?_⟩
        have hunits : k - 1 - (i : Int) = k - ((i + 1 : Nat) : Int) := by
          push_cast
          ring
        rw [hunits]
        exact hsome

/-! ### The interval of a double -/

variable {m : Nat} {e : Int}

/-- Quarters of the last place. -/
theorem div_quarters (a : Nat) (e : Int) :
    ((a * (1 <<< (e - 2).toNat) : Nat) : ℚ) / (1 <<< (2 - e).toNat : Nat) = a / 4 * 2 ^ e := by
  have hpow := zpow_eq_div 2 (e - 2)
  have hneg : -(e - 2) = 2 - e := by ring
  rw [hneg, Nat.cast_ofNat, zpow_sub₀ (by norm_num)] at hpow
  simp only [Nat.one_shiftLeft]
  push_cast at hpow ⊢
  rw [mul_div_assoc, ← hpow]
  ring

theorem den_of_pos : 0 < (Rounding.of m e).den := by
  change 0 < 1 <<< (2 - e).toNat
  rw [Nat.one_shiftLeft]
  exact Nat.two_pow_pos _

theorem value_of : ((Rounding.of m e).value : ℚ) / (Rounding.of m e).den = m * 2 ^ e := by
  rw [Rounding.of]
  dsimp only
  rw [div_quarters]
  push_cast
  ring

theorem high_of :
    ((Rounding.of m e).high : ℚ) / (Rounding.of m e).den = (m + 1 / 2) * 2 ^ e := by
  rw [Rounding.of]
  dsimp only
  rw [div_quarters]
  push_cast
  ring

/-- How far the interval goes down, in units of the last place. -/
def reach (m : Nat) (e : Int) : ℚ :=
  if m = Binary64.hiddenBit ∧ Binary64.leastExponent < e then 1 / 4 else 1 / 2

theorem low_of (hm : 0 < m) :
    ((Rounding.of m e).low : ℚ) / (Rounding.of m e).den = (m - reach m e) * 2 ^ e := by
  rw [Rounding.of, reach]
  dsimp only
  rw [div_quarters]
  split_ifs
  · rw [Nat.cast_sub (by omega)]
    push_cast
    ring
  · rw [Nat.cast_sub (by omega)]
    push_cast
    ring

theorem covers_of_iff {x : ℚ} (hm : 0 < m) : (Rounding.of m e).Covers x ↔
    if m % 2 = 0 then (m - reach m e) * 2 ^ e ≤ x ∧ x ≤ (m + 1 / 2) * 2 ^ e
    else (m - reach m e) * 2 ^ e < x ∧ x < (m + 1 / 2) * 2 ^ e := by
  have hclosed : (Rounding.of m e).closed = (m % 2 == 0) := rfl
  rw [Covers, low_of hm, high_of, hclosed]
  simp only [beq_iff_eq]

end Rounding

/-! ### The first digit -/

/-- `10 ^ 59` is little less than `2 ^ 196`. -/
theorem ten_pow_le_two_pow {n k : Nat} (h : 196 * n ≤ 59 * k) : (10 : ℚ) ^ n ≤ 2 ^ k := by
  rw [← pow_le_pow_iff_left₀ (by positivity) (by positivity) (show 59 ≠ 0 by decide)]
  calc ((10 : ℚ) ^ n) ^ 59
    _ = (10 ^ 59) ^ n := pow_right_comm _ _ _
    _ ≤ (2 ^ 196) ^ n := pow_le_pow_left₀ (by positivity) (by norm_num) n
    _ = 2 ^ (196 * n) := (pow_mul _ _ _).symm
    _ ≤ 2 ^ (59 * k) := pow_le_pow_right₀ (by norm_num) h
    _ = (2 ^ k) ^ 59 := by rw [mul_comm, pow_mul]

/-- `2 ^ 93` is little less than `10 ^ 28`. -/
theorem two_pow_le_ten_pow {n k : Nat} (h : 28 * k ≤ 93 * n) : (2 : ℚ) ^ k ≤ 10 ^ n := by
  rw [← pow_le_pow_iff_left₀ (by positivity) (by positivity) (show 93 ≠ 0 by decide)]
  calc ((2 : ℚ) ^ k) ^ 93
    _ = (2 ^ 93) ^ k := pow_right_comm _ _ _
    _ ≤ (10 ^ 28) ^ k := pow_le_pow_left₀ (by positivity) (by norm_num) k
    _ = 10 ^ (28 * k) := (pow_mul _ _ _).symm
    _ ≤ 10 ^ (93 * n) := pow_le_pow_right₀ (by norm_num) h
    _ = (10 ^ n) ^ 93 := by rw [mul_comm, pow_mul]

/-- The first guess at the exponent of ten is at most one too large. -/
theorem ten_zpow_guess_le {l : Int} (hlow : -10000 ≤ l) (hhigh : l ≤ 10000) :
    (10 : ℚ) ^ (l * 30103 / 100000 - 1) ≤ 2 ^ (l - 1) := by
  rcases Int.lt_or_le (l * 30103 / 100000) 1 with hg | hg
  · obtain ⟨n, hn⟩ := Int.eq_ofNat_of_zero_le (show 0 ≤ 1 - l * 30103 / 100000 by omega)
    have hexponent : l * 30103 / 100000 - 1 = -(n : Int) := by omega
    rw [hexponent, zpow_neg, zpow_natCast]
    rcases Int.lt_or_le l 1 with hl | hl
    · obtain ⟨k, hk⟩ := Int.eq_ofNat_of_zero_le (show 0 ≤ 1 - l by omega)
      obtain rfl : l = 1 - k := by omega
      rw [show (1 : Int) - k - 1 = -(k : Int) by ring, zpow_neg, zpow_natCast]
      exact inv_anti₀ (by positivity) (two_pow_le_ten_pow (by omega))
    · obtain ⟨k, hk⟩ := Int.eq_ofNat_of_zero_le (show 0 ≤ l - 1 by omega)
      rw [hk, zpow_natCast]
      exact (inv_le_one_of_one_le₀ (one_le_pow₀ (by norm_num))).trans (one_le_pow₀ (by norm_num))
  · obtain ⟨n, hn⟩ := Int.eq_ofNat_of_zero_le (show 0 ≤ l * 30103 / 100000 - 1 by omega)
    obtain ⟨k, hk⟩ := Int.eq_ofNat_of_zero_le (show 0 ≤ l - 1 by omega)
    rw [hn, hk, zpow_natCast, zpow_natCast]
    exact ten_pow_le_two_pow (by omega)

namespace Rounding

variable {r : Rounding}

/-- Two whole numbers differ by a factor between two powers of two. -/
theorem two_zpow_le_div {a d : Nat} (ha : 0 < a) (hd : 0 < d) :
    (2 : ℚ) ^ ((a.log2 : Int) - d.log2 - 1) ≤ a / d := by
  have ha' : (2 : ℚ) ^ a.log2 ≤ a := by exact_mod_cast Nat.log2_self_le (Nat.ne_of_gt ha)
  have hd' : (d : ℚ) ≤ 2 ^ (d.log2 + 1) := by exact_mod_cast Nat.lt_log2_self.le
  have hexponent : (a.log2 : Int) - d.log2 - 1 = a.log2 - (d.log2 + 1 : Nat) := by
    push_cast
    ring
  rw [hexponent, zpow_sub₀ (by norm_num), zpow_natCast, zpow_natCast]
  gcongr

/-- The value is at least the power of ten of its first digit. -/
theorem ten_zpow_magnitude_le (hvalue : 0 < r.value) (hden : 0 < r.den)
    (hlow : -10000 ≤ (r.value.log2 : Int) - r.den.log2)
    (hhigh : (r.value.log2 : Int) - r.den.log2 ≤ 10000) :
    (10 : ℚ) ^ r.magnitude ≤ r.value / r.den := by
  have hq : (0 : ℚ) < r.den := by exact_mod_cast hden
  have hatLeast (k : Int) (h : r.den * Nat.pow 10 k.toNat ≤ r.value * Nat.pow 10 (-k).toNat) :
      (10 : ℚ) ^ k ≤ r.value / r.den := by
    have hpow := zpow_eq_div 10 k
    rw [Nat.cast_ofNat] at hpow
    rw [hpow, div_le_div_iff₀ (by positivity) hq, mul_comm]
    exact_mod_cast h
  rw [magnitude]
  dsimp only
  split_ifs with hmore hsame
  · exact hatLeast _ (of_decide_eq_true hmore)
  · exact hatLeast _ (of_decide_eq_true hsame)
  · exact (ten_zpow_guess_le hlow hhigh).trans (two_zpow_le_div hvalue hden)

end Rounding

/-! ### The shortest decimal -/

/-- What is asked of the parts of a finite double. -/
structure IsDouble (m : Nat) (e : Int) : Prop where
  lt : m < 2 * Binary64.hiddenBit
  least : Binary64.leastExponent ≤ e
  largest : e ≤ 971
  normal : e = Binary64.leastExponent ∨ Binary64.hiddenBit ≤ m

namespace Rounding

variable {m : Nat} {e : Int}

theorem log2_of (h : IsDouble m e) (hm : 0 < m) :
    (Rounding.of m e).value.log2 < 1024 ∧ (Rounding.of m e).den.log2 ≤ 1076 := by
  have hlt := h.lt
  have hleast := h.least
  have hlargest := h.largest
  rw [Binary64.hiddenBit] at hlt
  rw [Binary64.leastExponent] at hleast
  constructor
  · change (4 * m * (1 <<< (e - 2).toNat)).log2 < 1024
    have hne : 4 * m * 2 ^ (e - 2).toNat ≠ 0 :=
      Nat.mul_ne_zero (by omega) (Nat.two_pow_pos _).ne'
    have hpow : 4 * m * 2 ^ (e - 2).toNat < 2 ^ (55 + (e - 2).toNat) := by
      rw [Nat.pow_add]
      exact Nat.mul_lt_mul_of_pos_right (by omega) (Nat.two_pow_pos _)
    have hlog := (Nat.log2_lt hne).mpr hpow
    rw [Nat.one_shiftLeft]
    omega
  · change (1 <<< (2 - e).toNat).log2 ≤ 1076
    rw [Nat.one_shiftLeft, Nat.log2_two_pow]
    omega

theorem reach_pos (m : Nat) (e : Int) : 0 < reach m e := by
  rw [reach]
  split_ifs <;> norm_num

/-- A ten to the sixteenth part of a double is less than its interval is wide. -/
theorem lt_width (h : IsDouble m e) : (m : ℚ) / 10 ^ 16 < 1 / 2 + reach m e := by
  rw [reach]
  split_ifs with hpower
  · rw [hpower.1, Binary64.hiddenBit]
    norm_num
  · have hlt := h.lt
    rw [Binary64.hiddenBit] at hlt
    have hltq : (m : ℚ) < 9007199254740992 := by exact_mod_cast hlt
    linarith

/-- The decimal that a double is written with lies in the interval of the double. -/
theorem covers_shortest (tie : Tie) (h : IsDouble m e) (hm : 0 < m) :
    (Rounding.of m e).Covers (shortest tie m e).amount := by
  have hden : 0 < (Rounding.of m e).den := den_of_pos
  have hvalue : 0 < (Rounding.of m e).value := by
    change 0 < 4 * m * (1 <<< (e - 2).toNat)
    rw [Nat.one_shiftLeft]
    positivity
  obtain ⟨hlogValue, hlogDen⟩ := log2_of h hm
  have hmagnitude := ten_zpow_magnitude_le hvalue hden (by omega) (by omega)
  rw [value_of] at hmagnitude
  have hreach := reach_pos m e
  have hplace : (0 : ℚ) < 2 ^ e := by positivity
  have hunit : (0 : ℚ) < 10 ^ ((Rounding.of m e).magnitude - (16 : Nat)) := by positivity
  have hsmall : (10 : ℚ) ^ ((Rounding.of m e).magnitude - (16 : Nat)) <
      (1 / 2 + reach m e) * 2 ^ e := by
    rw [zpow_sub₀ (by norm_num), zpow_natCast]
    calc (10 : ℚ) ^ (Rounding.of m e).magnitude / 10 ^ 16
      _ ≤ m * 2 ^ e / 10 ^ 16 := by gcongr
      _ = m / 10 ^ 16 * 2 ^ e := by ring
      _ < (1 / 2 + reach m e) * 2 ^ e := mul_lt_mul_of_pos_right (lt_width h) hplace
  refine covers_search hden 17 _ ⟨16, by decide, isSome_pick? (den_inUnits_pos hden) ?_ ?_ ?_⟩
  · rw [low_inUnits, value_inUnits, low_of hm, value_of]
    gcongr
    linarith
  · rw [high_inUnits, value_inUnits, high_of, value_of]
    gcongr
    linarith
  · rw [low_inUnits, high_inUnits, low_of hm, high_of, ← sub_div, one_lt_div hunit]
    linarith

end Rounding
end DesignLayout.Decimal
