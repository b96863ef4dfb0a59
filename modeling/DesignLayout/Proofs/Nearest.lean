import DesignLayout.Proofs.Doubles
import DesignLayout.Proofs.Rounding

/-! A fraction in the interval of a double is rounded to the double.

The nearest double is found from the binade of a fraction, the quotient of the two being rounded to
a whole number. For every fraction that the interval of a double holds that number is the mantissa
of the double (`nearestBits_of_covers`), be it that the fraction lies in the binade below. So the
double comes back from any decimal in its interval, the sign included (`nearest_of_covers`). -/
namespace DesignLayout.Decimal.Binary64

/-! ### Rounding to a whole number -/

theorem roundDiv_eq {num den n : Nat} (hden : 0 < den) (hlow : 2 * (n * den) ≤ 2 * num + den)
    (hhigh : 2 * num ≤ 2 * (n * den) + den)
    (htie : n % 2 = 0 ∨ 2 * (n * den) < 2 * num + den ∧ 2 * num < 2 * (n * den) + den) :
    roundDiv num den = n := by
  have hdiv := Nat.div_add_mod num den
  have hmod := Nat.mod_lt num hden
  rw [Nat.mul_comm] at hdiv
  rw [roundDiv]
  generalize num / den = q at hdiv ⊢
  generalize num % den = rest at hdiv hmod ⊢
  have hdown : q ≤ n := by
    by_contra hlt
    have hmul := Nat.mul_le_mul_right den (show n + 1 ≤ q by omega)
    rw [Nat.add_mul] at hmul
    omega
  have hup : n ≤ q + 1 := by
    by_contra hlt
    have hmul := Nat.mul_le_mul_right den (show q + 2 ≤ n by omega)
    rw [Nat.add_mul] at hmul
    omega
  simp only [Bool.or_eq_true, Bool.and_eq_true, decide_eq_true_eq, beq_iff_eq]
  obtain rfl | rfl : n = q ∨ n = q + 1 := by omega
  · rw [if_pos (by omega)]
  · rw [Nat.add_mul] at hlow htie
    rw [if_neg (by omega)]

/-- A fraction that is at most half away from a whole number. -/
theorem roundDiv_of_near {num den n : Nat} (hden : 0 < den) (hlow : (n : ℚ) - 1 / 2 ≤ num / den)
    (hhigh : (num : ℚ) / den ≤ n + 1 / 2)
    (htie : n % 2 = 0 ∨ (n : ℚ) - 1 / 2 < num / den ∧ (num : ℚ) / den < n + 1 / 2) :
    roundDiv num den = n := by
  have hq : (0 : ℚ) < den := by exact_mod_cast hden
  rw [le_div_iff₀ hq] at hlow
  rw [div_le_iff₀ hq] at hhigh
  rw [lt_div_iff₀ hq, div_lt_iff₀ hq] at htie
  have hlow' : (2 * (n * den) : ℚ) ≤ 2 * num + den := by linarith
  have hhigh' : (2 * num : ℚ) ≤ 2 * (n * den) + den := by linarith
  refine roundDiv_eq hden (by exact_mod_cast hlow') (by exact_mod_cast hhigh') ?_
  refine htie.imp_right fun ⟨hlt, hgt⟩ => ?_
  have hlt' : (2 * (n * den) : ℚ) < 2 * num + den := by linarith
  have hgt' : (2 * num : ℚ) < 2 * (n * den) + den := by linarith
  exact ⟨by exact_mod_cast hlt', by exact_mod_cast hgt'⟩

/-! ### The binade of a fraction -/

/-- The exponent of the greatest power of two that a fraction reaches. -/
def binade (num den : Nat) : Int :=
  let guess : Int := (num.log2 : Int) - den.log2
  if den <<< guess.toNat ≤ num <<< (-guess).toNat then guess else guess - 1

/-- A fraction shifted by a power of two. -/
theorem shiftLeft_div_shiftLeft (a d : Nat) (k : Int) :
    ((a <<< (-k).toNat : Nat) : ℚ) / (d <<< k.toNat : Nat) = a / d / 2 ^ k := by
  have hpow := zpow_eq_div 2 k
  rw [Nat.shiftLeft_eq, Nat.shiftLeft_eq]
  push_cast at hpow ⊢
  rw [hpow]
  field_simp

theorem shiftLeft_le_iff {a d : Nat} (hd : 0 < d) (k : Int) :
    d <<< k.toNat ≤ a <<< (-k).toNat ↔ (2 : ℚ) ^ k ≤ a / d := by
  have hpos : 0 < d <<< k.toNat := by
    rw [Nat.shiftLeft_eq]
    positivity
  have hq : (0 : ℚ) < (d <<< k.toNat : Nat) := by exact_mod_cast hpos
  rw [← one_le_div (by positivity : (0 : ℚ) < 2 ^ k), ← shiftLeft_div_shiftLeft, one_le_div hq,
    Nat.cast_le]

theorem div_lt_two_zpow {a d : Nat} (hd : 0 < d) :
    (a : ℚ) / d < 2 ^ ((a.log2 : Int) - d.log2 + 1) := by
  have ha' : (a : ℚ) < 2 ^ (a.log2 + 1) := by exact_mod_cast Nat.lt_log2_self
  have hd' : (2 : ℚ) ^ d.log2 ≤ d := by exact_mod_cast Nat.log2_self_le (Nat.ne_of_gt hd)
  have hexponent : (a.log2 : Int) - d.log2 + 1 = (a.log2 + 1 : Nat) - d.log2 := by
    push_cast
    ring
  rw [hexponent, zpow_sub₀ (by norm_num), zpow_natCast, zpow_natCast]
  exact div_lt_div₀ ha' hd' (by positivity) (by positivity)

theorem binade_spec {num den : Nat} (hnum : 0 < num) (hden : 0 < den) :
    (2 : ℚ) ^ binade num den ≤ num / den ∧ (num : ℚ) / den < 2 ^ (binade num den + 1) := by
  have hlow := Rounding.two_zpow_le_div hnum hden
  have hhigh := div_lt_two_zpow (a := num) hden
  rw [binade]
  split_ifs with hguess
  · exact ⟨(shiftLeft_le_iff hden _).mp hguess, hhigh⟩
  · rw [shiftLeft_le_iff hden, not_le] at hguess
    exact ⟨hlow, by rwa [sub_add_cancel]⟩

/-- A fraction below a power of two is in a binade below. -/
theorem binade_lt {num den : Nat} {b : Int} (hnum : 0 < num) (hden : 0 < den)
    (h : (num : ℚ) / den < 2 ^ b) : binade num den < b :=
  (zpow_lt_zpow_iff_right₀ (by norm_num)).mp ((binade_spec hnum hden).1.trans_lt h)

theorem le_binade {num den : Nat} {b : Int} (hnum : 0 < num) (hden : 0 < den)
    (h : (2 : ℚ) ^ b ≤ num / den) : b ≤ binade num den :=
  Int.lt_add_one_iff.mp
    ((zpow_lt_zpow_iff_right₀ (by norm_num)).mp (h.trans_lt (binade_spec hnum hden).2))

theorem nearestBits_eq {num den : Nat} (hnum : 0 < num) :
    nearestBits num den =
      min ((max (binade num den - 52) leastExponent - leastExponent).toNat * hiddenBit +
        roundDiv (num <<< (-max (binade num den - 52) leastExponent).toNat)
          (den <<< (max (binade num den - 52) leastExponent).toNat)) infinityBits :=
  if_neg (Nat.ne_of_gt hnum)

/-- A fraction of the binade of `e` that is nearest to `n` units. -/
theorem nearestBits_of_near {num den n : Nat} {e : Int} (hnum : 0 < num) (hden : 0 < den)
    (he : max (binade num den - 52) leastExponent = e)
    (hlow : (n : ℚ) - 1 / 2 ≤ num / den / 2 ^ e) (hhigh : (num : ℚ) / den / 2 ^ e ≤ n + 1 / 2)
    (htie : n % 2 = 0 ∨
      (n : ℚ) - 1 / 2 < num / den / 2 ^ e ∧ (num : ℚ) / den / 2 ^ e < n + 1 / 2) :
    nearestBits num den = min ((e - leastExponent).toNat * hiddenBit + n) infinityBits := by
  have hpos : 0 < den <<< e.toNat := by
    rw [Nat.shiftLeft_eq]
    positivity
  rw [← shiftLeft_div_shiftLeft] at hlow hhigh htie
  rw [nearestBits_eq hnum, he, roundDiv_of_near hpos hlow hhigh htie]

variable {m num den : Nat} {e : Int}

theorem reach_le (m : Nat) (e : Int) : Rounding.reach m e ≤ 1 / 2 := by
  rw [Rounding.reach]
  split_ifs <;> norm_num

/-- The ends of the interval in units of the last place. -/
theorem covers_units (hm : 0 < m) {x : ℚ} (h : (Rounding.of m e).Covers x) :
    m - Rounding.reach m e ≤ x / 2 ^ e ∧ x / 2 ^ e ≤ m + 1 / 2 ∧
      (m % 2 = 0 ∨ m - Rounding.reach m e < x / 2 ^ e ∧ x / 2 ^ e < m + 1 / 2) := by
  have hplace : (0 : ℚ) < 2 ^ e := by positivity
  rw [Rounding.covers_of_iff hm] at h
  rw [le_div_iff₀ hplace, div_le_iff₀ hplace, lt_div_iff₀ hplace, div_lt_iff₀ hplace]
  split_ifs at h with heven
  · exact ⟨h.1, h.2, .inl heven⟩
  · exact ⟨h.1.le, h.2.le, .inr h⟩

/-- A fraction in the interval of a double, in units of its last place. -/
theorem units_bounds {v : ℚ} (h : IsDouble m e) (hm : 0 < m)
    (hcovers : (Rounding.of m e).Covers v) : 0 < v ∧ v < 2 ^ (53 + e) := by
  obtain ⟨hlow, hhigh, -⟩ := covers_units hm hcovers
  have hreach := reach_le m e
  have hplace : (0 : ℚ) < 2 ^ e := by positivity
  have hm' : (1 : ℚ) ≤ m := by exact_mod_cast hm
  have hlt : (m : ℚ) + 1 ≤ 2 ^ 53 := by
    have hlt := h.lt
    rw [hiddenBit] at hlt
    exact_mod_cast (by omega : m + 1 ≤ 2 ^ 53)
  rw [le_div_iff₀ hplace] at hlow
  rw [div_le_iff₀ hplace] at hhigh
  constructor
  · refine lt_of_lt_of_le ?_ hlow
    exact mul_pos (by linarith) hplace
  · rw [zpow_add₀ (by norm_num)]
    refine hhigh.trans_lt (mul_lt_mul_of_pos_right ?_ hplace)
    norm_num at hlt ⊢
    linarith

/-- Only below a power of two the interval of a double reaches into another binade. -/
theorem eq_hiddenBit_of_lt {v : ℚ} (hm : 0 < m) (hnormal : hiddenBit ≤ m)
    (hcovers : (Rounding.of m e).Covers v) (hlt : v < 2 ^ (52 + e)) : m = hiddenBit := by
  obtain ⟨hlow, -, -⟩ := covers_units hm hcovers
  have hreach := reach_le m e
  have hplace : (0 : ℚ) < 2 ^ e := by positivity
  rw [zpow_add₀ (by norm_num), ← div_lt_iff₀ hplace] at hlt
  by_contra hne
  rw [hiddenBit] at hnormal hne
  have hle : (4503599627370497 : ℚ) ≤ m := by
    exact_mod_cast (by omega : 4503599627370497 ≤ m)
  norm_num at hlt
  linarith

/-- A fraction below a power of two, where the doubles are twice as close, is rounded up to it. -/
theorem nearestBits_below (hnum : 0 < num) (hden : 0 < den) (hleast : leastExponent < e)
    (hcovers : (Rounding.of hiddenBit e).Covers (num / den))
    (hlt : (num : ℚ) / den < 2 ^ (52 + e)) :
    nearestBits num den = min ((e - leastExponent).toNat * hiddenBit + hiddenBit) infinityBits := by
  obtain ⟨hlow, -, -⟩ := covers_units (by decide) hcovers
  have hplace : (0 : ℚ) < 2 ^ e := by positivity
  have hquarter : Rounding.reach hiddenBit e = 1 / 4 := if_pos ⟨rfl, hleast⟩
  have hhidden : (hiddenBit : ℚ) = 4503599627370496 := by norm_num [hiddenBit]
  rw [hquarter, hhidden] at hlow
  have hhigh : (num : ℚ) / den / 2 ^ e < 4503599627370496 := by
    rw [zpow_add₀ (by norm_num), ← div_lt_iff₀ hplace] at hlt
    norm_num at hlt
    exact hlt
  have hhalves : (num : ℚ) / den / 2 ^ (e - 1) = num / den / 2 ^ e * 2 := by
    rw [zpow_sub₀ (by norm_num), zpow_one]
    field_simp
  have hlower : (2 : ℚ) ^ (51 + e) ≤ num / den := by
    rw [zpow_add₀ (by norm_num), ← le_div_iff₀ hplace]
    norm_num
    linarith
  have hexponent : max (binade num den - 52) leastExponent = e - 1 := by
    have hge := le_binade hnum hden hlower
    have hlt := binade_lt hnum hden hlt
    omega
  have htwice : ((2 * hiddenBit : Nat) : ℚ) = 9007199254740992 := by norm_num [hiddenBit]
  rw [nearestBits_of_near (n := 2 * hiddenBit) hnum hden hexponent
    (by rw [hhalves, htwice]; linarith) (by rw [hhalves, htwice]; linarith) (.inl (by decide))]
  have hcount : (e - leastExponent).toNat = (e - 1 - leastExponent).toNat + 1 := by omega
  rw [hcount, Nat.add_mul]
  ring_nf

/-- The nearest double of a fraction in the interval of a double is that double. -/
theorem nearestBits_of_covers (h : IsDouble m e) (hm : 0 < m) (hden : 0 < den)
    (hcovers : (Rounding.of m e).Covers (num / den)) :
    nearestBits num den = (e - leastExponent).toNat * hiddenBit + m := by
  obtain ⟨hlow, hhigh, htie⟩ := covers_units hm hcovers
  obtain ⟨hpos, htop⟩ := units_bounds h hm hcovers
  have hreach := reach_le m e
  have hleast := h.least
  have hnum : 0 < num := by
    rcases Nat.eq_zero_or_pos num with rfl | hnum
    · rw [Nat.cast_zero, zero_div] at hpos
      exact absurd hpos (lt_irrefl 0)
    · exact hnum
  have hinfinity : (e - leastExponent).toNat * hiddenBit + m ≤ infinityBits := by
    have hlt := h.lt
    have hlargest := h.largest
    rw [leastExponent, infinityBits, hiddenBit] at *
    omega
  have hbinade := binade_lt hnum hden htop
  rw [← Nat.min_eq_left hinfinity]
  -- Below a power of two the interval reaches into a binade whose unit is half as large.
  by_cases hbelow : leastExponent < e ∧ (num : ℚ) / den < 2 ^ (52 + e)
  · obtain ⟨hless, hlt⟩ := hbelow
    have hnormal := h.normal.resolve_left (Int.ne_of_gt hless)
    obtain rfl := eq_hiddenBit_of_lt hm hnormal hcovers hlt
    exact nearestBits_below hnum hden hless hcovers hlt
  · have hexponent : max (binade num den - 52) leastExponent = e := by
      by_cases hless : leastExponent < e
      · have hge := le_binade hnum hden (le_of_not_gt fun hlt => hbelow ⟨hless, hlt⟩)
        omega
      · omega
    have htie' : m % 2 = 0 ∨
        (m : ℚ) - 1 / 2 < num / den / 2 ^ e ∧ (num : ℚ) / den / 2 ^ e < m + 1 / 2 :=
      htie.imp_right fun hnear => ⟨by linarith [hnear.1], hnear.2⟩
    exact nearestBits_of_near hnum hden hexponent (by linarith) hhigh htie'

/-! ### The double itself -/

/-- The parts of a finite double make up its bits. -/
theorem parts_of_isFinite {x : Float} (h : x.isFinite = true) :
    ∃ negative m e, ofFloat x = .finite negative m e ∧ IsDouble m e ∧
      x.toBits.toNat =
        if negative then (e - leastExponent).toNat * hiddenBit + m + signBit
        else (e - leastExponent).toNat * hiddenBit + m := by
  rw [isFinite_iff] at h
  have hlt : x.toBits.toNat < 2 ^ 64 := x.toBits.toNat_lt
  rw [ofFloat]
  generalize x.toBits.toNat = bits at h hlt
  have hfield : ¬bits / hiddenBit % 2048 = 2047 := h
  rw [ofBits, if_neg hfield]
  by_cases hzero : bits / hiddenBit % 2048 = 0
  · rw [if_pos hzero]
    refine ⟨_, _, _, rfl, ⟨?_, Int.le_refl _, by decide, .inl rfl⟩, ?_⟩
    · exact (Nat.mod_lt _ (by decide)).trans (by decide)
    · simp only [beq_iff_eq, signBit, hiddenBit, sub_self, Int.toNat_zero] at hzero ⊢
      split_ifs <;> omega
  · rw [if_neg hzero]
    have hmod := Nat.mod_lt bits (show 0 < hiddenBit by decide)
    refine ⟨_, _, _, rfl, ⟨by omega, ?_, ?_, .inr (Nat.le_add_left ..)⟩, ?_⟩
    · rw [leastExponent]
      omega
    · rw [leastExponent]
      omega
    · simp only [beq_iff_eq, signBit, hiddenBit, leastExponent] at hzero hfield ⊢
      split_ifs <;> omega

/-- A decimal in the interval of a double reads as the double. -/
theorem nearest_of_covers {x : Float} {negative : Bool} {m num den : Nat} {e : Int} (hm : 0 < m)
    (hx : ofFloat x = .finite negative m e) (hfinite : x.isFinite = true) (hden : 0 < den)
    (hcovers : (Rounding.of m e).Covers (num / den)) : nearest negative num den = x := by
  obtain ⟨negative', m', e', hparts, hdouble, hbits⟩ := parts_of_isFinite hfinite
  rw [hx] at hparts
  obtain ⟨rfl, rfl, rfl⟩ := finite.inj hparts
  rw [← Float.toBits_inj, ← UInt64.toNat_inj, toBits_nearest, hbits, signedBits,
    nearestBits_of_covers hdouble hm hden hcovers]

/-- The two zeros. -/
theorem nearest_zero {x : Float} {negative : Bool} {e : Int}
    (hx : ofFloat x = .finite negative 0 e) (hfinite : x.isFinite = true) :
    nearest negative 0 1 = x := by
  obtain ⟨negative', m', e', hparts, hdouble, hbits⟩ := parts_of_isFinite hfinite
  rw [hx] at hparts
  obtain ⟨rfl, rfl, rfl⟩ := finite.inj hparts
  have hleast : e = leastExponent := hdouble.normal.resolve_right (by decide)
  rw [← Float.toBits_inj, ← UInt64.toNat_inj, toBits_nearest, hbits, signedBits, hleast, sub_self]
  cases negative <;> rfl

end DesignLayout.Decimal.Binary64
