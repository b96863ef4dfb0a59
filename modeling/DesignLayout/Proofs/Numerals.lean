import DesignLayout.Decimal.Numeral
import DesignLayout.Decimal.Text
import DesignLayout.Proofs.Nearest

/-! The written form of a double reads as the double.

The digits of a figure, its point and its exponent make up a numeral whose amount is that of the
figure (`stands_positional`, `stands_scientific`), and a numeral is scanned from its characters
(`scan?_chars`). As the shortest figure of a double lies in its interval, the value of the numeral
is the double again (`value_of_covers`). -/
namespace DesignLayout.Decimal

/-! ### Digits -/

theorem digitsValue_eq (ds : List Char) : digitsValue ds = Nat.ofDigitChars 10 ds 0 := rfl

theorem digitsValue_append (ds es : List Char) :
    digitsValue (ds ++ es) = digitsValue ds * 10 ^ es.length + digitsValue es := by
  rw [digitsValue_eq, Nat.ofDigitChars_append, Nat.ofDigitChars_eq_ofDigitChars_zero, Nat.mul_comm]
  rfl

@[simp] theorem length_zeros (n : Nat) : (zeros n).length = n :=
  List.length_replicate

@[simp] theorem digitsValue_zeros (n : Nat) : digitsValue (zeros n) = 0 :=
  Nat.ofDigitChars_replicate_zero

@[simp] theorem digitsValue_toDigits (n : Nat) : digitsValue (Nat.toDigits 10 n) = n :=
  Nat.ofDigitChars_ten_toDigits

@[simp] theorem digitsValue_zero : digitsValue ['0'] = 0 := rfl

theorem digitsValue_lt {ds : List Char} (h : ∀ c ∈ ds, c.isDigit = true) :
    digitsValue ds < 10 ^ ds.length := by
  induction ds using List.reverseRecOn with
  | nil => decide
  | append_singleton ds c ih =>
    have hrest := ih fun d hd => h d (List.mem_append_left _ hd)
    have hc := h c (by simp)
    have hlast : digitsValue [c] < 10 := by
      change 10 * 0 + (c.toNat - 48) < 10
      simp only [Char.isDigit, Bool.and_eq_true, decide_eq_true_eq, ge_iff_le,
        UInt32.le_iff_toNat_le] at hc
      have hle : c.toNat ≤ 57 := hc.2
      omega
    rw [digitsValue_append, List.length_append, List.length_singleton, pow_one, pow_succ]
    omega

theorem isDigit_zeros {n : Nat} {c : Char} (h : c ∈ zeros n) : c.isDigit = true := by
  rw [List.eq_of_mem_replicate h]
  rfl

theorem isDigit_toDigits {n : Nat} {c : Char} (h : c ∈ Nat.toDigits 10 n) : c.isDigit = true :=
  Nat.isDigit_of_mem_toDigits (by decide) (by decide) h

/-- The digits of a positive number begin with another one than zero. -/
theorem head?_toDigits {n : Nat} (h : 0 < n) : (Nat.toDigits 10 n).head? ≠ some '0' := by
  induction n using Nat.strong_induction_on with
  | _ n ih =>
    by_cases hn : n < 10
    · rw [Nat.toDigits_of_lt_base hn]
      interval_cases n <;> decide
    · rw [Nat.toDigits_of_base_le (by decide) (by omega),
        List.head?_append_of_ne_nil _ Nat.toDigits_ne_nil]
      exact ih _ (by omega) (by omega)

namespace Figure

variable {f : Figure}

/-- The digits of a figure with the zeros at its end. -/
theorem toDigits_eq (f : Figure) : ∃ k,
    Nat.toDigits 10 f.digits = f.significant.1 ++ zeros k ∧
      f.significant.2 + 1 - f.significant.1.length = f.exponent + k := by
  have hsplit := List.rdropWhile_append_rtakeWhile (p := (· == '0')) (l := Nat.toDigits 10 f.digits)
  have hall : ∀ c ∈ List.rtakeWhile (· == '0') (Nat.toDigits 10 f.digits), c = '0' :=
    fun c hc => eq_of_beq (List.mem_rtakeWhile_imp (p := (· == '0')) hc)
  rw [List.eq_replicate_of_mem hall] at hsplit
  refine ⟨_, hsplit.symm, ?_⟩
  have hlength := congrArg List.length hsplit
  rw [List.length_append, List.length_replicate] at hlength
  change f.exponent + (Nat.toDigits 10 f.digits).length - 1 + 1 -
    (List.rdropWhile (· == '0') (Nat.toDigits 10 f.digits)).length = _
  omega

theorem isDigit_significant {c : Char} (h : c ∈ f.significant.1) : c.isDigit = true := by
  obtain ⟨k, hdigits, -⟩ := toDigits_eq f
  exact isDigit_toDigits (n := f.digits) (hdigits ▸ List.mem_append_left _ h)

theorem amount_eq (f : Figure) :
    f.amount =
      digitsValue f.significant.1 * 10 ^ (f.significant.2 + 1 - f.significant.1.length) := by
  obtain ⟨k, hdigits, hexponent⟩ := toDigits_eq f
  have hvalue := congrArg digitsValue hdigits
  rw [digitsValue_toDigits, digitsValue_append, digitsValue_zeros, length_zeros,
    Nat.add_zero] at hvalue
  rw [amount, hexponent, hvalue, zpow_add₀ (by norm_num), zpow_natCast]
  push_cast
  ring

theorem significant_ne_nil (h : 0 < f.digits) : f.significant.1 ≠ [] := by
  intro hnil
  obtain ⟨k, hdigits, -⟩ := toDigits_eq f
  have hvalue := congrArg digitsValue hdigits
  rw [digitsValue_toDigits, hnil, List.nil_append, digitsValue_zeros] at hvalue
  omega

theorem head?_significant (h : 0 < f.digits) : f.significant.1.head? ≠ some '0' := by
  obtain ⟨k, hdigits, -⟩ := toDigits_eq f
  have hhead := head?_toDigits h
  rwa [hdigits, List.head?_append_of_ne_nil _ (significant_ne_nil h)] at hhead

end Figure

/-! ### Characters -/

def Sign.chars : Sign → List Char
  | .none => []
  | .plus => ['+']
  | .minus => ['-']

namespace Numeral

variable {n : Numeral}

/-- The point with its digits. -/
def fractionChars : Option (List Char) → List Char
  | none => []
  | some digits => '.' :: digits

def exponentChars : Option (Sign × List Char) → List Char
  | none => []
  | some (sign, digits) => 'e' :: sign.chars ++ digits

/-- What follows the sign. -/
def body (n : Numeral) : List Char :=
  n.whole ++ (fractionChars n.fraction ++ exponentChars n.exponent)

def chars (n : Numeral) : List Char :=
  n.sign.chars ++ n.body

/-- A numeral of digits, with some wherever there can be some and no needless zero in front. -/
structure Proper (n : Numeral) : Prop where
  digits : ∀ c ∈ n.digits, c.isDigit = true
  whole : n.whole ≠ []
  front : n.whole = ['0'] ∨ n.whole.head? ≠ some '0'
  fraction : n.fraction ≠ some []
  exponent : ∀ x ∈ n.exponent, x.2 ≠ [] ∧ ∀ c ∈ x.2, c.isDigit = true

/-- Digits are followed by none. -/
def EndsDigits (rest : List Char) : Prop :=
  ∀ c ∈ rest.head?, c.isDigit = false

theorem takeWhile_digits {ds rest : List Char} (hds : ∀ c ∈ ds, c.isDigit = true)
    (hrest : EndsDigits rest) : (ds ++ rest).takeWhile Char.isDigit = ds := by
  rw [List.takeWhile_append_of_pos hds]
  cases rest with
  | nil => simp
  | cons c rest => simp [hrest c rfl]

theorem dropWhile_digits {ds rest : List Char} (hds : ∀ c ∈ ds, c.isDigit = true)
    (hrest : EndsDigits rest) : (ds ++ rest).dropWhile Char.isDigit = rest := by
  rw [List.dropWhile_append_of_pos hds]
  cases rest with
  | nil => simp
  | cons c rest => simp [hrest c rfl]

theorem split_cons (c : Char) (cs : List Char) : Sign.split (c :: cs) =
    if c = '+' then (.plus, cs) else if c = '-' then (.minus, cs) else (.none, c :: cs) := by
  rw [Sign.split.eq_def]
  split
  · rename_i heq
    obtain ⟨rfl, rfl⟩ := List.cons.inj heq
    rfl
  · rename_i heq
    obtain ⟨rfl, rfl⟩ := List.cons.inj heq
    rfl
  · rename_i hplus hminus
    rw [if_neg fun hc => hplus cs (congrArg (· :: cs) hc),
      if_neg fun hc => hminus cs (congrArg (· :: cs) hc)]

theorem split_chars (sign : Sign) {ds : List Char} (hds : ds ≠ [])
    (hdigits : ∀ c ∈ ds, c.isDigit = true) (rest : List Char) :
    Sign.split (sign.chars ++ (ds ++ rest)) = (sign, ds ++ rest) := by
  cases sign with
  | plus => rfl
  | minus => rfl
  | none =>
    obtain ⟨c, cs, rfl⟩ := List.exists_cons_of_ne_nil hds
    have hc := hdigits c List.mem_cons_self
    have hplus : c ≠ '+' := by
      rintro rfl
      cases hc
    have hminus : c ≠ '-' := by
      rintro rfl
      cases hc
    change Sign.split (c :: (cs ++ rest)) = _
    rw [split_cons, if_neg hplus, if_neg hminus]
    rfl

theorem endsDigits_exponentChars (e : Option (Sign × List Char)) :
    EndsDigits (exponentChars e) := by
  intro c hc
  cases e with
  | none => cases hc
  | some x =>
    cases hc
    rfl

theorem scanExponent?_chars {e : Option (Sign × List Char)}
    (h : ∀ x ∈ e, x.2 ≠ [] ∧ ∀ c ∈ x.2, c.isDigit = true) :
    scanExponent? (exponentChars e) = some e := by
  cases e with
  | none => rfl
  | some x =>
    obtain ⟨sign, digits⟩ := x
    obtain ⟨hne, hdigits⟩ := h _ rfl
    have hsplit := split_chars sign hne hdigits []
    rw [List.append_nil] at hsplit
    change scanExponent? ('e' :: (sign.chars ++ digits)) = _
    rw [scanExponent?, if_pos (.inl rfl), hsplit]
    exact if_pos ⟨hne, List.all_eq_true.mpr hdigits⟩

theorem endsDigits_rest (f : Option (List Char)) (e : Option (Sign × List Char)) :
    EndsDigits (fractionChars f ++ exponentChars e) := by
  cases f with
  | none => exact endsDigits_exponentChars e
  | some ds =>
    intro c hc
    cases hc
    rfl

/-- A numeral is found again in its characters. -/
theorem scan?_chars (h : n.Proper) : scan? n.chars = some n := by
  obtain ⟨sign, whole, fraction, exponent⟩ := n
  have hwhole : ∀ c ∈ whole, c.isDigit = true := fun c hc => h.digits c (List.mem_append_left _ hc)
  have hends := endsDigits_rest fraction exponent
  rw [scan?, chars, body, split_chars sign h.whole hwhole]
  dsimp only
  rw [takeWhile_digits hwhole hends, dropWhile_digits hwhole hends,
    if_neg fun hnil => h.whole hnil.1]
  have hexponent := scanExponent?_chars h.exponent
  cases fraction with
  | none =>
    have hscan := congrArg (Option.map (Numeral.mk sign whole none)) hexponent
    cases exponent <;> exact hscan
  | some ds =>
    have hds : ∀ c ∈ ds, c.isDigit = true := fun c hc => h.digits c (List.mem_append_right _ hc)
    have hends := endsDigits_exponentChars exponent
    change Option.map
      (Numeral.mk sign whole (some ((ds ++ exponentChars exponent).takeWhile Char.isDigit)))
      (scanExponent? ((ds ++ exponentChars exponent).dropWhile Char.isDigit)) = _
    rw [takeWhile_digits hds hends, dropWhile_digits hds hends, hexponent]
    rfl

/-! ### The value of a numeral -/

/-- The number that a numeral stands for, its sign left out. -/
def amount (n : Numeral) : ℚ :=
  digitsValue n.digits * 10 ^ n.power

/-- The numbers in the interval of a double lie far within the powers that are cut off. -/
theorem bounds_of_covers {m : Nat} {e : Int} (h : IsDouble m e) (hm : 0 < m) {v : ℚ}
    (hcovers : (Rounding.of m e).Covers v) : ((10 : ℚ) ^ 400)⁻¹ ≤ v ∧ v < 10 ^ 400 := by
  obtain ⟨hlow, -, -⟩ := Binary64.covers_units hm hcovers
  obtain ⟨-, hhigh⟩ := Binary64.units_bounds h hm hcovers
  have hreach := Binary64.reach_le m e
  have hplace : (0 : ℚ) < 2 ^ e := by positivity
  have hm' : (1 : ℚ) ≤ m := by exact_mod_cast hm
  have hleast := h.least
  have hlargest := h.largest
  rw [Binary64.leastExponent] at hleast
  rw [le_div_iff₀ hplace] at hlow
  constructor
  · calc ((10 : ℚ) ^ 400)⁻¹
      _ ≤ (2 ^ 1075)⁻¹ := inv_anti₀ (by positivity) (two_pow_le_ten_pow (by decide))
      _ = 2 ^ (-(1075 : Nat) : Int) := by rw [zpow_neg, zpow_natCast]
      _ ≤ 2 ^ (e - 1) := zpow_le_zpow_right₀ (by norm_num) (by omega)
      _ = 1 / 2 * 2 ^ e := by rw [zpow_sub₀ (by norm_num), zpow_one]; ring
      _ ≤ (m - Rounding.reach m e) * 2 ^ e := by gcongr; linarith
      _ ≤ v := hlow
  · calc v
      _ < 2 ^ (53 + e) := hhigh
      _ ≤ 2 ^ ((1024 : Nat) : Int) := zpow_le_zpow_right₀ (by norm_num) (by omega)
      _ = 2 ^ 1024 := zpow_natCast ..
      _ ≤ 10 ^ 400 := two_pow_le_ten_pow (by decide)

/-- A numeral whose amount lies in the interval of a double has the double as its value. -/
theorem value_of_covers {x : Float} {m : Nat} {e : Int} (hdigits : ∀ c ∈ n.digits, c.isDigit = true)
    (hm : 0 < m) (hx : Binary64.ofFloat x = .finite n.isNegative m e) (hfinite : x.isFinite = true)
    (hcovers : (Rounding.of m e).Covers n.amount) : n.value = x := by
  obtain ⟨negative', m', e', hparts, hdouble, -⟩ := Binary64.parts_of_isFinite hfinite
  rw [hx] at hparts
  obtain ⟨-, rfl, rfl⟩ := Binary64.finite.inj hparts
  obtain ⟨hlow, hhigh⟩ := bounds_of_covers hdouble hm hcovers
  rw [← zpow_natCast] at hlow hhigh
  rw [← zpow_neg] at hlow
  -- The bounds say that neither of the two cut-offs of `value` applies.
  have hpower : (0 : ℚ) < 10 ^ n.power := by positivity
  have hmantissa : 0 < digitsValue n.digits := by
    rw [Nat.pos_iff_ne_zero]
    intro hzero
    rw [amount, hzero, Nat.cast_zero, zero_mul] at hlow
    exact absurd hlow (not_le_of_gt (by positivity))
  have hone : (1 : ℚ) ≤ digitsValue n.digits := by exact_mod_cast hmantissa
  have hlt : (digitsValue n.digits : ℚ) < 10 ^ n.digits.length := by
    exact_mod_cast digitsValue_lt hdigits
  have hsize : -400 < n.power + n.digits.length := by
    refine (zpow_lt_zpow_iff_right₀ (by norm_num : (1 : ℚ) < 10)).mp (hlow.trans_lt ?_)
    rw [amount, zpow_add₀ (by norm_num), zpow_natCast, mul_comm]
    exact mul_lt_mul_of_pos_left hlt hpower
  have hsmall : n.power < 400 := by
    refine (zpow_lt_zpow_iff_right₀ (by norm_num : (1 : ℚ) < 10)).mp (lt_of_le_of_lt ?_ hhigh)
    exact le_mul_of_one_le_left hpower.le hone
  have hfraction : ((digitsValue n.digits * Nat.pow 10 n.power.toNat : Nat) : ℚ) /
      (Nat.pow 10 (-n.power).toNat : Nat) = n.amount := by
    have hpow := zpow_eq_div 10 n.power
    simp only [Nat.pow_eq]
    push_cast at hpow ⊢
    rw [amount, hpow, mul_div_assoc]
  rw [value, if_neg (by omega), if_neg (by omega)]
  refine Binary64.nearest_of_covers hm hx hfinite (Nat.pow_pos (by decide)) ?_
  rw [hfraction]
  exact hcovers

/-- A numeral of zeros has one of the two zeros as its value. -/
theorem value_of_zero {x : Float} {e : Int} (hdigits : digitsValue n.digits = 0)
    (hx : Binary64.ofFloat x = .finite n.isNegative 0 e) (hfinite : x.isFinite = true) :
    n.value = x := by
  rw [value, hdigits]
  exact (if_pos (.inl rfl)).trans (Binary64.nearest_zero hx hfinite)

/-! ### Signs -/

/-- The numeral with the sign of a number. -/
def signed (negative : Bool) (n : Numeral) : Numeral :=
  { n with sign := if negative then .minus else .none }

@[simp] theorem isNegative_signed (negative : Bool) (n : Numeral) :
    (n.signed negative).isNegative = negative := by
  cases negative <;> rfl

theorem sign_signed (negative : Bool) (n : Numeral) : (n.signed negative).sign ≠ .plus := by
  cases negative
  · exact (by decide : Sign.none ≠ .plus)
  · exact (by decide : Sign.minus ≠ .plus)

theorem chars_signed (negative : Bool) (n : Numeral) :
    (n.signed negative).chars = if negative then '-' :: n.body else n.body := by
  cases negative <;> rfl

theorem Proper.signed (h : n.Proper) (negative : Bool) : (n.signed negative).Proper :=
  ⟨h.digits, h.whole, h.front, h.fraction, h.exponent⟩

/-- The numeral of a whole number. -/
def ofInt (k : Int) : Numeral :=
  signed (k < 0) ⟨.none, Nat.toDigits 10 k.natAbs, none, none⟩

theorem proper_ofInt (k : Int) : (ofInt k).Proper := by
  refine Proper.signed ⟨fun c hc => ?_, Nat.toDigits_ne_nil, ?_, by simp, by simp⟩ _
  · rw [digits, Option.getD_none, List.append_nil] at hc
    exact isDigit_toDigits hc
  · rcases Nat.eq_zero_or_pos k.natAbs with hk | hk
    · exact .inl (by rw [hk]; rfl)
    · exact .inr (head?_toDigits hk)

theorem chars_ofInt (k : Int) : (ofInt k).chars = (toString k).toList := by
  rw [ofInt, chars_signed, Int.toString_eq_repr, body, fractionChars, exponentChars]
  cases k with
  | ofNat k =>
    rw [if_neg (by simp)]
    change Nat.toDigits 10 k ++ ([] ++ []) = k.repr.toList
    simp
  | negSucc k =>
    rw [if_pos (by simp)]
    change ['-'] ++ (Nat.toDigits 10 (k + 1) ++ ([] ++ [])) = ("-" ++ (k + 1).repr).toList
    simp

/-! ### Figures -/

/-- The text is a numeral of the amount, with a point or an exponent. -/
structure Shows (n : Numeral) (text : List Char) (v : ℚ) : Prop where
  proper : n.Proper
  pointed : n.isWhole = false
  body_eq : n.body = text
  amount_eq : n.amount = v

/-- A figure is shown when its digits are, further zeros counted by the power. -/
theorem amount_eq_of {m k : Nat} {e : Int} (hvalue : digitsValue n.digits = m * 10 ^ k)
    (hpower : n.power + k = e) : n.amount = m * 10 ^ e := by
  rw [amount, hvalue, ← hpower, zpow_add₀ (by norm_num), zpow_natCast]
  push_cast
  ring

section

variable {style : Style} {ds : List Char} {first : Int}

/-- A figure below one. -/
theorem shows_small (hdigits : ∀ c ∈ ds, c.isDigit = true) (hds : ds ≠ []) (hfirst : first < 0) :
    Shows ⟨.none, ['0'], some (zeros (-first - 1).toNat ++ ds), none⟩
      (positionalText style ds first) (digitsValue ds * 10 ^ (first + 1 - ds.length)) where
  proper :=
    { digits := by
        change ∀ c ∈ ['0'] ++ (zeros _ ++ ds), c.isDigit = true
        simp only [List.forall_mem_append, List.forall_mem_singleton]
        exact ⟨rfl, fun c => isDigit_zeros, hdigits⟩
      whole := by simp
      front := .inl rfl
      fraction := by simp [hds]
      exponent := by simp }
  pointed := rfl
  body_eq := by
    rw [positionalText, if_pos hfirst]
    simp [body, fractionChars, exponentChars]
  amount_eq := by
    refine amount_eq_of (k := 0) ?_ ?_
    · change digitsValue (['0'] ++ (zeros _ ++ ds)) = _
      rw [digitsValue_append, digitsValue_append]
      simp
    · change 0 - ((zeros (-first - 1).toNat ++ ds).length : Int) + (0 : Nat) = _
      rw [List.length_append, length_zeros]
      omega

/-- A whole figure, filled up with zeros. -/
theorem shows_padded (hafter : style.afterWhole = ".0") (hdigits : ∀ c ∈ ds, c.isDigit = true)
    (hds : ds ≠ []) (hhead : ds.head? ≠ some '0') (hfirst : 0 ≤ first)
    (hlength : ds.length ≤ first.toNat + 1) :
    Shows ⟨.none, ds ++ zeros (first.toNat + 1 - ds.length), some ['0'], none⟩
      (positionalText style ds first) (digitsValue ds * 10 ^ (first + 1 - ds.length)) where
  proper :=
    { digits := by
        change ∀ c ∈ (ds ++ zeros _) ++ ['0'], c.isDigit = true
        simp only [List.forall_mem_append, List.forall_mem_singleton]
        exact ⟨⟨hdigits, fun c => isDigit_zeros⟩, rfl⟩
      whole := by simp [hds]
      front := .inr (by rwa [List.head?_append_of_ne_nil _ hds])
      fraction := by simp
      exponent := by simp }
  pointed := rfl
  body_eq := by
    rw [positionalText, if_neg (by omega), if_pos hlength, hafter]
    simp [body, fractionChars, exponentChars]
  amount_eq := by
    refine amount_eq_of (k := first.toNat + 1 - ds.length + 1) ?_ ?_
    · change digitsValue ((ds ++ zeros _) ++ ['0']) = _
      rw [digitsValue_append, digitsValue_append, pow_succ]
      simp [mul_assoc]
    · change 0 - (1 : Int) + _ = _
      omega

/-- A figure with the point among its digits. -/
theorem shows_split (hdigits : ∀ c ∈ ds, c.isDigit = true) (hds : ds ≠ [])
    (hhead : ds.head? ≠ some '0') (hfirst : 0 ≤ first) (hlength : first.toNat + 1 < ds.length) :
    Shows ⟨.none, ds.take (first.toNat + 1), some (ds.drop (first.toNat + 1)), none⟩
      (positionalText style ds first) (digitsValue ds * 10 ^ (first + 1 - ds.length)) where
  proper :=
    { digits := by
        change ∀ c ∈ ds.take _ ++ ds.drop _, c.isDigit = true
        rwa [List.take_append_drop]
      whole := by simp [hds]
      front := .inr (by rwa [List.head?_take, if_neg (Nat.succ_ne_zero _)])
      fraction := by simpa using hlength
      exponent := by simp }
  pointed := rfl
  body_eq := by
    rw [positionalText, if_neg (by omega), if_neg (by omega)]
    simp [body, fractionChars, exponentChars]
  amount_eq := by
    refine amount_eq_of (k := 0) ?_ ?_
    · change digitsValue (ds.take _ ++ ds.drop _) = _
      rw [List.take_append_drop, pow_zero, mul_one]
    · change 0 - ((ds.drop (first.toNat + 1)).length : Int) + (0 : Nat) = _
      rw [List.length_drop]
      omega

/-- The written power of ten. -/
def written (first : Int) : Sign × List Char :=
  (if first < 0 then .minus else .plus, Nat.toDigits 10 first.natAbs)

theorem exponentChars_written : exponentChars (some (written first)) =
    'e' :: (if first < 0 then '-' else '+') :: Nat.toDigits 10 first.natAbs := by
  rw [exponentChars.eq_def, written]
  dsimp only
  split_ifs <;> rfl

theorem power_written (sign : Sign) (whole : List Char) (fraction : Option (List Char)) :
    power ⟨sign, whole, fraction, some (written first)⟩ = first - (fraction.getD []).length := by
  rw [power, written]
  dsimp only
  split_ifs with h
  · dsimp only
    rw [digitsValue_toDigits]
    omega
  · dsimp only
    rw [digitsValue_toDigits]
    omega

/-- A figure with an exponent. -/
theorem shows_scientific {c : Char} (fraction : Option (List Char))
    (hdigits : ∀ d ∈ c :: fraction.getD [], d.isDigit = true) (hhead : c ≠ '0')
    (hfraction : fraction ≠ some []) :
    Shows ⟨.none, [c], fraction, some (written first)⟩
      (scientificText (c :: fraction.getD []) first)
      (digitsValue (c :: fraction.getD []) * 10 ^ (first - (fraction.getD []).length)) where
  proper :=
    { digits := hdigits
      whole := List.cons_ne_nil _ _
      front := .inr (by simpa using hhead)
      fraction := hfraction
      exponent := by
        rintro x ⟨⟩
        exact ⟨Nat.toDigits_ne_nil, fun c => isDigit_toDigits⟩ }
  pointed := Bool.and_false _
  body_eq := by
    rw [body, exponentChars_written]
    cases fraction with
    | none => rfl
    | some ds =>
      obtain ⟨d, ds, rfl⟩ := List.exists_cons_of_ne_nil fun h => hfraction (congrArg some h)
      rfl
  amount_eq := by
    rw [amount, power_written]
    rfl

end

end Numeral

/-! ### Written doubles -/

namespace Style

variable {style : Style} {m : Nat} {e : Int}

/-- A positive double is written with its shortest figure. -/
theorem shows_magnitude (hafter : style.afterWhole = ".0") (hm : 0 < m)
    (hfigure : 0 < (shortest style.tie m e).digits) :
    ∃ n, Numeral.Shows n (style.magnitude m e) (shortest style.tie m e).amount := by
  have hdigits : ∀ c ∈ (shortest style.tie m e).significant.1, c.isDigit = true :=
    fun c => Figure.isDigit_significant
  have hds := Figure.significant_ne_nil hfigure
  have hhead := Figure.head?_significant hfigure
  rw [magnitude, if_neg (by omega), Figure.amount_eq]
  generalize (shortest style.tie m e).significant = s at hdigits hds hhead ⊢
  obtain ⟨ds, first⟩ := s
  dsimp only at hdigits hds hhead ⊢
  split_ifs
  · rcases Int.lt_or_le first 0 with hfirst | hfirst
    · exact ⟨_, Numeral.shows_small hdigits hds hfirst⟩
    · rcases Nat.lt_or_ge (first.toNat + 1) ds.length with hlength | hlength
      · exact ⟨_, Numeral.shows_split hdigits hds hhead hfirst hlength⟩
      · exact ⟨_, Numeral.shows_padded hafter hdigits hds hhead hfirst hlength⟩
  · obtain ⟨c, cs, rfl⟩ := List.exists_cons_of_ne_nil hds
    have hc : c ≠ '0' := fun h => hhead (congrArg some h)
    have hexponent : first + 1 - ((c :: cs).length : Nat) = first - cs.length := by
      rw [List.length_cons]
      omega
    rw [hexponent]
    cases cs with
    | nil => exact ⟨_, Numeral.shows_scientific none hdigits hc (by simp)⟩
    | cons d ds =>
      exact ⟨_, Numeral.shows_scientific (some (d :: ds)) hdigits hc (by simp)⟩

theorem shows_zero (hafter : style.afterWhole = ".0") :
    Numeral.Shows ⟨.none, ['0'], some ['0'], none⟩ (style.magnitude 0 e) 0 where
  proper := ⟨fun c hc => isDigit_zeros (n := 2) hc, by simp, .inl rfl, by simp, by simp⟩
  pointed := rfl
  body_eq := by
    rw [magnitude, if_pos (Eq.refl 0), hafter]
    rfl
  amount_eq := by
    rw [Numeral.amount, show digitsValue (Numeral.digits _) = 0 from rfl, Nat.cast_zero, zero_mul]

/-- A finite double is written as a numeral whose value is the double. -/
theorem exists_numeral (hafter : style.afterWhole = ".0") {x : Float} (hx : x.isFinite = true) :
    ∃ n : Numeral, n.chars = (style.render x).toList ∧ n.Proper ∧ n.sign ≠ .plus ∧
      n.isWhole = false ∧ n.value = x := by
  obtain ⟨negative, m, e, hparts, hdouble, -⟩ := Binary64.parts_of_isFinite hx
  have hsigned {n : Numeral} {v : ℚ} (hn : n.Shows (style.magnitude m e) v) :
      (n.signed negative).chars = (style.render x).toList := by
    rw [Numeral.chars_signed, hn.body_eq, render, hparts]
    dsimp only
    rw [signed, String.toList_ofList]
  have hnegative (n : Numeral) :
      Binary64.ofFloat x = .finite (n.signed negative).isNegative m e := by
    rw [hparts, Numeral.isNegative_signed]
  rcases Nat.eq_zero_or_pos m with rfl | hm
  · have hn := shows_zero (e := e) hafter
    exact ⟨_, hsigned hn, hn.proper.signed _, Numeral.sign_signed _ _, hn.pointed,
      Numeral.value_of_zero rfl (hnegative _) hx⟩
  · have hcovers := Rounding.covers_shortest style.tie hdouble hm
    have hfigure : 0 < (shortest style.tie m e).digits := by
      obtain ⟨hpos, -⟩ := Binary64.units_bounds hdouble hm hcovers
      rw [Nat.pos_iff_ne_zero]
      intro hzero
      rw [Figure.amount, hzero, Nat.cast_zero, zero_mul] at hpos
      exact absurd hpos (lt_irrefl 0)
    obtain ⟨n, hn⟩ := shows_magnitude hafter hm hfigure
    refine ⟨_, hsigned hn, hn.proper.signed _, Numeral.sign_signed _ _, hn.pointed, ?_⟩
    refine Numeral.value_of_covers hn.proper.digits hm (hnegative _) hx ?_
    rw [← hn.amount_eq] at hcovers
    exact hcovers

end Style
end DesignLayout.Decimal
