import DesignLayout.Json.Print
import DesignLayout.Proofs.Numerals
import DesignLayout.Proofs.Parsing

/-! The tokens of words and quoted texts.

A word is read from its first character to the one before a character that is in no word
(`IsWord.scans`); `null`, the truth values and all written numbers are words of their values
(`isWord_null`, `isWord_bool`, `isWord_whole`, `isWord_real`). A quoted text is read as the text
that was written, whatever characters it has (`yields_textForm`). -/
namespace DesignLayout.Json
namespace Token

open Decimal (Numeral Sign)

/-! ### Characters of words -/

theorem snd_split_cons (c : Char) (cs : List Char) :
    (Sign.split (c :: cs)).2 = if c = '+' ∨ c = '-' then cs else c :: cs := by
  rw [Numeral.split_cons]
  split_ifs <;> simp_all

/-- The characters of names and numerals. -/
def isWordChar (c : Char) : Bool :=
  c.isAlphanum || c == '.' || c == '+' || c == '-'

theorem isWordChar_of_isDigit {c : Char} (h : c.isDigit = true) : isWordChar c = true := by
  simp [isWordChar, Char.isAlphanum, h]

variable {cs ds : List Char}

theorem isWordChar_of_exponentGoesOn (h : exponentGoesOn cs = true) :
    ∀ c ∈ cs, isWordChar c = true := by
  cases cs with
  | nil => exact List.forall_mem_nil _
  | cons c cs =>
    simp only [exponentGoesOn, Bool.and_eq_true, Bool.or_eq_true, beq_iff_eq] at h
    obtain ⟨hc, hdigits⟩ := h
    refine List.forall_mem_cons.mpr ⟨by rcases hc with rfl | rfl <;> rfl, ?_⟩
    cases cs with
    | nil => exact List.forall_mem_nil _
    | cons d ds =>
      rw [snd_split_cons] at hdigits
      split_ifs at hdigits with hd
      · refine List.forall_mem_cons.mpr ⟨by rcases hd with rfl | rfl <;> rfl, fun e he => ?_⟩
        exact isWordChar_of_isDigit (List.all_eq_true.mp hdigits e he)
      · exact fun e he => isWordChar_of_isDigit (List.all_eq_true.mp hdigits e he)

/-- Digits and what follows them. -/
theorem isWordChar_of_dropWhile (h : ∀ c ∈ cs.dropWhile Char.isDigit, isWordChar c = true) :
    ∀ c ∈ cs, isWordChar c = true := by
  rw [← List.takeWhile_append_dropWhile (p := Char.isDigit) (l := cs), List.forall_mem_append]
  exact ⟨fun c hc => isWordChar_of_isDigit (List.mem_takeWhile_imp hc), h⟩

theorem isWordChar_of_numeralGoesOn (h : numeralGoesOn cs = true) :
    ∀ c ∈ cs, isWordChar c = true := by
  refine isWordChar_of_dropWhile ?_
  rw [numeralGoesOn] at h
  split at h
  · rename_i rest heq
    rw [heq]
    refine List.forall_mem_cons.mpr ⟨rfl, isWordChar_of_dropWhile ?_⟩
    exact isWordChar_of_exponentGoesOn h
  · exact isWordChar_of_exponentGoesOn h

/-- No punctuation and no space begins a word or goes on with one. -/
theorem isWordChar_of_beginsWord (h : beginsWord cs = true) : ∀ c ∈ cs, isWordChar c = true := by
  cases cs with
  | nil => exact List.forall_mem_nil _
  | cons c cs =>
    simp only [beginsWord, Bool.or_eq_true, Bool.and_eq_true, beq_iff_eq, List.any_eq_true] at h
    rcases h with ⟨⟨name, v⟩, hmem, hstart⟩ | ⟨hc, hrest⟩
    · intro d hd
      have hname : ∀ row ∈ names, row.1.all isWordChar = true := by decide
      rw [List.isPrefixOf_iff_prefix] at hstart
      exact List.all_eq_true.mp (hname _ hmem) d (hstart.subset hd)
    · refine List.forall_mem_cons.mpr ⟨?_, isWordChar_of_numeralGoesOn hrest⟩
      rcases hc with rfl | hc
      · rfl
      · exact isWordChar_of_isDigit hc

/-! ### Beginnings of words -/

theorem exponentGoesOn_of_append (h : exponentGoesOn (cs ++ ds) = true) :
    exponentGoesOn cs = true := by
  cases cs with
  | nil => rfl
  | cons c cs =>
    simp only [List.cons_append, exponentGoesOn, Bool.and_eq_true] at h ⊢
    refine ⟨h.1, ?_⟩
    cases cs with
    | nil => rfl
    | cons d cs =>
      have hdigits := h.2
      rw [List.cons_append, snd_split_cons] at hdigits
      rw [snd_split_cons]
      split_ifs at hdigits ⊢
      · rw [List.all_append, Bool.and_eq_true] at hdigits
        exact hdigits.1
      · rw [← List.cons_append, List.all_append, Bool.and_eq_true] at hdigits
        exact hdigits.1

theorem exponentGoesOn_dropWhile_of_append
    (h : exponentGoesOn ((cs ++ ds).dropWhile Char.isDigit) = true) :
    exponentGoesOn (cs.dropWhile Char.isDigit) = true := by
  rw [List.dropWhile_append] at h
  split_ifs at h with hempty
  · rw [List.isEmpty_iff.mp hempty]
    rfl
  · exact exponentGoesOn_of_append h

theorem numeralGoesOn_eq {c : Char} {rest : List Char} (h : cs.dropWhile Char.isDigit = c :: rest) :
    numeralGoesOn cs =
      if c = '.' then exponentGoesOn (rest.dropWhile Char.isDigit)
      else exponentGoesOn (c :: rest) := by
  rw [numeralGoesOn, h]
  split
  · rename_i heq
    obtain ⟨rfl, rfl⟩ := List.cons.inj heq
    rfl
  · rename_i hpoint
    exact (if_neg fun hc => hpoint _ (congrArg (· :: rest) hc)).symm

theorem numeralGoesOn_of_append (h : numeralGoesOn (cs ++ ds) = true) :
    numeralGoesOn cs = true := by
  cases hrest : cs.dropWhile Char.isDigit with
  | nil =>
    rw [numeralGoesOn, hrest]
    rfl
  | cons c rest =>
    have hboth : (cs ++ ds).dropWhile Char.isDigit = c :: (rest ++ ds) := by
      rw [List.dropWhile_append, hrest]
      rfl
    rw [numeralGoesOn_eq hboth] at h
    rw [numeralGoesOn_eq hrest]
    split_ifs at h ⊢
    · exact exponentGoesOn_dropWhile_of_append h
    · exact exponentGoesOn_of_append h

/-- Words go on from their beginnings. -/
theorem beginsWord_of_append (h : beginsWord (cs ++ ds) = true) : beginsWord cs = true := by
  cases cs with
  | nil => rfl
  | cons c cs =>
    simp only [List.cons_append, beginsWord, Bool.or_eq_true, Bool.and_eq_true, List.any_eq_true,
      List.isPrefixOf_iff_prefix] at h ⊢
    refine h.imp ?_ ?_
    · rintro ⟨row, hrow, hstart⟩
      exact ⟨row, hrow, (List.prefix_append (c :: cs) ds).trans hstart⟩
    · exact And.imp_right numeralGoesOn_of_append

/-! ### Numerals -/

variable {n : Numeral}

theorem exponentGoesOn_chars {e : Option (Sign × List Char)}
    (h : ∀ x ∈ e, x.2 ≠ [] ∧ ∀ c ∈ x.2, c.isDigit = true) :
    exponentGoesOn (Numeral.exponentChars e) = true := by
  cases e with
  | none => rfl
  | some x =>
    obtain ⟨sign, digits⟩ := x
    obtain ⟨hne, hdigits⟩ := h _ rfl
    have hsplit := Numeral.split_chars sign hne hdigits []
    rw [List.append_nil] at hsplit
    change exponentGoesOn ('e' :: (sign.chars ++ digits)) = true
    rw [exponentGoesOn, hsplit, List.all_eq_true.mpr hdigits]
    rfl

theorem numeralGoesOn_chars (h : n.Proper) {ws : List Char} (hws : ∀ c ∈ ws, c.isDigit = true) :
    numeralGoesOn (ws ++ (Numeral.fractionChars n.fraction ++ Numeral.exponentChars n.exponent)) =
      true := by
  have hexponent := exponentGoesOn_chars h.exponent
  have hends := Numeral.endsDigits_exponentChars n.exponent
  rw [numeralGoesOn, Numeral.dropWhile_digits hws (Numeral.endsDigits_rest _ _)]
  cases hfraction : n.fraction with
  | none =>
    cases hexp : n.exponent with
    | none => rfl
    | some x =>
      rw [hexp] at hexponent
      exact hexponent
  | some ds =>
    have hds : ∀ c ∈ ds, c.isDigit = true := fun c hc => h.digits c <| by
      rw [Numeral.digits, hfraction]
      exact List.mem_append_right _ hc
    change exponentGoesOn ((ds ++ Numeral.exponentChars n.exponent).dropWhile Char.isDigit) = true
    rw [Numeral.dropWhile_digits hds hends]
    exact hexponent

theorem beginsWord_chars (h : n.Proper) (hsign : n.sign ≠ .plus) : beginsWord n.chars = true := by
  have hwhole : ∀ c ∈ n.whole, c.isDigit = true :=
    fun c hc => h.digits c (List.mem_append_left _ hc)
  rw [Numeral.chars]
  cases hn : n.sign with
  | plus => exact absurd hn hsign
  | minus =>
    have hbody := numeralGoesOn_chars h hwhole
    change beginsWord ('-' :: n.body) = true
    rw [beginsWord, Numeral.body, hbody]
    simp
  | none =>
    obtain ⟨c, cs, hcs⟩ := List.exists_cons_of_ne_nil h.whole
    rw [hcs, List.forall_mem_cons] at hwhole
    change beginsWord n.body = true
    rw [Numeral.body, hcs, List.cons_append, beginsWord, hwhole.1, numeralGoesOn_chars h hwhole.2]
    simp

theorem isStrict_of_proper (h : n.Proper) (hsign : n.sign ≠ .plus) : isStrict n = true := by
  have hfront : n.whole = ['0'] ∨ n.whole.head?.any (· != '0') = true := by
    refine h.front.imp_right fun hhead => ?_
    obtain ⟨c, cs, hcs⟩ := List.exists_cons_of_ne_nil h.whole
    rw [hcs] at hhead ⊢
    exact bne_iff_ne.mpr fun hc => hhead (congrArg some hc)
  have hfraction : n.fraction.all (!·.isEmpty) = true := by
    cases hf : n.fraction with
    | none => rfl
    | some ds =>
      obtain ⟨c, cs, rfl⟩ := List.exists_cons_of_ne_nil fun hnil => h.fraction (hnil ▸ hf)
      rfl
  simp only [isStrict, Bool.and_eq_true, Bool.or_eq_true, beq_iff_eq, bne_iff_ne]
  exact ⟨⟨hsign, hfront⟩, hfraction⟩

/-- A written numeral is a word. -/
theorem ofWord_chars (h : n.Proper) (hsign : n.sign ≠ .plus) :
    ofWord n.chars = scalar (ofNumeral n) := by
  have hscan := Numeral.scan?_chars h
  have hname : names.lookup n.chars = none := by
    cases hlookup : names.lookup n.chars with
    | none => rfl
    | some v =>
      have hnone : ∀ row ∈ names, Numeral.scan? row.1 = none := by decide
      have hrow := hnone _ (mem_of_lookup hlookup)
      rw [hscan] at hrow
      cases hrow
  rw [ofWord, hname, hscan]
  exact if_pos (isStrict_of_proper h hsign)

/-! ### Words of values -/

/-- A text that is read as one token when no character of a word follows. -/
structure IsWord (w : List Char) (v : Source) : Prop where
  begins : beginsWord w = true
  ne_nil : w ≠ []
  eq : ofWord w = scalar v

theorem isWord_chars (h : n.Proper) (hsign : n.sign ≠ .plus) : IsWord n.chars (ofNumeral n) where
  begins := beginsWord_chars h hsign
  ne_nil := by
    obtain ⟨c, cs, hcs⟩ := List.exists_cons_of_ne_nil h.whole
    simp [Numeral.chars, Numeral.body, hcs]
  eq := ofWord_chars h hsign

theorem isWord_null : IsWord "null".toList .null := ⟨by decide, by decide, rfl⟩

theorem isWord_bool (value : Bool) :
    IsWord (if value then "true" else "false").toList (.bool value) := by
  cases value
  · exact ⟨by decide, by decide, rfl⟩
  · exact ⟨by decide, by decide, rfl⟩

/-- A whole number that fits 64 bits is read as itself. -/
theorem isWord_whole {k : Int} (h : fitsInteger k = true) :
    IsWord (toString k).toList (.whole k) := by
  have hword := isWord_chars (Numeral.proper_ofInt k) (Numeral.sign_signed _ _)
  have hsize : (Decimal.digitsValue (Numeral.ofInt k).whole : Int) = k.natAbs :=
    congrArg Nat.cast (Decimal.digitsValue_toDigits k.natAbs)
  have hnegative : (Numeral.ofInt k).isNegative = decide (k < 0) := Numeral.isNegative_signed _ _
  have hwhole : (Numeral.ofInt k).isWhole = true := rfl
  have hinteger : (if decide (k < 0) then -(k.natAbs : Int) else k.natAbs) = k := by
    split_ifs with hk
    · have hlt := of_decide_eq_true hk
      omega
    · have hle := of_decide_eq_false (Bool.eq_false_iff.mpr hk)
      omega
  have hzero : (decide (k < 0) && (k.natAbs : Int) == 0) = false := by
    simp only [Bool.and_eq_false_iff, decide_eq_false_iff_not, beq_eq_false_iff_ne]
    omega
  have hnumeral : ofNumeral (Numeral.ofInt k) = .whole k := by
    rw [ofNumeral, hsize, hnegative, hwhole, hinteger, h, hzero]
    rfl
  rwa [hnumeral, Numeral.chars_ofInt] at hword

/-- A finite double is read as itself. -/
theorem isWord_real {x : Float} (h : x.isFinite = true) : IsWord (realText x).toList (.real x) := by
  obtain ⟨n, hchars, hproper, hsign, hwhole, hvalue⟩ := realStyle.exists_numeral rfl h
  have hword := isWord_chars hproper hsign
  have hinf : x.isInf = false := Decimal.Binary64.isInf_of_isFinite h
  have hnumeral : ofNumeral n = .real x := by
    rw [ofNumeral, hwhole, hvalue, hinf]
    rfl
  have htext : realText x = realStyle.render x := if_pos h
  rwa [hnumeral, hchars, ← htext] at hword

/-! ### Quoted texts -/

theorem joinPieces_unit {k : Nat} (h : k < 0x20) (rest : List Piece) (cs : List Char) :
    joinPieces (.unit k :: rest) cs = joinPieces rest (Char.ofNat k :: cs) := by
  have htrail : isTrail k = false := by simp [isTrail]; omega
  have hlead : isLead k = false := by simp [isLead]; omega
  rw [joinPieces.eq_def]
  cases rest with
  | nil => simp [htrail, hlead]
  | cons p rest => cases p <;> simp [htrail, hlead]

theorem step_code {c : Char} {d : Nat} (hd : hexValue? c = some d) (found : List Token)
    (seen : List Piece) (digits value : Nat) :
    Scan.step ⟨found, .code seen digits value⟩ c =
      if digits = 3 then ⟨found, .quoted (.unit (16 * value + d) :: seen)⟩
      else ⟨found, .code seen (digits + 1) (16 * value + d)⟩ := by
  rw [Scan.step]
  dsimp only
  rw [hd]

theorem hexValue?_digitChar {k : Nat} (h : k < 16) : hexValue? (Nat.digitChar k) = some k := by
  have hall : ∀ k < 16, hexValue? (Nat.digitChar k) = some k := by decide
  exact hall k h

/-- A control is read from its number. -/
theorem foldl_control {c : Char} (h : c.toNat < 0x20) (found : List Token) (seen : List Piece) :
    ['\\', 'u', '0', '0', (if c.toNat < 0x10 then '0' else '1'),
      Nat.digitChar (c.toNat % 16)].foldl Scan.step ⟨found, .quoted seen⟩ =
        ⟨found, .quoted (.unit c.toNat :: seen)⟩ := by
  have hfirst : hexValue? (if c.toNat < 0x10 then '0' else '1') = some (c.toNat / 16) := by
    split_ifs
    · rw [show c.toNat / 16 = 0 by omega]
      rfl
    · rw [show c.toNat / 16 = 1 by omega]
      rfl
  have hlast := hexValue?_digitChar (Nat.mod_lt c.toNat (show 0 < 16 by decide))
  have hzeros : ['\\', 'u', '0', '0'].foldl Scan.step ⟨found, .quoted seen⟩ =
      ⟨found, .code seen 2 0⟩ := rfl
  change Scan.step (Scan.step (['\\', 'u', '0', '0'].foldl Scan.step ⟨found, .quoted seen⟩) _) _ = _
  have hvalue : 16 * (16 * 0 + c.toNat / 16) + c.toNat % 16 = c.toNat := by omega
  rw [hzeros, step_code hfirst, if_neg (by decide), step_code hlast, if_pos rfl, hvalue]

/-- An escaped character is read as one piece, which stands for it. -/
theorem foldl_escapedChar (found : List Token) (seen : List Piece) (c : Char) :
    ∃ p, (escapedChar c).foldl Scan.step ⟨found, .quoted seen⟩ = ⟨found, .quoted (p :: seen)⟩ ∧
      ∀ cs, joinPieces (p :: seen) cs = joinPieces seen (c :: cs) := by
  rw [escapedChar.eq_def]
  split
  · exact ⟨.char _, rfl, fun cs => rfl⟩
  · exact ⟨.char _, rfl, fun cs => rfl⟩
  · exact ⟨.char _, rfl, fun cs => rfl⟩
  · exact ⟨.char _, rfl, fun cs => rfl⟩
  · exact ⟨.char _, rfl, fun cs => rfl⟩
  · exact ⟨.char _, rfl, fun cs => rfl⟩
  · exact ⟨.char _, rfl, fun cs => rfl⟩
  · rename_i hquote hbackslash _ _ _ _ _
    by_cases hcontrol : c.toNat < 0x20
    · rw [if_pos hcontrol]
      refine ⟨.unit c.toNat, foldl_control hcontrol found seen, fun cs => ?_⟩
      rw [joinPieces_unit hcontrol, Char.ofNat_toNat]
    · rw [if_neg hcontrol]
      refine ⟨.char c, ?_, fun cs => rfl⟩
      change Scan.step ⟨found, .quoted seen⟩ c = _
      rw [Scan.step]
      exact (if_neg hquote).trans ((if_neg hbackslash).trans (if_neg hcontrol))

theorem foldl_escaped (found : List Token) (cs : List Char) (seen : List Piece) :
    ∃ ps, (cs.flatMap escapedChar).foldl Scan.step ⟨found, .quoted seen⟩ = ⟨found, .quoted ps⟩ ∧
      ∀ tail, joinPieces ps tail = joinPieces seen (cs ++ tail) := by
  induction cs generalizing seen with
  | nil => exact ⟨seen, rfl, fun tail => rfl⟩
  | cons c cs ih =>
    obtain ⟨p, hfold, hjoin⟩ := foldl_escapedChar found seen c
    obtain ⟨ps, hrest, hjoins⟩ := ih (p :: seen)
    refine ⟨ps, ?_, fun tail => ?_⟩
    · rw [List.flatMap_cons, List.foldl_append, hfold, hrest]
    · rw [hjoins, hjoin]
      rfl

/-! ### Scanned texts -/

/-- These tokens are found in a text, whatever stands before and after it. -/
def Yields (w : List Char) (us : List Token) : Prop :=
  ∀ found, w.foldl Scan.step ⟨found, .between⟩ = ⟨us.reverse ++ found, .between⟩

/-- These tokens are found in a text up to its end, whatever stands before it. -/
def Scans (cs : List Char) (ts : List Token) : Prop :=
  ∀ found, (cs.foldl Scan.step ⟨found, .between⟩).tokens = found.reverse ++ ts

variable {w rest : List Char} {us ts : List Token}

theorem scans_nil : Scans [] [] := fun _ => (List.append_nil _).symm

theorem Yields.scans (hw : Yields w us) (h : Scans rest ts) : Scans (w ++ rest) (us ++ ts) := by
  intro found
  rw [List.foldl_append, hw, h, List.reverse_append, List.reverse_reverse, List.append_assoc]

theorem yields_newLine (level : Nat) : Yields (newLine level).toList [] := by
  intro found
  have hspaces (k : Nat) : (List.replicate k ' ').foldl Scan.step ⟨found, .between⟩ =
      ⟨found, .between⟩ := by
    induction k with
    | zero => rfl
    | succ k ih => exact ih
  rw [newLine, String.toList_ofList]
  exact hspaces _

/-- A quoted text is read as itself. -/
theorem yields_textForm (s : String) : Yields (textForm s).toList [.text (some s)] := by
  intro found
  obtain ⟨ps, hfold, hjoin⟩ := foldl_escaped found s.toList []
  have hpieces : joinPieces ps [] = some s.toList := by
    rw [hjoin, List.append_nil]
    rfl
  have hopen : Scan.step ⟨found, .between⟩ '"' = ⟨found, .quoted []⟩ := rfl
  rw [textForm, String.toList_ofList, List.cons_append, List.foldl_cons, hopen, List.foldl_append,
    hfold]
  change Scan.push _ (.text ((joinPieces ps []).map String.ofList)) = _
  rw [hpieces, Option.map_some, String.ofList_toList]
  rfl

/-- What may follow a word. -/
def EndsWord (rest : List Char) : Prop :=
  ∀ c ∈ rest.head?, isWordChar c = false

theorem endsWord_nil : EndsWord [] := by
  rintro c ⟨⟩

theorem endsWord_cons {c : Char} (h : isWordChar c = false) : EndsWord (c :: rest) := by
  rintro d ⟨⟩
  exact h

theorem endsWord_newLine (level : Nat) : EndsWord ((newLine level).toList ++ rest) := by
  rw [newLine, String.toList_ofList]
  exact endsWord_cons rfl

/-- The scan stands inside a word as long as it goes on. -/
theorem foldl_word {found : List Token} {seen : List Char}
    (h : beginsWord (seen.reverse ++ cs) = true) :
    cs.foldl Scan.step ⟨found, .word seen⟩ = ⟨found, .word (cs.reverse ++ seen)⟩ := by
  induction cs generalizing seen with
  | nil => rfl
  | cons c cs ih =>
    have hword : (c :: seen).reverse ++ cs = seen.reverse ++ c :: cs := by simp
    rw [← hword] at h
    have hstep : Scan.step ⟨found, .word seen⟩ c = ⟨found, .word (c :: seen)⟩ :=
      if_pos (beginsWord_of_append h)
    rw [List.foldl_cons, hstep, ih h]
    simp

theorem start_word {c : Char} (h : beginsWord [c] = true) (found : List Token) :
    Scan.start ⟨found, .between⟩ c = ⟨found, .word [c]⟩ := by
  have hc := isWordChar_of_beginsWord h c (List.mem_singleton_self c)
  have hspace : isSpace c = false := by
    rw [Bool.eq_false_iff]
    intro hspace
    simp only [isSpace, Bool.or_eq_true, beq_iff_eq] at hspace
    obtain ((rfl | rfl) | rfl) | rfl := hspace <;> cases hc
  have hquote : c ≠ '"' := by
    rintro rfl
    cases hc
  rw [Scan.start, hspace, if_neg Bool.false_ne_true, if_neg hquote, if_pos h]

/-- A word ends before a character that is in none. -/
theorem step_wordEnd {v : Source} {seen : List Char} {c : Char} (hc : isWordChar c = false)
    (hseen : ofWord seen.reverse = scalar v) (found : List Token) :
    Scan.step ⟨found, .word seen⟩ c = Scan.step ⟨scalar v :: found, .between⟩ c := by
  have hends : ¬beginsWord (c :: seen).reverse = true := by
    intro hbegins
    have hchar := isWordChar_of_beginsWord hbegins c (by simp)
    rw [hc] at hchar
    cases hchar
  rw [Scan.step]
  dsimp only
  rw [if_neg hends, hseen]
  rfl

theorem IsWord.scans {v : Source} (hw : IsWord w v) (hrest : EndsWord rest) (h : Scans rest ts) :
    Scans (w ++ rest) (.scalar v :: ts) := by
  intro found
  have hword : w.foldl Scan.step ⟨found, .between⟩ = ⟨found, .word w.reverse⟩ := by
    obtain ⟨c, cs, rfl⟩ := List.exists_cons_of_ne_nil hw.ne_nil
    have hstart := start_word (@beginsWord_of_append [c] cs hw.begins) found
    rw [List.foldl_cons]
    change cs.foldl Scan.step (Scan.start ⟨found, .between⟩ c) = _
    rw [hstart, foldl_word hw.begins, List.reverse_cons]
  have heq : ofWord w.reverse.reverse = scalar v := by rw [List.reverse_reverse, hw.eq]
  rw [List.foldl_append, hword]
  -- A word is taken down at the character after it, or when the text ends.
  cases rest with
  | nil =>
    obtain rfl : [] = ts := h []
    change (ofWord w.reverse.reverse :: found).reverse = _
    rw [heq, List.reverse_cons]
  | cons c rest =>
    rw [List.foldl_cons, step_wordEnd (hrest c rfl) heq, ← List.foldl_cons, h, List.reverse_cons,
      List.append_assoc]
    rfl

end Token
end DesignLayout.Json
