import DesignLayout.Json.Record
import DesignLayout.Proofs.Fitting

/-! What a text is read as.

Every number of a text that is read is finite, and arrays and objects stand no deeper than they are
read: the value of a JSON text fits (`fits_ofText`). The scan keeps this of its tokens and the
reader of all that is still open, one character and one token after the other. -/
namespace DesignLayout.Json

/-! ### Tokens -/

namespace Token

/-- The value of a name or a number fits, as it is neither an array nor an object. -/
def Fits (t : Token) : Prop :=
  ∀ v, t = .scalar v → ∀ levels, v.Fits levels

theorem isFinite_value {n : Decimal.Numeral} (h : n.value.isInf = false) :
    n.value.isFinite = true := by
  rw [Decimal.Numeral.value] at h ⊢
  split_ifs at h ⊢ <;> exact Decimal.Binary64.isFinite_nearest h

theorem fits_ofNumeral (n : Decimal.Numeral) (levels : Nat) : (ofNumeral n).Fits levels := by
  rw [ofNumeral]
  generalize hinteger : (if n.isNegative then -(_ : Int) else _) = integer
  split_ifs with hwhole hinf
  · simp only [Bool.and_eq_true] at hwhole
    exact .whole hwhole.1.2
  · exact .unreadable
  · exact .real (isFinite_value (Bool.eq_false_iff.mpr hinf))

theorem fits_ofWord (word : List Char) : (ofWord word).Fits := by
  rw [ofWord]
  split
  · rename_i v hv
    intro w hw levels
    obtain rfl := scalar.inj hw
    have hmem := mem_of_lookup hv
    simp only [names, List.mem_cons, Prod.mk.injEq, List.not_mem_nil, or_false] at hmem
    rcases hmem with ⟨-, rfl⟩ | ⟨-, rfl⟩ | ⟨-, rfl⟩
    · exact .null
    · exact .bool _
    · exact .bool _
  · split
    · split
      · intro w hw levels
        obtain rfl := scalar.inj hw
        exact fits_ofNumeral _ levels
      · nofun
    · nofun

theorem fits_ofPunctuation (c : Char) : (ofPunctuation c).Fits := by
  rw [ofPunctuation.eq_def]
  split <;> nofun

namespace Scan

/-- All tokens that were found fit. -/
def Fits (s : Scan) : Prop :=
  ∀ t ∈ s.found, t.Fits

variable {s : Scan} {t : Token}

theorem Fits.push (hs : s.Fits) (ht : t.Fits) : (s.push t).Fits := by
  have hcons : ∀ u ∈ t :: s.found, u.Fits := List.forall_mem_cons.mpr ⟨ht, hs⟩
  cases t <;> exact hcons

theorem Fits.start (hs : s.Fits) (c : Char) : (s.start c).Fits := by
  rw [Scan.start]
  split_ifs
  · exact hs
  · exact hs
  · exact hs
  · exact hs.push (fits_ofPunctuation c)

theorem Fits.step (hs : s.Fits) (c : Char) : (s.step c).Fits := by
  have hbad : (s.push bad).Fits := hs.push nofun
  rw [Scan.step]
  split
  · exact hs.start c
  · rename_i seen hplace
    split_ifs
    · exact hs
    · split
      · exact hbad
      · exact (hs.push (fits_ofWord _)).start c
  · split_ifs
    · exact hs.push nofun
    · exact hs
    · exact hbad
    · exact hs
  · split_ifs
    · exact hs
    · split
      · exact hs
      · exact hbad
  · split
    · exact hbad
    · dsimp only
      split_ifs
      · exact hs
      · exact hs
  · exact hs

theorem Fits.tokens (hs : s.Fits) : ∀ t ∈ s.tokens, t.Fits := by
  have hlast {t : Token} (ht : t.Fits) : ∀ u ∈ (t :: s.found).reverse, u.Fits := by
    intro u hu
    rcases List.mem_cons.mp (List.mem_reverse.mp hu) with rfl | hu
    · exact ht
    · exact hs u hu
  rw [Scan.tokens.eq_def]
  split
  · exact fun t ht => hs t (List.mem_reverse.mp ht)
  · exact fun t ht => hs t (List.mem_reverse.mp ht)
  · exact hlast (fits_ofWord _)
  · exact hlast nofun

end Scan

theorem fits_scan (cs : List Char) : ∀ t ∈ scan cs, t.Fits := by
  have hrun : ∀ (cs : List Char) (s : Scan), s.Fits → (cs.foldl Scan.step s).Fits := by
    intro cs
    induction cs with
    | nil => exact fun s hs => hs
    | cons c cs ih => exact fun s hs => ih _ (hs.step c)
  exact (hrun cs ⟨[], .between⟩ nofun).tokens

end Token

/-! ### What is open -/

def Frame.values : Frame → List Source
  | .item items => items
  | .field fields _ => fields.map (·.2)

/-- What stands in an open array or object fits below those that are open around it. -/
def FramesFit : List Frame → Prop
  | [] => True
  | frame :: outer => (∀ v ∈ frame.values, v.Fits (maxDepth - (outer.length + 1))) ∧ FramesFit outer

/-- A value that is complete fits where it stands. -/
theorem fits_limited {outer : List Frame} {v : Source}
    (h : v.Fits (maxDepth - (outer.length + 1) + 1)) :
    (limited outer v).Fits (maxDepth - outer.length) := by
  rw [limited]
  split_ifs with hlength
  · have heq : maxDepth - (outer.length + 1) + 1 = maxDepth - outer.length := by omega
    exact heq ▸ h
  · exact .tooDeep v

namespace Progress

/-- All that was read fits where it stands. -/
structure Fits (p : Progress) : Prop where
  frames : FramesFit p.frames
  value : ∀ v, p = done v → v.Fits maxDepth

theorem fits_deliver {v : Source} {outer : List Frame} (hv : v.Fits (maxDepth - outer.length))
    (houter : FramesFit outer) : (deliver v outer).Fits := by
  cases outer with
  | nil => exact ⟨trivial, fun w hw => done.inj hw ▸ hv⟩
  | cons frame outer =>
    obtain ⟨hframe, houter⟩ := houter
    cases frame with
    | item items => exact ⟨⟨List.forall_mem_cons.mpr ⟨hv, hframe⟩, houter⟩, nofun⟩
    | field fields name => exact ⟨⟨List.forall_mem_cons.mpr ⟨hv, hframe⟩, houter⟩, nofun⟩

theorem fits_begin? {t : Token} (ht : t.Fits) {outer : List Frame} (houter : FramesFit outer) :
    ∀ p ∈ begin? outer t, p.Fits := by
  intro p hp
  rw [begin?.eq_def] at hp
  split at hp
  · cases hp
    exact fits_deliver (.text _) houter
  · cases hp
    exact fits_deliver .unreadable houter
  · cases hp
    exact fits_deliver (ht _ rfl _) houter
  · cases hp
    exact ⟨⟨nofun, houter⟩, nofun⟩
  · cases hp
    exact ⟨⟨nofun, houter⟩, nofun⟩
  · cases hp

theorem Fits.next? {p : Progress} (hp : p.Fits) {t : Token} (ht : t.Fits) :
    ∀ q ∈ next? p t, q.Fits := by
  have hframes := hp.frames
  intro q hq
  rw [Progress.next?.eq_def] at hq
  split at hq
  · exact fits_begin? ht hframes q hq
  · cases hq
    exact fits_deliver (fits_limited (.array nofun)) hframes.2
  · exact fits_begin? ht hframes q hq
  · cases hq
    exact ⟨hframes, nofun⟩
  · cases hq
    exact fits_deliver (fits_limited (.array fun v hv => hframes.1 v (List.mem_reverse.mp hv)))
      hframes.2
  · cases hq
    exact fits_deliver (fits_limited (.object nofun)) hframes.2
  · cases hq
    exact ⟨hframes, nofun⟩
  · cases hq
    exact ⟨hframes, nofun⟩
  · cases hq
    exact ⟨hframes, nofun⟩
  · cases hq
    exact ⟨hframes, nofun⟩
  · cases hq
    refine fits_deliver (fits_limited (.object fun f hf => ?_)) hframes.2
    exact hframes.1 _ (List.mem_map_of_mem (List.mem_reverse.mp hf))
  · cases hq

theorem Fits.step {p : Progress} (hp : p.Fits) {t : Token} (ht : t.Fits) : (p.step t).Fits := by
  rw [Progress.step]
  cases hnext : Progress.next? p t with
  | none => exact ⟨trivial, nofun⟩
  | some q => exact hp.next? ht q hnext

theorem Fits.foldl {tokens : List Token} (htokens : ∀ t ∈ tokens, t.Fits) {p : Progress}
    (hp : p.Fits) : (tokens.foldl Progress.step p).Fits := by
  induction tokens generalizing p with
  | nil => exact hp
  | cons t rest ih =>
    obtain ⟨ht, hrest⟩ := List.forall_mem_cons.mp htokens
    exact ih hrest (hp.step ht)

theorem Fits.of_outcome {p : Progress} (hp : p.Fits) {v : Source} (h : p.outcome = (v, true)) :
    v.Fits maxDepth := by
  cases p with
  | done w =>
    cases h
    exact hp.value _ rfl
  | _ => cases h

end Progress

/-- The value of a JSON text fits. -/
theorem fits_ofText {s : String} {v : Source} (h : Source.ofText s = (v, true)) :
    v.Fits maxDepth := by
  have hstart : (Progress.awaitValue []).Fits := ⟨trivial, nofun⟩
  exact (hstart.foldl (Token.fits_scan _)).of_outcome h

/-- What was decoded was read from a value that fits. -/
theorem of_decode {β : Type} {read : Reader β} {s : String} {b : β} (h : decode read s = .ok b) :
    ∃ v, v.Fits maxDepth ∧ read v = .ok b := by
  rw [decode] at h
  cases hv : Source.ofText s with
  | mk v complete =>
    simp only [hv] at h
    cases hread : read v with
    | error why =>
      rw [hread] at h
      cases h
    | ok b' =>
      rw [hread] at h
      cases complete with
      | false => cases h
      | true =>
        cases h
        exact ⟨v, fits_ofText hv, hread⟩

end DesignLayout.Json
