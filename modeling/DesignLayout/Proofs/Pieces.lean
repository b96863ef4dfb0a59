import DesignLayout.Text.Blank
import DesignLayout.Text.Split
import Mathlib.Data.List.DropRight

/-! What cutting and trimming a text come to.

The pieces of a text are the only texts without a separator that give it back when they are joined
(`fallsInto_iff`), a trimmed text is what is left between two margins of blanks when no blank stands
at its ends (`trims_iff`), and a text is cut at its first separator if it has one (`cutAt_append`,
`cutAt_of_notMem`). Each of them says which texts answer, and not how they are looked for. -/
namespace DesignLayout.Text

/-! ### Pieces -/

/-- The text is made of these pieces, with a separator between every two of them. -/
structure FallsInto (sep : Char) (cs : List Char) (ps : List (List Char)) : Prop where
  ne_nil : ps ≠ []
  whole : ∀ p ∈ ps, sep ∉ p
  joined : [sep].intercalate ps = cs

theorem pieces_eq_splitOn (sep : Char) (cs : List Char) : pieces sep cs = cs.splitOn sep := by
  induction cs with
  | nil => rfl
  | cons c cs ih =>
    rw [List.splitOn_eq_splitOnP] at ih ⊢
    rw [List.splitOnP_cons_eq_if_modifyHead, ← ih]
    by_cases hc : c = sep
    · simp [pieces, hc]
    · obtain ⟨first, rest, hp⟩ := List.exists_cons_of_ne_nil (pieces_ne_nil sep cs)
      simp [pieces, hc, hp]

theorem fallsInto_iff {sep : Char} {cs : List Char} {ps : List (List Char)} :
    FallsInto sep cs ps ↔ pieces sep cs = ps := by
  constructor
  · rintro ⟨hne, hwhole, rfl⟩
    rw [pieces_eq_splitOn, List.splitOn_intercalate sep hwhole hne]
  · rintro rfl
    refine ⟨pieces_ne_nil sep cs, fun p => notMem_of_mem_pieces, ?_⟩
    rw [pieces_eq_splitOn, List.intercalate_splitOn]

/-! ### Trimming -/

/-- The text is `core` between two margins of blanks, and no blank stands at the ends of `core`. -/
structure Trims (cs core : List Char) : Prop where
  margins : ∃ front back, cs = front ++ core ++ back ∧
    (∀ c ∈ front, isBlank c = true) ∧ ∀ c ∈ back, isBlank c = true
  head : ∀ c ∈ core.head?, isBlank c = false
  last : ∀ c ∈ core.getLast?, isBlank c = false

theorem dropWhile_blank_eq_self {cs : List Char} (h : ∀ c ∈ cs.head?, isBlank c = false) :
    cs.dropWhile isBlank = cs := by
  cases cs with
  | nil => rfl
  | cons c cs => exact List.dropWhile_cons_of_neg (by simp [h c rfl])

theorem head?_dropWhile_blank (cs : List Char) :
    ∀ c ∈ (cs.dropWhile isBlank).head?, isBlank c = false := by
  intro c hc
  have h := List.head?_dropWhile_not isBlank cs
  rwa [Option.mem_def.mp hc] at h

/-- What no blank ends is left alone from behind, blanks after it or not. -/
theorem rdropWhile_margin {core back : List Char} (hback : ∀ c ∈ back, isBlank c = true)
    (hlast : ∀ c ∈ core.getLast?, isBlank c = false) :
    (core ++ back).rdropWhile isBlank = core := by
  rw [List.rdropWhile, List.reverse_append,
    List.dropWhile_append_of_pos fun c hc => hback c (List.mem_reverse.mp hc),
    dropWhile_blank_eq_self (by rwa [List.head?_reverse]), List.reverse_reverse]

theorem trims_trimmed (cs : List Char) : Trims cs (trimmed cs) where
  margins := by
    refine ⟨cs.takeWhile isBlank, (cs.dropWhile isBlank).rtakeWhile isBlank, ?_,
      fun c => List.mem_takeWhile_imp, fun c => List.mem_rtakeWhile_imp⟩
    show cs = _ ++ (cs.dropWhile isBlank).rdropWhile isBlank ++ _
    rw [List.append_assoc, List.rdropWhile_append_rtakeWhile, List.takeWhile_append_dropWhile]
  head c hc := by
    -- What is left in front is left at the start of a text that starts with no blank.
    obtain ⟨rest, hrest⟩ := List.rdropWhile_prefix isBlank (cs.dropWhile isBlank)
    have hfirst : ((cs.dropWhile isBlank).rdropWhile isBlank).head? = some c := hc
    refine head?_dropWhile_blank cs c ?_
    rw [← hrest, List.head?_append, hfirst, Option.some_or, Option.mem_some_iff]
  last c hc := by
    rw [trimmed, List.getLast?_reverse] at hc
    exact head?_dropWhile_blank _ c hc

theorem trims_iff {cs core : List Char} : Trims cs core ↔ trimmed cs = core := by
  constructor
  · rintro ⟨⟨front, back, rfl, hfront, hback⟩, hhead, hlast⟩
    show (List.dropWhile isBlank _).rdropWhile isBlank = core
    rw [List.append_assoc, List.dropWhile_append_of_pos hfront]
    cases core with
    | nil =>
      rw [List.nil_append, List.dropWhile_eq_nil_iff.mpr hback]
      rfl
    | cons c core =>
      rw [dropWhile_blank_eq_self (by simpa using hhead), rdropWhile_margin hback hlast]
  · rintro rfl
    exact trims_trimmed cs

theorem Trims.sublist {cs core : List Char} (h : Trims cs core) : core.Sublist cs := by
  obtain ⟨front, back, rfl, -, -⟩ := h.margins
  exact (List.sublist_append_right front core).trans (List.sublist_append_left _ back)

theorem Trims.eq_nil {cs core : List Char} (h : Trims cs core)
    (hblank : ∀ c ∈ cs, isBlank c = true) : core = [] := by
  cases core with
  | nil => rfl
  | cons c core =>
    have hc : isBlank c = true := hblank c (h.sublist.subset List.mem_cons_self)
    rw [h.head c rfl] at hc
    cases hc

/-! ### The first separator -/

theorem cutAt_of_notMem {sep : Char} {cs : List Char} (h : sep ∉ cs) :
    cutAt sep cs = (cs, none) := by
  induction cs with
  | nil => rfl
  | cons c cs ih =>
    rw [List.mem_cons, not_or] at h
    rw [cutAt, if_neg (Ne.symm h.1), ih h.2]

theorem cutAt_append {sep : Char} {before : List Char} (h : sep ∉ before) (after : List Char) :
    cutAt sep (before ++ sep :: after) = (before, some after) := by
  induction before with
  | nil => rw [List.nil_append, cutAt, if_pos rfl]
  | cons c before ih =>
    rw [List.mem_cons, not_or] at h
    rw [List.cons_append, cutAt, if_neg (Ne.symm h.1), ih h.2]

end DesignLayout.Text
