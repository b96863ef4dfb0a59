import DesignLayout.Layout.Pivot

/-! How pivots are spelt.

A text is read as a pivot by cutting off the first horizontal name that stands in front of it, a
choice that is never taken back, and by taking all the rest for a vertical name. The choice is the
only one there is: no two horizontal names stand in front of the same text
(`HorizontalAnchor.eq_of_isPrefix`), and none stands in front of a vertical name
(`HorizontalAnchor.not_isPrefix_written`). So a written pivot is cut where its horizontal name ends
(`splitHorizontal_chars`), what is read is what is written (`parse_eq_ok_iff`), and every other
text is refused (`parse_eq_error_iff`). `reads_exactly_written` puts the two together with the
texts that are written: a horizontal name, a vertical name, or the one followed by the other. -/
namespace DesignLayout

/-! ### Names -/

/-- One axis in writing: its anchor's name, or nothing where it has no anchor. -/
def HorizontalAnchor.written (h : Option HorizontalAnchor) : List Char :=
  (h.map (·.name.toList)).getD []

def VerticalAnchor.written (v : Option VerticalAnchor) : List Char :=
  (v.map (·.name.toList)).getD []

theorem HorizontalAnchor.eq_of_isPrefix {h h' : HorizontalAnchor} {cs : List Char}
    (hh : h.name.toList <+: cs) (hh' : h'.name.toList <+: cs) : h = h' := by
  have hapart : ∀ h h' : HorizontalAnchor, h.name.toList <+: h'.name.toList → h = h' := by
    intro h h'
    cases h <;> cases h' <;> decide
  -- Of two names in front of one text the shorter stands in front of the longer.
  rcases List.prefix_or_prefix_of_prefix hh hh' with hle | hle
  · exact hapart h h' hle
  · exact (hapart h' h hle).symm

theorem HorizontalAnchor.not_isPrefix_written (h : HorizontalAnchor) (v : Option VerticalAnchor) :
    ¬ h.name.toList <+: VerticalAnchor.written v := by
  rcases v with _ | v
  · cases h <;> decide
  · cases h <;> cases v <;> decide

namespace Pivot

variable {cs rest : List Char}

theorem chars_eq (p : Pivot) :
    p.chars = HorizontalAnchor.written p.horizontal ++ VerticalAnchor.written p.vertical := rfl

theorem after?_eq_some_iff {name : String} :
    after? name cs = some rest ↔ name.toList ++ rest = cs := by
  rw [after?]
  constructor
  · intro h
    split at h
    · rename_i hfront
      obtain ⟨t, rfl⟩ := List.isPrefixOf_iff_prefix.mp hfront
      rw [List.drop_left, Option.some.injEq] at h
      rw [h]
    · cases h
  · rintro rfl
    rw [if_pos (List.isPrefixOf_iff_prefix.mpr (List.prefix_append ..)), List.drop_left]

/-! ### Cutting off the horizontal name -/

/-- Either a horizontal name is cut off that stands in front, or there is none in front. -/
theorem splitHorizontal_cases (cs : List Char) :
    (∃ h rest, splitHorizontal cs = (some h, rest) ∧ h.name.toList ++ rest = cs) ∨
      splitHorizontal cs = (none, cs) ∧ ∀ h : HorizontalAnchor, ¬ h.name.toList <+: cs := by
  rw [splitHorizontal]
  cases hfound : [HorizontalAnchor.left, .center, .right].findSome? fun h : HorizontalAnchor =>
    (after? h.name cs).map (some h, ·) with
  | some cut =>
    obtain ⟨h, -, hcut⟩ := List.exists_of_findSome?_eq_some hfound
    obtain ⟨rest, hrest, rfl⟩ := Option.map_eq_some_iff.mp hcut
    exact .inl ⟨h, rest, rfl, after?_eq_some_iff.mp hrest⟩
  | none =>
    refine .inr ⟨rfl, fun h hfront => ?_⟩
    obtain ⟨rest, hrest⟩ := hfront
    have hmem : h ∈ [HorizontalAnchor.left, .center, .right] := by cases h <;> decide
    have hnone := List.findSome?_eq_none_iff.mp hfound h hmem
    rw [after?_eq_some_iff.mpr hrest] at hnone
    cases hnone

/-- A horizontal name is cut off whatever follows it. -/
theorem splitHorizontal_append (h : HorizontalAnchor) (rest : List Char) :
    splitHorizontal (h.name.toList ++ rest) = (some h, rest) := by
  have hfront : h.name.toList <+: h.name.toList ++ rest := List.prefix_append ..
  obtain ⟨h', rest', hcut, hsame⟩ | ⟨-, hnone⟩ := splitHorizontal_cases (h.name.toList ++ rest)
  · -- Whatever was cut off stands in front as well, so it is `h`.
    cases HorizontalAnchor.eq_of_isPrefix hfront ⟨rest', hsame⟩
    rw [hcut, List.append_cancel_left hsame]
  · exact absurd hfront (hnone h)

theorem splitHorizontal_of_not_isPrefix (h : ∀ h : HorizontalAnchor, ¬ h.name.toList <+: cs) :
    splitHorizontal cs = (none, cs) := by
  obtain ⟨h', rest, -, hsame⟩ | ⟨hcut, -⟩ := splitHorizontal_cases cs
  · exact absurd ⟨rest, hsame⟩ (h h')
  · exact hcut

theorem written_append_of_splitHorizontal {h : Option HorizontalAnchor}
    (hcut : splitHorizontal cs = (h, rest)) : HorizontalAnchor.written h ++ rest = cs := by
  obtain ⟨h', rest', hcut', hsame⟩ | ⟨hcut', -⟩ := splitHorizontal_cases cs
  · obtain ⟨rfl, rfl⟩ := Prod.mk.inj (hcut.symm.trans hcut')
    exact hsame
  · obtain ⟨rfl, rfl⟩ := Prod.mk.inj (hcut.symm.trans hcut')
    rfl

/-- A written pivot is cut where its horizontal name ends. -/
theorem splitHorizontal_chars (p : Pivot) :
    splitHorizontal p.chars = (p.horizontal, VerticalAnchor.written p.vertical) := by
  obtain ⟨_ | h, v⟩ := p
  · exact splitHorizontal_of_not_isPrefix fun h => h.not_isPrefix_written v
  · exact splitHorizontal_append h (VerticalAnchor.written v)

/-! ### The vertical name -/

theorem vertical?_eq_some_iff {v : Option VerticalAnchor} :
    vertical? cs = some v ↔ VerticalAnchor.written v = cs := by
  constructor
  · intro h
    rw [vertical?] at h
    split at h
    · rename_i hnil
      cases h
      exact hnil.symm
    · obtain ⟨v', hfound, rfl⟩ := Option.map_eq_some_iff.mp h
      have hsame := List.find?_some hfound
      exact beq_iff_eq.mp hsame
  · rintro rfl
    rcases v with _ | _ | _ | _ <;> rfl

/-! ### Texts -/

theorem ofChars?_eq_some_iff {p : Pivot} :
    ofChars? cs = some p ↔ p.isEmpty = false ∧ p.chars = cs := by
  simp only [ofChars?, Option.bind_eq_bind, Option.bind_eq_some_iff]
  constructor
  · rintro ⟨v, hv, h⟩
    split at h
    · cases h
    · rename_i hempty
      cases h
      refine ⟨eq_false_of_ne_true hempty, ?_⟩
      rw [chars_eq, vertical?_eq_some_iff.mp hv]
      exact written_append_of_splitHorizontal rfl
  · rintro ⟨hempty, rfl⟩
    refine ⟨p.vertical, ?_, ?_⟩
    · rw [splitHorizontal_chars]
      exact vertical?_eq_some_iff.mpr rfl
    · rw [splitHorizontal_chars, if_neg (Bool.eq_false_iff.mp hempty)]

theorem render_eq_iff {p : Pivot} {s : String} : p.render = s ↔ p.chars = s.toList := by
  rw [render, ← String.toList_inj, String.toList_ofList]

theorem parse_eq_ok_iff {s : String} {p : Pivot} :
    parse s = .ok p ↔ p.isEmpty = false ∧ p.render = s := by
  rw [render_eq_iff, ← ofChars?_eq_some_iff, parse]
  cases ofChars? s.toList with
  | some q => simp
  | none => simp

theorem eq_of_parse_eq_error {s : String} {e : PivotError} (h : parse s = .error e) : e = ⟨s⟩ := by
  rw [parse] at h
  cases hread : ofChars? s.toList with
  | some p =>
    rw [hread] at h
    cases h
  | none =>
    rw [hread] at h
    cases h
    rfl

theorem parse_eq_error_iff {s : String} {e : PivotError} :
    parse s = .error e ↔ e = ⟨s⟩ ∧ ∀ p : Pivot, p.isEmpty = false → p.render ≠ s := by
  constructor
  · intro h
    refine ⟨eq_of_parse_eq_error h, fun p hempty hp => ?_⟩
    rw [parse_eq_ok_iff.mpr ⟨hempty, hp⟩] at h
    cases h
  · rintro ⟨rfl, hnone⟩
    cases hparse : parse s with
    | ok p =>
      obtain ⟨hempty, hp⟩ := parse_eq_ok_iff.mp hparse
      exact absurd hp (hnone p hempty)
    | error e => rw [eq_of_parse_eq_error hparse]

/-! ### What is written -/

theorem render_eq_append (p : Pivot) :
    p.render = (p.horizontal.map (·.name)).getD "" ++ (p.vertical.map (·.name)).getD "" := by
  rw [render_eq_iff, String.toList_append]
  obtain ⟨_ | h, _ | v⟩ := p <;> rfl

/-- What is written of the pivots with an anchor is a horizontal name, a vertical name, or a
horizontal name and then a vertical one. -/
theorem exists_render_eq_iff {s : String} :
    (∃ p : Pivot, p.isEmpty = false ∧ p.render = s) ↔
      (∃ h : HorizontalAnchor, h.name = s) ∨ (∃ v : VerticalAnchor, v.name = s) ∨
        ∃ (h : HorizontalAnchor) (v : VerticalAnchor), h.name ++ v.name = s := by
  constructor
  · rintro ⟨⟨_ | h, _ | v⟩, hempty, rfl⟩ <;> rw [render_eq_append]
    · cases hempty
    · exact .inr (.inl ⟨v, String.empty_append.symm⟩)
    · exact .inl ⟨h, String.append_empty.symm⟩
    · exact .inr (.inr ⟨h, v, rfl⟩)
  · rintro (⟨h, rfl⟩ | ⟨v, rfl⟩ | ⟨h, v, rfl⟩)
    · exact ⟨⟨some h, none⟩, rfl, (render_eq_append _).trans String.append_empty⟩
    · exact ⟨⟨none, some v⟩, rfl, (render_eq_append _).trans String.empty_append⟩
    · exact ⟨⟨some h, some v⟩, rfl, render_eq_append _⟩

/-- **A text is read as a pivot exactly if it is what is written of one that has an anchor**, and
then as that pivot. Every other text is refused, and given back in the error. -/
theorem reads_exactly_written (s : String) :
    (∀ p, parse s = .ok p ↔ p.isEmpty = false ∧ p.render = s) ∧
      (∀ e, parse s = .error e ↔ e = ⟨s⟩ ∧ ∀ p : Pivot, p.isEmpty = false → p.render ≠ s) ∧
      ((∃ p, parse s = .ok p) ↔
        (∃ h : HorizontalAnchor, h.name = s) ∨ (∃ v : VerticalAnchor, v.name = s) ∨
          ∃ (h : HorizontalAnchor) (v : VerticalAnchor), h.name ++ v.name = s) := by
  refine ⟨fun p => parse_eq_ok_iff, fun e => parse_eq_error_iff, ?_⟩
  rw [← exists_render_eq_iff]
  exact exists_congr fun p => parse_eq_ok_iff

example : parse "lefttop" = .ok .leftTop ∧ parse "topleft" = .error ⟨"topleft"⟩ ∧
    parse "leftwards" = .error ⟨"leftwards"⟩ :=
  ⟨rfl, rfl, rfl⟩

end Pivot
end DesignLayout
