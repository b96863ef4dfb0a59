import DesignLayout.Proofs.Layers

/-! Reading the name of a label again.

A name that was read off a label holds no annotations, so only what stands at its ends can make it
read as something else. Without marks there (`Unmarked`) it reads as itself, trimmed, with the roles
that the name takes and nothing more (`parse_of_unmarked`). It is trimmed already unless a mark was
stripped from in front of a blank or from behind one (`tight_of_layered`), since the label is
trimmed before its marks are stripped and not afterwards. `reads_again_iff_tight` puts both
together: a name without marks reads as itself again exactly when no blank stands at its ends. -/
namespace DesignLayout

namespace Text

/-- No blank stands at either end. -/
structure Tight (cs : List Char) : Prop where
  head : ∀ c ∈ cs.head?, isBlank c = false
  last : ∀ c ∈ cs.getLast?, isBlank c = false

theorem Trims.tight {cs core : List Char} (h : Trims cs core) : Tight core :=
  ⟨h.head, h.last⟩

theorem tight_iff {cs : List Char} : Tight cs ↔ trimmed cs = cs := by
  rw [← trims_iff]
  constructor
  · rintro ⟨hhead, hlast⟩
    exact ⟨⟨[], [], by simp, by simp, by simp⟩, hhead, hlast⟩
  · exact Trims.tight

theorem fallsInto_singleton {sep : Char} {cs : List Char} (h : sep ∉ cs) :
    FallsInto sep cs [cs] where
  ne_nil := List.cons_ne_nil _ _
  whole _ hp := List.mem_singleton.mp hp ▸ h
  joined := List.intercalate_singleton

end Text

namespace Label

/-- At its ends the name has none of the marks that would be stripped there. -/
structure Unmarked (name : List Char) : Prop where
  hash : name.head? ≠ some '#'
  star : name.head? ≠ some '*'
  slash : name.getLast? ≠ some '/'

/-- Of the directives of the first label the second one has those that the first one's name takes by
itself, and it has no others. -/
structure KeepsRoles (first second : Label) (extended : Bool) : Prop where
  taken : ∀ d : Directive, d.TakenBy extended first.name.toList →
    second.directives.value d = first.directives.value d
  others : ∀ d : Directive, ¬ d.TakenBy extended first.name.toList →
    second.directives.value d = none

/-! ### Names without marks -/

theorem Unmarked.surface {cs : List Char} (h : Unmarked cs) :
    Surface.Of ⟨cs, false, false, false⟩ cs :=
  ⟨cs, cs, .absent h.hash, .absent h.star, .absent h.slash⟩

theorem Surface.Of.eq_of_unmarked {cs name : List Char}
    (h : Surface.Of ⟨name, false, false, false⟩ cs) : name = cs := by
  obtain ⟨second, third, hfirst, hsecond, hlast⟩ := h
  cases hfirst
  cases hsecond
  cases hlast
  rfl

/-- A text without annotations whose ends have no marks once it is trimmed reads as itself, trimmed,
with the roles of that name alone. -/
theorem parse_of_unmarked {cs : List Char} (hat : '@' ∉ cs) (hmarks : Unmarked (Text.trimmed cs))
    (extended : Bool) :
    parse (String.ofList cs) false extended =
      { name := String.ofList (Text.trimmed cs)
        directives := addAll .empty (rolesOf extended (Text.trimmed cs)) } := by
  have hlayered : Layered (String.ofList cs) ⟨⟨Text.trimmed cs, false, false, false⟩, []⟩ := by
    refine ⟨cs, Text.trimmed cs, ?_, Text.trims_trimmed cs, hmarks.surface⟩
    rw [String.toList_ofList]
    exact Text.fallsInto_singleton hat
  rw [parse_of_layered hlayered]
  rfl

/-! ### Blanks at the ends of a name -/

/-- Whatever is stripped from a label, its name is no longer than the trimmed label. -/
theorem trimmed_eq_of_name_parse {cs : List Char} (hat : '@' ∉ cs) (extended : Bool)
    (h : (parse (String.ofList cs) false extended).name = String.ofList cs) :
    Text.trimmed cs = cs := by
  have hlayered : Layered (String.ofList cs) ⟨Surface.ofChars (Text.trimmed cs), []⟩ := by
    refine layered_of_fallsInto ?_
    rw [String.toList_ofList]
    exact Text.fallsInto_singleton hat
  rw [parse_of_layered hlayered] at h
  have hname : (Surface.ofChars (Text.trimmed cs)).name = cs := String.ofList_injective h
  have hsub := (Surface.of_ofChars (Text.trimmed cs)).sublist
  rw [hname] at hsub
  exact (Text.trims_trimmed cs).sublist.antisymm hsub

/-- A label without marks is read to a name without blanks at its ends, since it is trimmed. -/
theorem tight_of_layered {label : String} {y : Layers} (h : Layered label y)
    (hmarks : ∀ d, y.surface.marks d = false) : Text.Tight y.surface.name := by
  obtain ⟨first, text, -, htrims, hsurface⟩ := h
  obtain ⟨⟨name, hash, star, slash⟩, annotations⟩ := y
  obtain rfl : hash = false := hmarks .commentOut
  obtain rfl : star = false := hmarks .image
  obtain rfl : slash = false := hmarks .subPrefab
  obtain rfl : name = text := hsurface.eq_of_unmarked
  exact htrims.tight

/-! ### Reading again -/

/-- The roles that the name takes by itself, and nothing else, are those that it takes of what the
label asked for. -/
theorem keepsRoles_of_directives_eq {label : String} {extended : Bool} {second : Label}
    (h : second.directives =
      addAll .empty (rolesOf extended (parse label false extended).name.toList)) :
    (parse label false extended).KeepsRoles second extended where
  taken d hd := by
    obtain ⟨y, hy⟩ := exists_layered label
    rw [h, value_addAll_of_mem _ (mem_rolesOf.mpr hd),
      (says_parse hy false extended).forced d (.inr hd)]
  others d hd := by
    rw [h, value_addAll _ (mt mem_rolesOf.mp hd), Directives.value_empty]

/-- A name without marks at its ends reads as itself again, with just the roles that it takes of
what the label asked for, if and only if no blank stands at its ends; and blanks stand there only
when a mark was stripped from the label. With blanks and no marks behind them it reads as the name
between them, with just the roles that this one takes. -/
theorem reads_again_iff_tight {label : String} {extended : Bool}
    (hmarks : Unmarked (parse label false extended).name.toList) :
    let first := parse label false extended
    let second := parse first.name false extended
    ((second.name = first.name ∧ first.KeepsRoles second extended) ↔
      Text.Tight first.name.toList) ∧
    (∀ y, Layered label y → (∀ d, y.surface.marks d = false) → Text.Tight first.name.toList) ∧
    (Unmarked (Text.trimmed first.name.toList) →
      second.name = String.ofList (Text.trimmed first.name.toList) ∧
      second.directives = addAll .empty (rolesOf extended (Text.trimmed first.name.toList))) := by
  intro first second
  have hat : '@' ∉ first.name.toList := at_notMem_name label false extended
  have hsecond : parse (String.ofList first.name.toList) false extended = second := by
    rw [String.ofList_toList]
  have hread (h : Unmarked (Text.trimmed first.name.toList)) :=
    hsecond.symm.trans (parse_of_unmarked hat h extended)
  refine ⟨⟨fun ⟨hname, _⟩ => ?_, fun htight => ?_⟩, fun y hy hnone => ?_, fun h => ?_⟩
  · rw [Text.tight_iff]
    refine trimmed_eq_of_name_parse hat extended ?_
    rw [hsecond, String.ofList_toList, hname]
  · rw [Text.tight_iff] at htight
    have hread := hread (by rwa [htight])
    rw [htight, String.ofList_toList] at hread
    rw [hread]
    exact ⟨rfl, keepsRoles_of_directives_eq rfl⟩
  · have hname : first.name = String.ofList y.surface.name := by
      rw [show first = _ from parse_of_layered hy false extended]
      rfl
    rw [hname, String.toList_ofList]
    exact tight_of_layered hy hnone
  · rw [hread h]
    exact ⟨rfl, rfl⟩

/-- A name between marks, with an annotation that it does not keep. -/
theorem closeButton_reads_again :
    (parse "closeButton" false true).name = "closeButton" ∧
    (parse "#*closeButton/ @list" false true).KeepsRoles (parse "closeButton" false true) true := by
  have hname : (parse "#*closeButton/ @list" false true).name = "closeButton" := by decide
  have hmarks : Unmarked "closeButton".toList := ⟨by decide, by decide, by decide⟩
  have htight : Text.Tight "closeButton".toList := Text.tight_iff.mpr (by decide)
  have hread := (@reads_again_iff_tight "#*closeButton/ @list" true
    (by rw [hname]; exact hmarks)).1.mpr (by rw [hname]; exact htight)
  rwa [hname] at hread

/-- Behind a mark a blank stays, and hides a word that would be a role. -/
theorem blank_before_image_not_read_again :
    ¬ ∀ (label : String) (extended : Bool), Unmarked (parse label false extended).name.toList →
      (parse (parse label false extended).name false extended).name =
        (parse label false extended).name ∧
      (parse label false extended).KeepsRoles
        (parse (parse label false extended).name false extended) extended := by
  intro h
  have hname : (parse "# image" false true).name = " image" := by decide
  have hread := h "# image" true (by rw [hname]; exact ⟨by decide, by decide, by decide⟩)
  rw [hname] at hread
  exact absurd hread.1 (by decide)

end Label
end DesignLayout
