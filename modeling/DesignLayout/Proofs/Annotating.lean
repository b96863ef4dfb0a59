import DesignLayout.Label.Basic
import DesignLayout.Proofs.Pieces
import Mathlib.Data.List.Induction

/-! What the annotations of a label ask for.

No two directives have the same spelling, in letters of either case, so a key names at most one of
them (`Directive.ofSpelling?_eq_some_iff`). An annotation is told from its trimmed text
(`annotated?_eq_some_iff`), and of several for the same directive the last one counts
(`value_ofAnnotations_iff`), so that one which names no directive can be left out
(`ofAnnotations_drop`). -/
namespace DesignLayout

/-! ### Keys -/

namespace Directive

/-- The key names the directive, in letters of either case. -/
def SpeltBy (d : Directive) (key : List Char) : Prop :=
  d.spelling.toList.map Char.toLower = key.map Char.toLower

theorem eq_of_speltBy {d e : Directive} {key : List Char} (hd : d.SpeltBy key)
    (he : e.SpeltBy key) : d = e := by
  have hall : ∀ d ∈ all, ∀ e ∈ all,
      d.spelling.toList.map Char.toLower = e.spelling.toList.map Char.toLower → d = e := by
    decide
  exact hall d (mem_all d) e (mem_all e) (hd.trans he.symm)

theorem speltBy_of_ofSpelling? {key : List Char} {d : Directive}
    (h : ofSpelling? key = some d) : d.SpeltBy key := by
  rw [ofSpelling?] at h
  have hsame := List.find?_some h
  exact beq_iff_eq.mp hsame

theorem ofSpelling?_eq_some_iff {key : List Char} {d : Directive} :
    ofSpelling? key = some d ↔ d.SpeltBy key := by
  refine ⟨speltBy_of_ofSpelling?, fun h => ?_⟩
  -- Some directive is found, and no two have the same spelling.
  obtain ⟨e, he⟩ : ∃ e, ofSpelling? key = some e :=
    Option.isSome_iff_exists.mp (List.find?_isSome.mpr ⟨d, mem_all d, beq_iff_eq.mpr h⟩)
  rw [he, eq_of_speltBy (speltBy_of_ofSpelling? he) h]

end Directive

namespace Label

/-! ### One annotation -/

/-- The annotation gives the directive `d` this value: trimmed, it is a key alone or a key and a
text around its first equals sign, and the key names `d`. -/
inductive Annotates (segment : List Char) (d : Directive) : Directive.Value → Prop
  | flag {key : List Char} (trims : Text.Trims segment key) (alone : '=' ∉ key)
      (spelt : d.SpeltBy key) : Annotates segment d (.flag true)
  | text {before after key value : List Char}
      (trims : Text.Trims segment (before ++ '=' :: after)) (first : '=' ∉ before)
      (trimsKey : Text.Trims before key) (trimsValue : Text.Trims after value)
      (spelt : d.SpeltBy key) : Annotates segment d (.text (String.ofList value))

theorem annotated?_of_flag {segment key : List Char} (htrims : Text.Trims segment key)
    (halone : '=' ∉ key) :
    annotated? segment = (Directive.ofSpelling? key).map (·, .flag true) := by
  rw [annotated?, Text.trims_iff.mp htrims, Text.cutAt_of_notMem halone]

theorem annotated?_of_text {segment before after : List Char}
    (htrims : Text.Trims segment (before ++ '=' :: after)) (hfirst : '=' ∉ before) :
    annotated? segment = (Directive.ofSpelling? (Text.trimmed before)).map
      (·, .text (String.ofList (Text.trimmed after))) := by
  rw [annotated?, Text.trims_iff.mp htrims, Text.cutAt_append hfirst]

theorem annotated?_eq_some_iff {segment : List Char} {d : Directive} {v : Directive.Value} :
    annotated? segment = some (d, v) ↔ Annotates segment d v := by
  constructor
  · intro h
    have htrims := Text.trims_trimmed segment
    by_cases hsign : '=' ∈ Text.trimmed segment
    · obtain ⟨before, after, hcut, hfirst⟩ := List.eq_append_cons_of_mem hsign
      rw [hcut] at htrims
      rw [annotated?_of_text htrims hfirst, Option.map_eq_some_iff] at h
      obtain ⟨e, he, hpair⟩ := h
      cases hpair
      exact .text htrims hfirst (Text.trims_trimmed before) (Text.trims_trimmed after)
        (Directive.ofSpelling?_eq_some_iff.mp he)
    · rw [annotated?_of_flag htrims hsign, Option.map_eq_some_iff] at h
      obtain ⟨e, he, hpair⟩ := h
      cases hpair
      exact .flag htrims hsign (Directive.ofSpelling?_eq_some_iff.mp he)
  · rintro (⟨htrims, halone, hspelt⟩ | ⟨htrims, hfirst, hkey, hvalue, hspelt⟩)
    · rw [annotated?_of_flag htrims halone, Directive.ofSpelling?_eq_some_iff.mpr hspelt]
      rfl
    · rw [annotated?_of_text htrims hfirst, Text.trims_iff.mp hkey, Text.trims_iff.mp hvalue,
        Directive.ofSpelling?_eq_some_iff.mpr hspelt]
      rfl

theorem annotated?_eq_none {segment : List Char} (h : ∀ d v, ¬ Annotates segment d v) :
    annotated? segment = none := by
  refine Option.eq_none_iff_forall_ne_some.mpr fun found hfound => ?_
  exact h found.1 found.2 (annotated?_eq_some_iff.mp hfound)

/-- A blank annotation names nothing, since no spelling is empty. -/
theorem not_annotates_of_blank {segment : List Char} (h : ∀ c ∈ segment, Text.isBlank c = true)
    (d : Directive) (v : Directive.Value) : ¬ Annotates segment d v := by
  rintro (⟨htrims, -, hspelt⟩ | ⟨htrims, -⟩)
  · rw [htrims.eq_nil h] at hspelt
    have hspellings : ∀ d ∈ Directive.all, ¬ d.SpeltBy [] := by
      unfold Directive.SpeltBy
      decide
    exact hspellings d (Directive.mem_all d) hspelt
  · simpa using htrims.eq_nil h

/-! ### Several annotations -/

/-- Of the annotations for `d`, the last one gives it the value `v`. -/
def LastAnnotated (texts : List (List Char)) (d : Directive) (v : Directive.Value) : Prop :=
  ∃ before piece after, texts = before ++ piece :: after ∧ Annotates piece d v ∧
    ∀ later ∈ after, ∀ w, ¬ Annotates later d w

theorem lastAnnotated_concat {texts : List (List Char)} {piece : List Char} {d : Directive}
    {v : Directive.Value} :
    LastAnnotated (texts ++ [piece]) d v ↔
      Annotates piece d v ∨ (∀ w, ¬ Annotates piece d w) ∧ LastAnnotated texts d v := by
  constructor
  · rintro ⟨before, found, after, heq, hfound, hafter⟩
    -- The annotation that counts is the new one, or the new one is among the later ones.
    rcases List.eq_nil_or_concat after with rfl | ⟨after, last, rfl⟩
    · obtain ⟨rfl, hlast⟩ := List.append_inj' heq rfl
      cases hlast
      exact .inl hfound
    · rw [List.concat_eq_append] at heq hafter
      rw [← List.cons_append, ← List.append_assoc] at heq
      obtain ⟨rfl, hlast⟩ := List.append_inj' heq rfl
      cases hlast
      exact .inr ⟨hafter piece (by simp), before, found, after, rfl, hfound,
        fun later hlater => hafter later (by simp [hlater])⟩
  · rintro (h | ⟨hpiece, before, found, after, rfl, hfound, hafter⟩)
    · exact ⟨texts, piece, [], rfl, h, by simp⟩
    · refine ⟨before, found, after ++ [piece], by simp, hfound, fun later hlater => ?_⟩
      rcases List.mem_append.mp hlater with hlater | hlater
      · exact hafter later hlater
      · rw [List.mem_singleton.mp hlater]
        exact hpiece

/-- What one more annotation changes. -/
theorem value_ofAnnotations_concat (texts : List (List Char)) (piece : List Char)
    (d : Directive) (v : Directive.Value) :
    (ofAnnotations (texts ++ [piece])).value d = some v ↔
      Annotates piece d v ∨
        (∀ w, ¬ Annotates piece d w) ∧ (ofAnnotations texts).value d = some v := by
  simp only [← annotated?_eq_some_iff]
  rw [ofAnnotations, List.foldl_concat]
  cases annotated? piece with
  | none => simp [ofAnnotations]
  | some found =>
    obtain ⟨e, w⟩ := found
    by_cases he : d = e
    · subst he
      simp
    · simp [he, Ne.symm he, ofAnnotations]

/-- A later annotation takes the place of an earlier one for the same directive. -/
theorem value_ofAnnotations_iff {texts : List (List Char)} {d : Directive}
    {v : Directive.Value} :
    (ofAnnotations texts).value d = some v ↔ LastAnnotated texts d v := by
  induction texts using List.reverseRecOn with
  | nil => simp [ofAnnotations, LastAnnotated]
  | append_singleton texts piece ih =>
    rw [lastAnnotated_concat, value_ofAnnotations_concat, ih]

/-- An annotation that names no directive is as good as none. -/
theorem ofAnnotations_drop (before after : List (List Char)) {piece : List Char}
    (h : ∀ d v, ¬ Annotates piece d v) :
    ofAnnotations (before ++ piece :: after) = ofAnnotations (before ++ after) := by
  rw [ofAnnotations, ofAnnotations, List.foldl_append, List.foldl_append, List.foldl_cons,
    annotated?_eq_none h]

end Label
end DesignLayout
