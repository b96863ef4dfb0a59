import DesignLayout.Proofs.Annotating
import DesignLayout.Proofs.Hiding

/-! The layers of a label.

What a label reads as is told here without the reader: a label is written in layers, its surface
name and its annotations (`Layered`), and the layers say what there is to read (`Layers.Says`). The
marks around the surface name (`Surface.Of`) and the roles that the name takes (`mem_rolesOf`) put a
directive in force whatever the annotations say; else the last annotation for it counts. By
`reads_in_layers` each label reads as its layers say, as that and nothing else. -/
namespace DesignLayout

/-! ### Roles by name -/

namespace Directive

/-- The endings by which a name takes the role. -/
def endings : Directive → List String
  | image => ["Image", "_image"]
  | button => ["Button", "_button"]
  | slider => ["Slider"]
  | scrollbar => ["Scrollbar"]
  | text => ["Text", "_text"]
  | toggle => ["Toggle"]
  | list => ["List"]
  | input => ["Input"]
  | scroller => ["Scroller"]
  | commentOut | subPrefab => []

/-- The word that takes the role when it is the whole name. -/
def word : Directive → Option String
  | image => some "image"
  | button => some "button"
  | text => some "text"
  | _ => none

/-- Whether the role is taken by name only where the extended roles are admitted. -/
def extendedOnly : Directive → Bool
  | input | scroller => true
  | _ => false

/-- The name takes the role by itself. -/
def TakenBy (d : Directive) (extended : Bool) (name : List Char) : Prop :=
  (d.extendedOnly = true → extended = true) ∧
    ((∃ ending ∈ d.endings, ending.toList <:+ name) ∨ ∃ word ∈ d.word, word.toList = name)

end Directive

namespace Label

theorem accepts_iff {rule : NameRule} {extended : Bool} {name : List Char} :
    rule.accepts extended name = true ↔ (rule.extendedOnly = true → extended = true) ∧
      ((∃ ending ∈ rule.endings, ending.toList <:+ name) ∨
        ∃ word ∈ rule.word, word.toList = name) := by
  simp only [NameRule.accepts, hasEnding, Bool.and_eq_true, Bool.or_eq_true, List.any_eq_true,
    Option.any_eq_true, List.isSuffixOf_iff_suffix, beq_iff_eq]
  refine and_congr_left fun _ => ?_
  cases rule.extendedOnly <;> simp

theorem mem_rolesOf {extended : Bool} {name : List Char} {d : Directive} :
    d ∈ rolesOf extended name ↔ d.TakenBy extended name := by
  have hrules : ∀ rule ∈ nameRules, rule.endings = rule.role.endings ∧
      rule.word = rule.role.word ∧ rule.extendedOnly = rule.role.extendedOnly := by
    decide
  have hroles : ∀ d ∈ Directive.all,
      (∃ rule ∈ nameRules, rule.role = d) ∨ d.endings = [] ∧ d.word = none := by
    decide
  simp only [rolesOf, List.mem_map, List.mem_filter, accepts_iff]
  constructor
  · rintro ⟨rule, ⟨hmem, haccepts⟩, rfl⟩
    obtain ⟨hendings, hword, hextended⟩ := hrules rule hmem
    rwa [hendings, hword, hextended] at haccepts
  · intro h
    rcases hroles d (Directive.mem_all d) with ⟨rule, hmem, rfl⟩ | ⟨hendings, hword⟩
    · obtain ⟨hendings, hword, hextended⟩ := hrules rule hmem
      refine ⟨rule, ⟨hmem, ?_⟩, rfl⟩
      rw [hendings, hword, hextended]
      exact h
    · simp [Directive.TakenBy, hendings, hword] at h

/-! ### The surface name -/

/-- `rest` is the text without one `c` in front, and `found` tells whether there was one. -/
inductive StripsFirst (c : Char) : List Char → List Char → Bool → Prop
  | found (cs : List Char) : StripsFirst c (c :: cs) cs true
  | absent {cs : List Char} (h : cs.head? ≠ some c) : StripsFirst c cs cs false

/-- `rest` is the text without one `c` at its end, and `found` tells whether there was one. -/
inductive StripsLast (c : Char) : List Char → List Char → Bool → Prop
  | found (cs : List Char) : StripsLast c (cs ++ [c]) cs true
  | absent {cs : List Char} (h : cs.getLast? ≠ some c) : StripsLast c cs cs false

theorem stripsFirst_stripFirst (c : Char) (cs : List Char) :
    StripsFirst c cs (stripFirst c cs).1 (stripFirst c cs).2 := by
  cases cs with
  | nil => exact .absent (by simp)
  | cons d cs =>
    by_cases hd : d = c
    · rw [stripFirst, if_pos hd, hd]
      exact .found cs
    · rw [stripFirst, if_neg hd]
      exact .absent (by simpa using hd)

theorem StripsFirst.stripFirst_eq {c : Char} {cs rest : List Char} {found : Bool}
    (h : StripsFirst c cs rest found) : stripFirst c cs = (rest, found) := by
  cases h with
  | found => rw [stripFirst, if_pos rfl]
  | absent h =>
    cases cs with
    | nil => rfl
    | cons d cs => rw [stripFirst, if_neg (by simpa using h)]

theorem StripsFirst.reverse {c : Char} {cs rest : List Char} {found : Bool}
    (h : StripsFirst c cs rest found) : StripsLast c cs.reverse rest.reverse found := by
  cases h with
  | found =>
    rw [List.reverse_cons]
    exact .found _
  | absent h => exact .absent (by rwa [List.getLast?_reverse])

theorem StripsLast.reverse {c : Char} {cs rest : List Char} {found : Bool}
    (h : StripsLast c cs rest found) : StripsFirst c cs.reverse rest.reverse found := by
  cases h with
  | found =>
    rw [List.reverse_append]
    exact .found _
  | absent h => exact .absent (by rwa [List.head?_reverse])

theorem stripsLast_stripLast (c : Char) (cs : List Char) :
    StripsLast c cs (stripLast c cs).1 (stripLast c cs).2 := by
  have h := (stripsFirst_stripFirst c cs.reverse).reverse
  rwa [List.reverse_reverse] at h

theorem StripsLast.stripLast_eq {c : Char} {cs rest : List Char} {found : Bool}
    (h : StripsLast c cs rest found) : stripLast c cs = (rest, found) := by
  rw [stripLast, h.reverse.stripFirst_eq]
  dsimp only
  rw [List.reverse_reverse]

theorem StripsFirst.sublist {c : Char} {cs rest : List Char} {found : Bool}
    (h : StripsFirst c cs rest found) : rest.Sublist cs := by
  cases h with
  | found => exact List.sublist_cons_self _ _
  | absent => exact .refl _

theorem StripsLast.sublist {c : Char} {cs rest : List Char} {found : Bool}
    (h : StripsLast c cs rest found) : rest.Sublist cs := by
  cases h with
  | found => exact List.sublist_append_left _ _
  | absent => exact .refl _

/-- The surface name of the text, with the marks that stood around it: one `#`, then one `*` in
front, and one `/` at the end. -/
def Surface.Of (s : Surface) (cs : List Char) : Prop :=
  ∃ second third, StripsFirst '#' cs second s.commentedOut ∧
    StripsFirst '*' second third s.picture ∧ StripsLast '/' third s.name s.subPrefab

namespace Surface

theorem of_ofChars (cs : List Char) : (ofChars cs).Of cs :=
  ⟨_, _, stripsFirst_stripFirst '#' cs, stripsFirst_stripFirst '*' _,
    stripsLast_stripLast '/' _⟩

theorem Of.ofChars_eq {s : Surface} {cs : List Char} (h : s.Of cs) : ofChars cs = s := by
  obtain ⟨second, third, hfirst, hsecond, hlast⟩ := h
  rw [ofChars, hfirst.stripFirst_eq]
  dsimp only
  rw [hsecond.stripFirst_eq]
  dsimp only
  rw [hlast.stripLast_eq]

theorem Of.sublist {s : Surface} {cs : List Char} (h : s.Of cs) : s.name.Sublist cs := by
  obtain ⟨second, third, hfirst, hsecond, hlast⟩ := h
  exact hlast.sublist.trans (hsecond.sublist.trans hfirst.sublist)

/-- Whether the surface name had the mark that puts the directive in force. -/
def marks (s : Surface) : Directive → Bool
  | .commentOut => s.commentedOut
  | .image => s.picture
  | .subPrefab => s.subPrefab
  | _ => false

theorem value_addIf (found : Bool) (d : Directive) (ds : Directives) (e : Directive) :
    (addIf found d ds).value e =
      if e = d then if found then some (.flag true) else ds.value e else ds.value e := by
  cases found <;> simp [addIf]

/-- The directives with those in force whose marks the surface name had. -/
def marked (s : Surface) (ds : Directives) : Directives :=
  addIf s.subPrefab .subPrefab (addIf s.picture .image (addIf s.commentedOut .commentOut ds))

theorem value_marked (s : Surface) (ds : Directives) (d : Directive) :
    (s.marked ds).value d = if s.marks d = true then some (.flag true) else ds.value d := by
  cases d <;> simp only [marked, value_addIf] <;> rfl

end Surface

theorem value_addAll_of_mem (ds : Directives) {d : Directive} {roles : List Directive}
    (h : d ∈ roles) : (addAll ds roles).value d = some (.flag true) := by
  induction roles generalizing ds with
  | nil => cases h
  | cons role rest ih =>
    by_cases hrest : d ∈ rest
    · exact ih _ hrest
    · obtain rfl : d = role := (List.mem_cons.mp h).resolve_right hrest
      show (addAll (ds.add d) rest).value d = _
      rw [value_addAll _ hrest, Directives.value_add, if_pos rfl]

/-! ### Labels -/

/-- What a label is written in: its surface name with the marks around it, and the texts of its
annotations. -/
structure Layers where
  surface : Surface
  annotations : List (List Char)

/-- The label is written in these layers: cut at every `@`, its first piece is the surface name
once it is trimmed, and the others are the annotations. -/
def Layered (label : String) (y : Layers) : Prop :=
  ∃ first text, Text.FallsInto '@' label.toList (first :: y.annotations) ∧
    Text.Trims first text ∧ y.surface.Of text

/-- What the layers say there is to read. -/
structure Layers.Says (y : Layers) (inGrid extended : Bool) (l : Label) : Prop where
  name : l.name = if inGrid then "item0" else String.ofList y.surface.name
  /-- Marks and roles put their directives in force whatever the annotations say. -/
  forced : ∀ d, y.surface.marks d = true ∨ d.TakenBy extended l.name.toList →
    l.directives.value d = some (.flag true)
  /-- Any other directive has the value that its last annotation gives it, or none. -/
  annotated : ∀ d, ¬ (y.surface.marks d = true ∨ d.TakenBy extended l.name.toList) →
    ∀ v, l.directives.value d = some v ↔ LastAnnotated y.annotations d v

/-- The layers say one thing only. -/
theorem Layers.Says.unique {y : Layers} {inGrid extended : Bool} {l k : Label}
    (hl : y.Says inGrid extended l) (hk : y.Says inGrid extended k) : l = k := by
  obtain ⟨name, directives⟩ := l
  obtain ⟨name', directives'⟩ := k
  obtain rfl : name = name' := hl.name.trans hk.name.symm
  obtain rfl : directives = directives' := by
    ext d v
    by_cases h : y.surface.marks d = true ∨ d.TakenBy extended name.toList
    · rw [hl.forced d h, hk.forced d h]
    · exact (hl.annotated d h v).trans (hk.annotated d h v).symm
  rfl

theorem layered_of_fallsInto {label : String} {first : List Char} {texts : List (List Char)}
    (h : Text.FallsInto '@' label.toList (first :: texts)) :
    Layered label ⟨Surface.ofChars (Text.trimmed first), texts⟩ :=
  ⟨first, _, h, Text.trims_trimmed first, Surface.of_ofChars _⟩

theorem exists_layered (label : String) : ∃ y, Layered label y := by
  obtain ⟨first, rest, hpieces⟩ :=
    List.exists_cons_of_ne_nil (Text.pieces_ne_nil '@' label.toList)
  exact ⟨_, layered_of_fallsInto (Text.fallsInto_iff.mpr hpieces)⟩

/-- The name that a label gets, in characters. -/
def Layers.nameChars (y : Layers) (inGrid : Bool) : List Char :=
  if inGrid then gridCellName.toList else y.surface.name

theorem parse_of_layered {label : String} {y : Layers} (h : Layered label y)
    (inGrid extended : Bool) :
    parse label inGrid extended =
      { name := String.ofList (y.nameChars inGrid)
        directives := addAll (y.surface.marked (ofAnnotations y.annotations))
          (rolesOf extended (y.nameChars inGrid)) } := by
  obtain ⟨first, text, hpieces, htrims, hsurface⟩ := h
  rw [parse, Text.fallsInto_iff.mp hpieces]
  dsimp only [List.headD_cons, List.drop_succ_cons, List.drop_zero]
  rw [Text.trims_iff.mp htrims, hsurface.ofChars_eq]
  rfl

theorem says_parse {label : String} {y : Layers} (h : Layered label y) (inGrid extended : Bool) :
    y.Says inGrid extended (parse label inGrid extended) := by
  rw [parse_of_layered h]
  constructor
  · cases inGrid <;> rfl
  · intro d hd
    dsimp only at hd ⊢
    rw [String.toList_ofList, ← mem_rolesOf] at hd
    by_cases hrole : d ∈ rolesOf extended (y.nameChars inGrid)
    · exact value_addAll_of_mem _ hrole
    · rw [value_addAll _ hrole, Surface.value_marked, if_pos (hd.resolve_right hrole)]
  · intro d hd v
    dsimp only at hd ⊢
    rw [String.toList_ofList, ← mem_rolesOf, not_or] at hd
    rw [value_addAll _ hd.2, Surface.value_marked, if_neg hd.1, value_ofAnnotations_iff]

theorem parse_eq_iff {label : String} {inGrid extended : Bool} {l : Label} :
    parse label inGrid extended = l ↔ ∃ y, Layered label y ∧ y.Says inGrid extended l := by
  constructor
  · rintro rfl
    obtain ⟨y, hy⟩ := exists_layered label
    exact ⟨y, hy, says_parse hy inGrid extended⟩
  · rintro ⟨y, hy, hsays⟩
    exact (says_parse hy inGrid extended).unique hsays

theorem at_notMem_name (label : String) (inGrid extended : Bool) :
    '@' ∉ (parse label inGrid extended).name.toList := by
  obtain ⟨y, hy⟩ := exists_layered label
  rw [parse_of_layered hy, String.toList_ofList, Layers.nameChars]
  split
  · decide
  · obtain ⟨first, text, hpieces, htrims, hsurface⟩ := hy
    intro h
    exact hpieces.whole first List.mem_cons_self (htrims.sublist.subset (hsurface.sublist.subset h))

/-- An annotation that names no directive can be left out of the label. -/
theorem parse_drop_annotation {label label' : String} {first piece : List Char}
    {before after : List (List Char)}
    (h : Text.FallsInto '@' label.toList (first :: (before ++ piece :: after)))
    (h' : Text.FallsInto '@' label'.toList (first :: (before ++ after)))
    (hpiece : ∀ d v, ¬ Annotates piece d v) (inGrid extended : Bool) :
    parse label inGrid extended = parse label' inGrid extended := by
  rw [parse_of_layered (layered_of_fallsInto h), parse_of_layered (layered_of_fallsInto h'),
    ofAnnotations_drop _ _ hpiece]
  rfl

/-- A label reads as its layers say and as nothing else, its name holds no `@`, and an annotation
that is blank or names no directive could as well not be there. -/
theorem reads_in_layers (label : String) (inGrid extended : Bool) :
    (∀ l, parse label inGrid extended = l ↔
      ∃ y, Layered label y ∧ y.Says inGrid extended l) ∧
    '@' ∉ (parse label inGrid extended).name.toList ∧
    ∀ first before piece after label',
      Text.FallsInto '@' label.toList (first :: (before ++ piece :: after)) →
      (∀ c ∈ piece, Text.isBlank c = true) ∨ (∀ d v, ¬ Annotates piece d v) →
      Text.FallsInto '@' label'.toList (first :: (before ++ after)) →
      parse label inGrid extended = parse label' inGrid extended := by
  refine ⟨fun l => parse_eq_iff, at_notMem_name label inGrid extended, ?_⟩
  rintro first before piece after label' h (hblank | hpiece) h'
  · exact parse_drop_annotation h h' (not_annotates_of_blank hblank) inGrid extended
  · exact parse_drop_annotation h h' hpiece inGrid extended

/-- What is read off a label with marks, a role, two annotations for a toggle and one annotation
that names nothing. -/
def crowdedReading : Label where
  name := "closeButton"
  directives := ((((Directives.empty.insert .toggle (.text "x=y")).add .commentOut).add
    .image).add .subPrefab).add .button

theorem crowded_label_in_layers :
    (∃ y, Layered " #*closeButton/ @button=no@nonsense @toggle@ TOGGLE = x=y " y ∧
      y.Says false false crowdedReading) ∧
    '@' ∉ crowdedReading.name.toList ∧
    parse " #*closeButton/ @button=no@toggle@ TOGGLE = x=y " false false = crowdedReading := by
  have hread : parse " #*closeButton/ @button=no@nonsense @toggle@ TOGGLE = x=y " false false =
      crowdedReading := by
    refine congrArg₂ Label.mk (by decide) (Directives.ext fun d => ?_)
    cases d <;> decide
  have hnothing (d : Directive) (v : Directive.Value) : ¬ Annotates "nonsense ".toList d v := by
    rw [← annotated?_eq_some_iff]
    have hnone : annotated? "nonsense ".toList = none := by decide
    rw [hnone]
    rintro ⟨⟩
  obtain ⟨hlayers, hname, hdrop⟩ :=
    reads_in_layers " #*closeButton/ @button=no@nonsense @toggle@ TOGGLE = x=y " false false
  refine ⟨(hlayers _).mp hread, hread ▸ hname, ?_⟩
  rw [← hread]
  exact (hdrop " #*closeButton/ ".toList ["button=no".toList] _
    ["toggle".toList, " TOGGLE = x=y ".toList] _ (Text.fallsInto_iff.mpr (by decide)) (.inr hnothing)
    (Text.fallsInto_iff.mpr (by decide))).symm

end Label
end DesignLayout
