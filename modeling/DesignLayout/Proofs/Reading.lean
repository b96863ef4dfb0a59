import DesignLayout.Layout.Wire
import DesignLayout.Proofs.Elements
import DesignLayout.Proofs.Records
import DesignLayout.Proofs.Spelling

/-! Layouts read back.

What is written of an element is read back as that element, whatever its type is and however deep it
goes (`Element.read_ofJson`), and so is what is written of a document (`Document.read_ofJson`). Two
things have no written form, a number that is not finite and a pivot without any axis; `Writable`
says that there are none, and that the opacity fits the 32 bits that it is read with. -/
namespace DesignLayout

open Json (Source fieldOf flagOf)

variable {α : Type}

/-! ### What can be written -/

/-- All numbers of a scroller. -/
def ScrollerLayout.reals (l : ScrollerLayout α) : List α :=
  l.paddingLeft.toList ++ l.paddingRight.toList ++ l.paddingTop.toList ++ l.spacing.toList

def TextContent.reals (c : TextContent α) : List α :=
  [c.size, c.visualHeight]

def ElementKind.reals : ElementKind α → List α
  | scroller layout => layout.reals
  | text content | richText content | input content => content.reals
  | _ => []

def Attributes.reals (a : Attributes α) : List α :=
  a.kind.reals ++ a.x.toList ++ a.y.toList ++ a.w.toList ++ a.h.toList

def CanvasRect.reals (r : CanvasRect α) : List α :=
  r.x.toList ++ r.y.toList ++ [r.w, r.h]

def Canvas.reals (c : Canvas α) : List α :=
  c.image.reals ++ c.size.reals ++ c.base.reals

/-- What the attributes of an element must be to be written: all numbers finite, no pivot without
an anchor, and an opacity of at most 32 bits. -/
structure Attributes.Writable (a : Attributes Float) : Prop where
  finite : ∀ x ∈ a.reals, x.isFinite = true
  pivot : ∀ p ∈ a.pivot, p.isEmpty = false
  opacity : ∀ n ∈ a.opacity, n < 0x100000000

/-- All that is in the element can be written. -/
def Element.Writable (e : Element Float) : Prop :=
  ∀ x ∈ e.preorder, x.own.Writable

structure Document.Writable (d : Document Float) : Prop where
  canvas : ∀ x ∈ d.canvas.reals, x.isFinite = true
  root : d.root.Writable

instance (a : Attributes Float) : Decidable a.Writable :=
  decidable_of_iff ((∀ x ∈ a.reals, x.isFinite = true) ∧ (∀ p ∈ a.pivot, p.isEmpty = false) ∧
      ∀ n ∈ a.opacity, n < 0x100000000)
    ⟨fun h => ⟨h.1, h.2.1, h.2.2⟩, fun h => ⟨h.finite, h.pivot, h.opacity⟩⟩

instance (e : Element Float) : Decidable e.Writable :=
  inferInstanceAs (Decidable (∀ x ∈ e.preorder, x.own.Writable))

instance (d : Document Float) : Decidable d.Writable :=
  decidable_of_iff ((∀ x ∈ d.canvas.reals, x.isFinite = true) ∧ d.root.Writable)
    ⟨fun h => ⟨h.1, h.2⟩, fun h => ⟨h.canvas, h.root⟩⟩

/-! ### Fields -/

namespace Json

@[simp] theorem lookup_fieldOf {β : Type} (name field : String) (toJson : β → Json)
    (o : Option β) :
    (fieldOf field toJson o).lookup name = if name = field then o.map toJson else none := by
  cases o with
  | none => simp [fieldOf]
  | some b => simp [fieldOf]

@[simp] theorem lookup_flagOf (name field : String) (on : Bool) :
    (flagOf field on).lookup name =
      if name = field then if on then some (.bool true) else none else none := by
  cases on with
  | false => simp [flagOf]
  | true => simp [flagOf]

theorem names_fieldOf {β : Type} (field : String) (toJson : β → Json) (o : Option β) :
    ((fieldOf field toJson o).map (·.1)).Sublist [field] := by
  cases o <;> simp [fieldOf]

theorem names_flagOf (field : String) (on : Bool) :
    ((flagOf field on).map (·.1)).Sublist [field] := by
  cases on <;> simp [flagOf]

theorem ofReal_of_isFinite {x : Float} (h : x.isFinite = true) : ofReal x = .real x :=
  if_pos h

theorem readReal_ofReal {x : Float} (h : x.isFinite = true) :
    readReal (Source.ofJson (ofReal x)) = .ok x := by
  rw [ofReal_of_isFinite h]
  rfl

/-- What is asked of an optional number. -/
theorem readReal_optional {o : Option Float} (h : ∀ x ∈ o, x.isFinite = true) :
    ∀ x ∈ o, ofReal x ≠ .null ∧ readReal (Source.ofJson (ofReal x)) = .ok x := by
  intro x hx
  refine ⟨?_, readReal_ofReal (h x hx)⟩
  rw [ofReal_of_isFinite (h x hx)]
  nofun

end Json

/-! ### Types of elements -/

theorem ScrollDirection.ofName?_name (d : ScrollDirection) : ofName? d.name = some d := by
  cases d <;> rfl

theorem TextFlow.ofName?_name (f : TextFlow) : ofName? f.name = some f := by
  cases f <;> rfl

theorem Json.readLooseChoice_text {β : Type} {ofName : String → Option β} {name : String} {b : β}
    (h : ofName name = some b) : readLooseChoice ofName (Source.ofJson (.text name)) = .ok b := by
  show named ofName name = .ok b
  rw [named, h]

namespace ScrollerLayout

theorem names_toFields (l : ScrollerLayout Float) : (l.toFields.map (·.1)).Sublist
    ["scroll", "paddingLeft", "paddingRight", "paddingTop", "spacing"] := by
  simp only [toFields, List.map_append]
  exact ((((List.Sublist.refl ["scroll"]).append (Json.names_fieldOf ..)).append
    (Json.names_fieldOf ..)).append (Json.names_fieldOf ..)).append (Json.names_fieldOf ..)

/-- A scroller is read from its fields, with its type among them. -/
theorem read_toFields {l : ScrollerLayout Float} (h : ∀ x ∈ l.reals, x.isFinite = true)
    (type : Json) : read (Source.ofJson (.object (("type", type) :: l.toFields))) = .ok l := by
  have hnodup : ((("type", type) :: l.toFields).map (·.1)).Nodup :=
    (l.names_toFields.cons_cons "type").nodup (by decide)
  simp only [reals, List.forall_mem_append, Option.mem_toList] at h
  obtain ⟨⟨⟨hleft, hright⟩, htop⟩, hspacing⟩ := h
  refine Json.readObject_eq ["scroll", "paddingLeft", "paddingRight", "paddingTop", "spacing"]
    hnodup fun r hr => ?_
  rw [hr.required (by decide) (by simp [toFields])
      (Json.readLooseChoice_text l.scroll.ofName?_name),
    hr.optional (by decide) (by simp [toFields, List.lookup_append]) (Json.readReal_optional hleft),
    hr.optional (by decide) (by simp [toFields, List.lookup_append])
      (Json.readReal_optional hright),
    hr.optional (by decide) (by simp [toFields, List.lookup_append]) (Json.readReal_optional htop),
    hr.optional (by decide) (by simp [toFields, List.lookup_append])
      (Json.readReal_optional hspacing)]
  rfl

end ScrollerLayout

namespace TextContent

theorem read_toFields {c : TextContent Float} (h : ∀ x ∈ c.reals, x.isFinite = true)
    (type : Json) : read (Source.ofJson (.object (("type", type) :: c.toFields))) = .ok c := by
  have hnodup : ((("type", type) :: c.toFields).map (·.1)).Nodup := by simp [toFields]
  have hsize : c.size.isFinite = true := h _ (by simp [reals])
  have hheight : c.visualHeight.isFinite = true := h _ (by simp [reals])
  refine Json.readObject_eq ["text", "textType", "font", "size", "color", "align", "vh"] hnodup
    fun r hr => ?_
  rw [hr.text (s := c.text) (by decide) (by simp [toFields]),
    hr.required (by decide) (by simp [toFields]) (Json.readLooseChoice_text c.flow.ofName?_name),
    hr.text (s := c.font) (by decide) (by simp [toFields]),
    hr.required (by decide) (by simp [toFields]) (Json.readReal_ofReal hsize),
    hr.text (s := c.color) (by decide) (by simp [toFields]),
    hr.text (s := c.align) (by decide) (by simp [toFields]),
    hr.required (by decide) (by simp [toFields]) (Json.readReal_ofReal hheight)]
  rfl

end TextContent

namespace ElementKind

/-- The names of all fields that only some types have. -/
def fieldNames : List String :=
  ["artboard", "scroll", "paddingLeft", "paddingRight", "paddingTop", "spacing", "image", "text",
   "textType", "font", "size", "color", "align", "vh"]

theorem names_toFields (kind : ElementKind Float) :
    (kind.toFields.map (·.1)).Sublist fieldNames := by
  cases kind with
  | scroller layout => exact layout.names_toFields.trans (by decide)
  | _ => simp only [toFields, TextContent.toFields, List.map_cons, List.map_nil]; decide

theorem nodup_toFields (kind : ElementKind Float) (type : Json) :
    ((("type", type) :: kind.toFields).map (·.1)).Nodup :=
  (kind.names_toFields.cons_cons "type").nodup (by decide)

/-- The fields of a type are read as they were written, with the type among them. -/
theorem readFields_toFields {kind : ElementKind Float} (h : ∀ x ∈ kind.reals, x.isFinite = true)
    (type : Json) :
    readFields kind.typeName (Source.ofJson (.object (("type", type) :: kind.toFields))) =
      .ok kind := by
  have hnodup := kind.nodup_toFields type
  cases kind with
  | root artboard =>
    rw [typeName, readFields]
    refine Json.readObject_eq ["artboard"] hnodup fun r hr => ?_
    have hfield : (("type", type) :: (root artboard).toFields).lookup "artboard" =
        some (.bool artboard) := by
      simp [toFields]
    rw [hr.orElse (by decide) hfield false rfl]
    rfl
  | list scroll =>
    rw [typeName, readFields]
    refine Json.readObject_eq ["scroll"] hnodup fun r hr => ?_
    rw [hr.required (by decide) (by simp [toFields])
      (Json.readLooseChoice_text scroll.ofName?_name)]
    rfl
  | scroller layout => exact congrArg (scroller <$> ·) (ScrollerLayout.read_toFields h type)
  | image file =>
    rw [typeName, readFields]
    refine Json.readObject_eq ["image"] hnodup fun r hr => ?_
    rw [hr.text (s := file) (by decide) (by simp [toFields])]
    rfl
  | text content => exact congrArg (text <$> ·) (TextContent.read_toFields h type)
  | richText content => exact congrArg (richText <$> ·) (TextContent.read_toFields h type)
  | input content => exact congrArg (input <$> ·) (TextContent.read_toFields h type)
  | _ => rfl

theorem read_toFields {kind : ElementKind Float} (h : ∀ x ∈ kind.reals, x.isFinite = true) :
    read (Source.ofJson (.object (("type", .text kind.typeName) :: kind.toFields))) =
      .ok kind := by
  have htype : Json.readObject [["type"]] (fun r => r.required "type" readType)
      (Source.ofJson (.object (("type", .text kind.typeName) :: kind.toFields))) =
      .ok kind.typeName :=
    Json.readObject_eq ["type"] (kind.nodup_toFields _) fun r hr =>
      hr.required (by decide) (Json.lookup_cons_eq_ite ..) rfl
  rw [read, htype]
  exact readFields_toFields h _

end ElementKind

/-! ### Elements -/

theorem Pivot.read_text (s : String) :
    read (.text s) = (parse s).mapError fun _ => Refusal.mismatch := by
  simp only [read, Json.readText, bind, Except.bind]
  cases parse s <;> rfl

theorem Pivot.read_eq_ok_iff {v : Source} {p : Pivot} :
    read v = .ok p ↔ ∃ s, v = .text s ∧ parse s = .ok p := by
  constructor
  · intro h
    cases v with
    | text s =>
      rw [read_text] at h
      cases hparse : parse s with
      | ok q =>
        rw [hparse] at h
        cases h
        exact ⟨s, rfl, hparse⟩
      | error e =>
        rw [hparse] at h
        cases h
    | _ => cases h
  · rintro ⟨s, rfl, hparse⟩
    rw [read_text, hparse]
    rfl

theorem Pivot.read_toJson {p : Pivot} (h : p.isEmpty = false) :
    read (Source.ofJson p.toJson) = .ok p :=
  read_eq_ok_iff.mpr ⟨p.render, rfl, parse_eq_ok_iff.mpr ⟨h, rfl⟩⟩

namespace Element

theorem listToJson_eq (es : List (Element Float)) : listToJson es = es.map toJson := by
  induction es with
  | nil => rfl
  | cons e rest ih => rw [listToJson, ih, List.map_cons]

/-- The fields that all types share. -/
def commonNames : List String :=
  ["name", "x", "y", "w", "h", "opacity", "pivot", "stretchx", "stretchy", "elements"]

/-- What is written of an element beside its type. -/
def commonFields (own : Attributes Float) (elements : Option (List (Element Float))) :
    List (String × Json) :=
  [("name", .text own.name)] ++ fieldOf "x" Json.ofReal own.x ++ fieldOf "y" Json.ofReal own.y ++
    fieldOf "w" Json.ofReal own.w ++ fieldOf "h" Json.ofReal own.h ++
    fieldOf "opacity" (fun n : Nat => Json.whole n) own.opacity ++
    fieldOf "pivot" Pivot.toJson own.pivot ++ flagOf "stretchx" own.stretchX ++
    flagOf "stretchy" own.stretchY ++ fieldOf "elements" (fun es => .array (es.map toJson)) elements

/-- All that is written of an element, with the fields of its type in front. -/
def fields (own : Attributes Float) (elements : Option (List (Element Float))) :
    List (String × Json) :=
  ("type", .text own.kind.typeName) :: own.kind.toFields ++ commonFields own elements

theorem toJson_eq (own : Attributes Float) (elements : Option (List (Element Float))) :
    (mk own elements).toJson = .object (fields own elements) := by
  cases elements <;>
    simp [toJson, Attributes.toFields, fields, commonFields, fieldOf, listToJson_eq]

theorem names_commonFields (own : Attributes Float) (elements : Option (List (Element Float))) :
    ((commonFields own elements).map (·.1)).Sublist commonNames := by
  simp only [commonFields, List.map_append]
  exact (((((((((List.Sublist.refl ["name"]).append (Json.names_fieldOf ..)).append
    (Json.names_fieldOf ..)).append (Json.names_fieldOf ..)).append (Json.names_fieldOf ..)).append
    (Json.names_fieldOf ..)).append (Json.names_fieldOf ..)).append (Json.names_flagOf ..)).append
    (Json.names_flagOf ..)).append (Json.names_fieldOf ..)

theorem names_typeFields (kind : ElementKind Float) (type : Json) :
    ((("type", type) :: kind.toFields).map (·.1)).Sublist ("type" :: ElementKind.fieldNames) :=
  kind.names_toFields.cons_cons "type"

theorem nodup_fields (own : Attributes Float) (elements : Option (List (Element Float))) :
    ((fields own elements).map (·.1)).Nodup := by
  rw [fields, List.map_append]
  exact ((names_typeFields ..).append (names_commonFields ..)).nodup (by decide)

/-- The fields of a type are none of the common ones. -/
theorem typeFields_apart {kind : ElementKind Float} {type : Json} {f : String × Json}
    (hf : f ∈ ("type", type) :: kind.toFields) : f.1 ∉ commonNames := by
  have hapart : ∀ name ∈ "type" :: ElementKind.fieldNames, name ∉ commonNames := by decide
  exact hapart _ ((names_typeFields kind type).subset (List.mem_map_of_mem hf))

theorem lookup_fields {name : String} (h : name ∈ commonNames) (own : Attributes Float)
    (elements : Option (List (Element Float))) :
    (fields own elements).lookup name = (commonFields own elements).lookup name := by
  have hnone : (("type", Json.text own.kind.typeName) :: own.kind.toFields).lookup name = none := by
    refine Json.lookup_eq_none_of_notMem fun hname => ?_
    obtain ⟨f, hf, rfl⟩ := List.mem_map.mp hname
    exact typeFields_apart hf h
  rw [fields, List.lookup_append, hnone, Option.none_or]

theorem filter_fields (own : Attributes Float) (elements : Option (List (Element Float))) :
    (fields own elements).filter (fun f => !commonNames.contains f.1) =
      ("type", .text own.kind.typeName) :: own.kind.toFields := by
  rw [fields, List.filter_append, List.filter_eq_self.mpr, List.filter_eq_nil_iff.mpr,
    List.append_nil]
  · intro f hf
    have hname := (names_commonFields own elements).subset (List.mem_map_of_mem hf)
    simpa using hname
  · intro f hf
    simpa using typeFields_apart hf

section
variable {own : Attributes Float} {elements : Option (List (Element Float))} {r : Json.Record}

theorem ofRecord_eq (hr : r.Holds commonNames (fields own elements)) (h : own.Writable) :
    Attributes.ofRecord r = .all own := by
  have hfinite := h.finite
  simp only [Attributes.reals, List.forall_mem_append, Option.mem_toList] at hfinite
  obtain ⟨⟨⟨⟨hkind, hx⟩, hy⟩, hw⟩, hh⟩ := hfinite
  have hlookup {name : String} (hname : name ∈ commonNames) :=
    lookup_fields hname own elements
  have hopacity : ∀ n ∈ own.opacity, Json.whole n ≠ .null ∧
      Json.readCount (Source.ofJson (.whole n)) = .ok n := by
    intro n hn
    refine ⟨Json.noConfusion, ?_⟩
    have hlt := h.opacity n hn
    rw [Source.ofJson, Json.readCount, if_pos (by omega), Int.toNat_natCast]
  have hpivot : ∀ p ∈ own.pivot, p.toJson ≠ .null ∧ Pivot.read (Source.ofJson p.toJson) = .ok p :=
    fun p hp => ⟨Json.noConfusion, Pivot.read_toJson (h.pivot p hp)⟩
  have hrest : r.rest ElementKind.read = .all own.kind := by
    refine hr.rest ?_
    rw [filter_fields]
    exact ElementKind.read_toFields hkind
  have hname : r.required "name" Json.readText = .all own.name := by
    refine hr.text (by decide) ?_
    rw [hlookup (by decide)]
    simp [commonFields]
  have hfield {name : String} (hknown : name ∈ commonNames) {o : Option Float}
      (ho : (commonFields own elements).lookup name = o.map Json.ofReal)
      (hfinite : ∀ x ∈ o, x.isFinite = true) :
      r.orElse name none (Json.readOptional Json.readReal) = .all o :=
    hr.optional hknown ((hlookup hknown).trans ho) (Json.readReal_optional hfinite)
  have hflag {name : String} (hknown : name ∈ commonNames) {on : Bool}
      (hon : (commonFields own elements).lookup name = if on then some (.bool true) else none) :
      r.orElse name false Json.readBool = .all on :=
    hr.flag hknown ((hlookup hknown).trans hon)
  have hstretchX : r.orElse "stretchx" false Json.readBool = .all own.stretchX :=
    hflag (by decide) (by simp [commonFields, List.lookup_append])
  have hstretchY : r.orElse "stretchy" false Json.readBool = .all own.stretchY :=
    hflag (by decide) (by simp [commonFields, List.lookup_append])
  rw [Attributes.ofRecord, hrest, hname, hstretchX, hstretchY,
    hfield (by decide) (by simp [commonFields, List.lookup_append]) hx,
    hfield (by decide) (by simp [commonFields, List.lookup_append]) hy,
    hfield (by decide) (by simp [commonFields, List.lookup_append]) hw,
    hfield (by decide) (by simp [commonFields, List.lookup_append]) hh,
    hr.optional (by decide) ((hlookup (by decide)).trans
      (by simp [commonFields, List.lookup_append])) hopacity,
    hr.optional (by decide) ((hlookup (by decide)).trans
      (by simp [commonFields, List.lookup_append])) hpivot]
  rfl

end
theorem writable_iff {e : Element Float} :
    e.Writable ↔ e.own.Writable ∧ ∀ c ∈ e.children, c.Writable := by
  constructor
  · intro h
    refine ⟨h e (mem_preorder_self e), fun c hc x hx => h x ?_⟩
    exact mem_preorder.mpr (.inr ⟨c, hc, hx⟩)
  · rintro ⟨hown, hwithin⟩ x hx
    rcases mem_preorder.mp hx with rfl | ⟨c, hc, hx⟩
    · exact hown
    · exact hwithin c hc x hx

theorem depth_toJson_lt (own : Attributes Float) {es : List (Element Float)} {e : Element Float}
    (he : e ∈ es) :
    (Source.ofJson e.toJson).depth + 1 < (Source.ofJson (mk own (some es)).toJson).depth := by
  have hmem : ("elements", Json.array (es.map toJson)) ∈ fields own (some es) := by
    simp [fields, commonFields, fieldOf]
  have hfield : (some "elements", Source.ofJson (.array (es.map toJson))) ∈
      Source.ofFields (fields own (some es)) := by
    rw [Source.ofFields_eq]
    exact List.mem_map_of_mem hmem
  have hitem : Source.ofJson e.toJson ∈ Source.ofItems (es.map toJson) := by
    rw [Source.ofItems_eq, List.map_map]
    exact List.mem_map_of_mem he
  have hfields := Source.depth_le_of_mem_fields hfield
  have hitems := Source.depth_le_of_mem_items hitem
  rw [toJson_eq, Source.ofJson, Source.depth]
  rw [Source.ofJson, Source.depth] at hfields
  omega

/-- What is written of an element is read back, when as many levels are read as there are. -/
theorem readWithin_ofJson (e : Element Float) :
    ∀ levels, (Source.ofJson e.toJson).depth < levels → e.Writable →
      readWithin levels (Source.ofJson e.toJson) = .ok e := by
  induction e using induction_within with
  | step e ih =>
    intro levels hdepth hwritable
    obtain ⟨hown, hchildren⟩ := writable_iff.mp hwritable
    obtain ⟨own, elements⟩ := e
    obtain ⟨levels, rfl⟩ := Nat.exists_eq_succ_of_ne_zero (Nat.ne_zero_of_lt hdepth)
    rw [toJson_eq]
    refine Json.readObject_eq commonNames (nodup_fields own elements) fun r hr => ?_
    have hread : ∀ es ∈ elements, Json.array (es.map toJson) ≠ .null ∧
        Json.readList (readWithin levels) (Source.ofJson (.array (es.map toJson))) = .ok es := by
      rintro es ⟨⟩
      refine ⟨nofun, Json.readList_eq fun e he => ih e he levels ?_ (hchildren e he)⟩
      have hlt := depth_toJson_lt own he
      omega
    have hlookup : (fields own elements).lookup "elements" =
        elements.map fun es => .array (es.map toJson) := by
      rw [lookup_fields (by decide)]
      simp [commonFields, List.lookup_append]
    rw [ofRecord_eq hr hown, hr.optional (by decide) hlookup hread]
    rfl

theorem read_ofJson {e : Element Float} (h : e.Writable) :
    read (Source.ofJson e.toJson) = .ok e :=
  readWithin_ofJson e _ (Nat.lt_succ_self _) h

end Element

/-! ### Documents -/

namespace CanvasRect

theorem read_ofJson {r : CanvasRect Float} (h : ∀ x ∈ r.reals, x.isFinite = true) :
    read (Source.ofJson r.toJson) = .ok r := by
  have hnodup : ((fieldOf "x" Json.ofReal r.x ++ fieldOf "y" Json.ofReal r.y ++
      [("w", Json.ofReal r.w), ("h", Json.ofReal r.h)]).map (·.1)).Nodup := by
    rw [List.map_append, List.map_append]
    exact (((Json.names_fieldOf ..).append (Json.names_fieldOf ..)).append
      (List.Sublist.refl ["w", "h"])).nodup (by decide)
  simp only [reals, List.forall_mem_append, Option.mem_toList] at h
  obtain ⟨⟨hx, hy⟩, hsize⟩ := h
  refine Json.readRecord_eq ["x", "y", "w", "h"] hnodup fun record hr => ?_
  rw [hr.optional (by decide) (by simp [List.lookup_append]) (Json.readReal_optional hx),
    hr.optional (by decide) (by simp [List.lookup_append]) (Json.readReal_optional hy),
    hr.required (by decide) (by simp [List.lookup_append])
      (Json.readReal_ofReal (hsize r.w (by simp))),
    hr.required (by decide) (by simp [List.lookup_append])
      (Json.readReal_ofReal (hsize r.h (by simp)))]
  rfl

end CanvasRect

theorem Canvas.read_ofJson {c : Canvas Float} (h : ∀ x ∈ c.reals, x.isFinite = true) :
    read (Source.ofJson c.toJson) = .ok c := by
  simp only [reals, List.forall_mem_append] at h
  obtain ⟨⟨himage, hsize⟩, hbase⟩ := h
  refine Json.readRecord_eq ["image", "size", "base"] (by simp) fun r hr => ?_
  rw [hr.required (by decide) (by simp) (CanvasRect.read_ofJson himage),
    hr.required (by decide) (by simp) (CanvasRect.read_ofJson hsize),
    hr.required (by decide) (by simp) (CanvasRect.read_ofJson hbase)]
  rfl

namespace Document

theorem readInfo_ofJson {version : String} {c : Canvas Float}
    (h : ∀ x ∈ c.reals, x.isFinite = true) :
    readInfo (Source.ofJson (.object [("version", .text version), ("canvas", c.toJson)])) =
      .ok (version, c) := by
  refine Json.readRecord_eq ["version", "canvas"] (by simp) fun r hr => ?_
  rw [hr.text (by decide) (Json.lookup_cons_eq_ite ..),
    hr.required (by decide) (by simp) (Canvas.read_ofJson h)]
  rfl

/-- What is written of a document is read back. -/
theorem read_ofJson {d : Document Float} (h : d.Writable) :
    read (Source.ofJson d.toJson) = .ok d := by
  refine Json.readRecord_eq ["info", "root"] (by simp) fun r hr => ?_
  rw [hr.required (by decide) (Json.lookup_cons_eq_ite ..) (readInfo_ofJson h.canvas),
    hr.required (by decide) (by simp) (Element.read_ofJson h.root)]
  rfl

end Document
end DesignLayout
