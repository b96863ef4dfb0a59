import DesignLayout.Proofs.Fitting
import DesignLayout.Proofs.Reading

/-! What was read can be written.

A value that was read is made of what stood in its text. If all numbers of the text are finite, then
so are those of the element that was read, no pivot is without an axis, and what is written of the
element nests no deeper than what it was read from (`Element.of_readWithin`, `Document.of_read`).
For what was not read, a number that is not finite is written as no number, so that only the sizes
of the opacities matter (`Element.Counted.printable`, `Document.printable`). -/
namespace DesignLayout

open Json (Source Reader Parts Record fieldOf flagOf)

/-! ### Written fields that fit -/

namespace Json

variable {β : Type} {levels : Nat}

theorem fits_ofReal (x : Float) : (Source.ofJson (ofReal x)).Fits levels := by
  by_cases h : x.isFinite = true
  · rw [ofReal_of_isFinite h]
    exact .real h
  · rw [ofReal, if_neg h]
    exact .null

theorem forall_mem_fieldOf {name : String} {toJson : β → Json} {o : Option β}
    {P : String × Json → Prop} :
    (∀ f ∈ fieldOf name toJson o, P f) ↔ ∀ b ∈ o, P (name, toJson b) := by
  cases o <;> simp [fieldOf]

theorem forall_mem_flagOf {name : String} {on : Bool} {P : String × Json → Prop} :
    (∀ f ∈ flagOf name on, P f) ↔ (on = true → P (name, .bool true)) := by
  cases on <;> simp [flagOf]

/-- The field of an optional number. -/
theorem fits_realField {name : String} (o : Option Float) :
    ∀ f ∈ fieldOf name ofReal o, (Source.ofJson f.2).Fits levels :=
  forall_mem_fieldOf.mpr fun x _ => fits_ofReal x

/-- The value fits as many levels as it has. -/
def Printable (v : Json) : Prop :=
  ∀ levels, (Source.ofJson v).depth ≤ levels → (Source.ofJson v).Fits levels

theorem printable_text (s : String) : (text s).Printable := fun _ _ => .text s

theorem printable_object {fs : List (String × Json)} (h : ∀ f ∈ fs, f.2.Printable) :
    (object fs).Printable := by
  intro levels hdepth
  obtain ⟨inner, rfl, hfields⟩ := depth_object_le hdepth
  exact fits_object fun f hf => h f hf inner (hfields f hf)

theorem printable_array {items : List Json} (h : ∀ v ∈ items, v.Printable) :
    (array items).Printable := by
  intro levels hdepth
  obtain ⟨inner, rfl, hitems⟩ := depth_array_le hdepth
  exact fits_array fun v hv => h v hv inner (hitems v hv)

end Json

/-! ### What layouts are read from -/

variable {v : Source} {levels : Nat}

theorem Pivot.isEmpty_of_read {p : Pivot} (h : read v = .ok p) : p.isEmpty = false := by
  obtain ⟨s, -, hparse⟩ := read_eq_ok_iff.mp h
  exact (parse_eq_ok_iff.mp hparse).1

theorem ScrollerLayout.finite_of_read {l : ScrollerLayout Float} (hv : v.Fits levels)
    (h : read v = .ok l) : ∀ x ∈ l.reals, x.isFinite = true := by
  obtain ⟨inner, r, -, hr, hbody⟩ := Json.of_readObject hv h
  simp only [Parts.seq_eq_all, Parts.map_eq_all] at hbody
  obtain ⟨_, spacing, ⟨_, top, ⟨_, right, ⟨_, left, ⟨scroll, -, rfl⟩, hleft, rfl⟩, hright, rfl⟩,
    htop, rfl⟩, hspacing, rfl⟩ := hbody
  simp only [reals, List.forall_mem_append, Option.mem_toList]
  exact ⟨⟨⟨hr.finite_optional hleft, hr.finite_optional hright⟩, hr.finite_optional htop⟩,
    hr.finite_optional hspacing⟩

theorem TextContent.finite_of_read {c : TextContent Float} (hv : v.Fits levels)
    (h : read v = .ok c) : ∀ x ∈ c.reals, x.isFinite = true := by
  obtain ⟨inner, r, -, hr, hbody⟩ := Json.of_readObject hv h
  simp only [Parts.seq_eq_all, Parts.map_eq_all] at hbody
  obtain ⟨_, height, ⟨_, align, ⟨_, color, ⟨_, size, ⟨_, font, ⟨_, flow, ⟨text, -, rfl⟩, -, rfl⟩,
    -, rfl⟩, hsize, rfl⟩, -, rfl⟩, -, rfl⟩, hheight, rfl⟩ := hbody
  simp only [reals, List.forall_mem_cons]
  exact ⟨hr.finite_required hsize, hr.finite_required hheight, List.forall_mem_nil _⟩

namespace ElementKind

theorem map_eq_ok {β γ : Type} {f : β → γ} {e : Except Refusal β} {c : γ}
    (h : f <$> e = .ok c) : ∃ b, e = .ok b ∧ f b = c := by
  cases e with
  | error why => cases h
  | ok b => exact ⟨b, rfl, Except.ok.inj h⟩

theorem finite_of_readFields {type : String} {kind : ElementKind Float} (hv : v.Fits levels)
    (h : readFields type v = .ok kind) : ∀ x ∈ kind.reals, x.isFinite = true := by
  rw [readFields.eq_def] at h
  split at h
  · obtain ⟨inner, r, -, -, hbody⟩ := Json.of_readObject hv h
    obtain ⟨artboard, -, rfl⟩ := Parts.map_eq_all.mp hbody
    nofun
  · cases h; nofun
  · cases h; nofun
  · cases h; nofun
  · cases h; nofun
  · cases h; nofun
  · obtain ⟨inner, r, -, -, hbody⟩ := Json.of_readObject hv h
    obtain ⟨scroll, -, rfl⟩ := Parts.map_eq_all.mp hbody
    nofun
  · obtain ⟨layout, hread, rfl⟩ := map_eq_ok h
    exact ScrollerLayout.finite_of_read hv hread
  · obtain ⟨inner, r, -, -, hbody⟩ := Json.of_readObject hv h
    obtain ⟨file, -, rfl⟩ := Parts.map_eq_all.mp hbody
    nofun
  · obtain ⟨content, hread, rfl⟩ := map_eq_ok h
    exact TextContent.finite_of_read hv hread
  · obtain ⟨content, hread, rfl⟩ := map_eq_ok h
    exact TextContent.finite_of_read hv hread
  · obtain ⟨content, hread, rfl⟩ := map_eq_ok h
    exact TextContent.finite_of_read hv hread
  · cases h

theorem finite_of_read {kind : ElementKind Float} (hv : v.Fits levels) (h : read v = .ok kind) :
    ∀ x ∈ kind.reals, x.isFinite = true := by
  rw [read] at h
  cases htype : Json.readObject [["type"]] (fun r => r.required "type" readType) v with
  | error why =>
    rw [htype] at h
    cases h
  | ok type =>
    rw [htype] at h
    exact finite_of_readFields hv h

end ElementKind

theorem Attributes.writable_of_ofRecord {r : Record} {a : Attributes Float}
    (hr : r.All (Source.Fits levels)) (h : ofRecord r = .all a) : a.Writable := by
  simp only [ofRecord, Parts.seq_eq_all, Parts.map_eq_all] at h
  obtain ⟨_, stretchY, ⟨_, stretchX, ⟨_, pivot, ⟨_, opacity, ⟨_, height, ⟨_, width, ⟨_, y, ⟨_, x,
    ⟨_, name, ⟨kind, hkind, rfl⟩, -, rfl⟩, hx, rfl⟩, hy, rfl⟩, hwidth, rfl⟩, hheight, rfl⟩,
    hopacity, rfl⟩, hpivot, rfl⟩, -, rfl⟩, -, rfl⟩ := h
  refine ⟨?_, fun p hp => ?_, fun n hn => ?_⟩
  · simp only [reals, List.forall_mem_append, Option.mem_toList]
    exact ⟨⟨⟨⟨ElementKind.finite_of_read (.object hr.others) (Record.of_rest hkind),
      hr.finite_optional hx⟩, hr.finite_optional hy⟩, hr.finite_optional hwidth⟩,
      hr.finite_optional hheight⟩
  · obtain ⟨w, -, hread⟩ := hr.of_optional hpivot p hp
    exact Pivot.isEmpty_of_read hread
  · obtain ⟨w, -, hread⟩ := hr.of_optional hopacity n hn
    exact Json.of_readCount hread

namespace Element

theorem fits_typeFields (kind : ElementKind Float) :
    ∀ f ∈ kind.toFields, (Source.ofJson f.2).Fits levels := by
  have hcontent (c : TextContent Float) : ∀ f ∈ c.toFields, (Source.ofJson f.2).Fits levels := by
    simp only [TextContent.toFields, List.forall_mem_cons]
    exact ⟨.text _, .text _, .text _, Json.fits_ofReal _, .text _, .text _, Json.fits_ofReal _,
      List.forall_mem_nil _⟩
  cases kind with
  | root artboard => exact List.forall_mem_singleton.mpr (.bool _)
  | list scroll => exact List.forall_mem_singleton.mpr (.text _)
  | image file => exact List.forall_mem_singleton.mpr (.text _)
  | scroller l =>
    simp only [ElementKind.toFields, ScrollerLayout.toFields, List.forall_mem_append]
    exact ⟨⟨⟨⟨List.forall_mem_singleton.mpr (.text _), Json.fits_realField _⟩,
      Json.fits_realField _⟩, Json.fits_realField _⟩, Json.fits_realField _⟩
  | text c => exact hcontent c
  | richText c => exact hcontent c
  | input c => exact hcontent c
  | _ => exact List.forall_mem_nil _

/-- All that is written of an element fits when what is within it does. -/
theorem fits_fields {own : Attributes Float} {elements : Option (List (Element Float))}
    (hown : ∀ n ∈ own.opacity, n < 0x100000000)
    (hwithin : ∀ es ∈ elements, (Source.ofJson (.array (es.map toJson))).Fits levels) :
    ∀ f ∈ fields own elements, (Source.ofJson f.2).Fits levels := by
  have hopacity : ∀ n ∈ own.opacity, (Source.ofJson (.whole n)).Fits levels := by
    intro n hn
    have hlt := hown n hn
    refine .whole ?_
    simp only [Json.Token.fitsInteger, Bool.and_eq_true, decide_eq_true_eq]
    omega
  simp only [fields, commonFields, List.forall_mem_append, List.forall_mem_cons]
  exact ⟨⟨.text _, fits_typeFields _⟩, ⟨⟨⟨⟨⟨⟨⟨⟨⟨.text _, List.forall_mem_nil _⟩,
    Json.fits_realField _⟩, Json.fits_realField _⟩, Json.fits_realField _⟩,
    Json.fits_realField _⟩, Json.forall_mem_fieldOf.mpr hopacity⟩,
    Json.forall_mem_fieldOf.mpr fun p _ => .text _⟩,
    Json.forall_mem_flagOf.mpr fun _ => .bool _⟩, Json.forall_mem_flagOf.mpr fun _ => .bool _⟩,
    Json.forall_mem_fieldOf.mpr hwithin⟩

/-- What is read of an element can be written, and then it fits where it was read from. -/
theorem of_readWithin : ∀ (count : Nat) {v : Source} {levels : Nat} {e : Element Float},
    v.Fits levels → readWithin count v = .ok e →
    e.Writable ∧ (Source.ofJson e.toJson).Fits levels
  | 0, _, _, _, _, h => by cases h
  | count + 1, v, levels, e, hv, h => by
    obtain ⟨inner, r, rfl, hr, hbody⟩ := Json.of_readObject hv h
    simp only [Parts.seq_eq_all, Parts.map_eq_all] at hbody
    obtain ⟨_, elements, ⟨own, hown, rfl⟩, helements, rfl⟩ := hbody
    have hown := Attributes.writable_of_ofRecord hr hown
    have hwithin : ∀ es ∈ elements, ∃ deeper, inner = deeper + 1 ∧
        ∀ e ∈ es, e.Writable ∧ (Source.ofJson e.toJson).Fits deeper := by
      intro es hes
      obtain ⟨w, hw, hread⟩ := hr.of_optional helements es hes
      obtain ⟨deeper, rfl, hitems⟩ := Json.of_readList hw hread
      refine ⟨deeper, rfl, fun e he => ?_⟩
      obtain ⟨item, hitem, hread⟩ := hitems e he
      exact of_readWithin count hitem hread
    refine ⟨writable_iff.mpr ⟨hown, fun c hc => ?_⟩, ?_⟩
    · cases elements with
      | none => cases hc
      | some es =>
        obtain ⟨deeper, -, hes⟩ := hwithin es rfl
        exact (hes c hc).1
    · rw [toJson_eq]
      refine Json.fits_object (fits_fields hown.opacity fun es hes => ?_)
      obtain ⟨deeper, rfl, hes⟩ := hwithin es hes
      exact Json.fits_array (List.forall_mem_map.mpr fun e he => (hes e he).2)

/-- All opacities in the element are of at most 32 bits. -/
def Counted (e : Element Float) : Prop :=
  ∀ x ∈ e.preorder, ∀ n ∈ x.own.opacity, n < 0x100000000

theorem Writable.counted {e : Element Float} (h : e.Writable) : e.Counted :=
  fun x hx => (h x hx).opacity

theorem Counted.of_mem_children {e c : Element Float} (h : e.Counted) (hc : c ∈ e.children) :
    c.Counted :=
  fun x hx => h x (mem_preorder.mpr (.inr ⟨c, hc, hx⟩))

/-- A number that is not finite is written as no number at all, so that only opacities count. -/
theorem Counted.printable {e : Element Float} (h : e.Counted) : e.toJson.Printable := by
  induction e using induction_within with
  | step e ih =>
    intro levels hdepth
    have hown := h e (mem_preorder_self e)
    have hchildren : ∀ c ∈ e.children, c.Counted := fun c hc => h.of_mem_children hc
    obtain ⟨own, elements⟩ := e
    rw [toJson_eq] at hdepth ⊢
    obtain ⟨inner, rfl, hfields⟩ := Json.depth_object_le hdepth
    refine Json.fits_object (fits_fields hown fun es hes => ?_)
    obtain rfl := hes
    have hfield := hfields ("elements", .array (es.map toJson))
      (by simp [fields, commonFields, fieldOf])
    obtain ⟨deeper, rfl, hitems⟩ := Json.depth_array_le hfield
    refine Json.fits_array (List.forall_mem_map.mpr fun e he => ?_)
    exact ih e he (hchildren e he) deeper (hitems _ (List.mem_map_of_mem he))

end Element

/-! ### What documents are read from -/

theorem CanvasRect.of_read {c : CanvasRect Float} (hv : v.Fits levels) (h : read v = .ok c) :
    (∀ x ∈ c.reals, x.isFinite = true) ∧ 1 ≤ levels := by
  obtain ⟨inner, r, rfl, hr, hbody⟩ := Json.of_readRecord hv h
  simp only [Parts.seq_eq_all, Parts.map_eq_all] at hbody
  obtain ⟨_, height, ⟨_, width, ⟨_, y, ⟨x, hx, rfl⟩, hy, rfl⟩, hwidth, rfl⟩, hheight, rfl⟩ := hbody
  simp only [reals, List.forall_mem_append, List.forall_mem_cons, Option.mem_toList]
  exact ⟨⟨⟨hr.finite_optional hx, hr.finite_optional hy⟩, hr.finite_required hwidth,
    hr.finite_required hheight, List.forall_mem_nil _⟩, Nat.le_add_left ..⟩

theorem CanvasRect.fits (c : CanvasRect Float) : (Source.ofJson c.toJson).Fits (levels + 1) := by
  refine Json.fits_object ?_
  simp only [List.forall_mem_append, List.forall_mem_cons]
  exact ⟨⟨Json.fits_realField _, Json.fits_realField _⟩, Json.fits_ofReal _, Json.fits_ofReal _,
    List.forall_mem_nil _⟩

theorem Canvas.of_read {c : Canvas Float} (hv : v.Fits levels) (h : read v = .ok c) :
    (∀ x ∈ c.reals, x.isFinite = true) ∧ 2 ≤ levels := by
  obtain ⟨inner, r, rfl, hr, hbody⟩ := Json.of_readRecord hv h
  simp only [Parts.seq_eq_all, Parts.map_eq_all] at hbody
  obtain ⟨_, base, ⟨_, size, ⟨image, himage, rfl⟩, hsize, rfl⟩, hbase, rfl⟩ := hbody
  obtain ⟨imageValue, himageFits, himage⟩ := hr.of_required himage
  obtain ⟨sizeValue, hsizeFits, hsize⟩ := hr.of_required hsize
  obtain ⟨baseValue, hbaseFits, hbase⟩ := hr.of_required hbase
  simp only [reals, List.forall_mem_append]
  exact ⟨⟨⟨(CanvasRect.of_read himageFits himage).1, (CanvasRect.of_read hsizeFits hsize).1⟩,
    (CanvasRect.of_read hbaseFits hbase).1⟩,
    Nat.succ_le_succ (CanvasRect.of_read hbaseFits hbase).2⟩

theorem Canvas.fits (c : Canvas Float) : (Source.ofJson c.toJson).Fits (levels + 2) := by
  refine Json.fits_object ?_
  simp only [List.forall_mem_cons]
  exact ⟨c.image.fits, c.size.fits, c.base.fits, List.forall_mem_nil _⟩

namespace Document

theorem fits_of_root {d : Document Float}
    (hroot : (Source.ofJson d.root.toJson).Fits (levels + 3)) :
    (Source.ofJson d.toJson).Fits (levels + 4) := by
  refine Json.fits_object (List.forall_mem_cons.mpr ⟨?_, List.forall_mem_singleton.mpr hroot⟩)
  exact Json.fits_object (List.forall_mem_cons.mpr ⟨.text _,
    List.forall_mem_singleton.mpr d.canvas.fits⟩)

/-- What is read of a document can be written, and then it fits where it was read from. -/
theorem of_read {d : Document Float} (hv : v.Fits levels) (h : read v = .ok d) :
    d.Writable ∧ (Source.ofJson d.toJson).Fits levels := by
  obtain ⟨inner, r, rfl, hr, hbody⟩ := Json.of_readRecord hv h
  simp only [Parts.seq_eq_all, Parts.map_eq_all] at hbody
  obtain ⟨_, root, ⟨⟨version, canvas⟩, hinfo, rfl⟩, hroot, rfl⟩ := hbody
  obtain ⟨infoValue, hinfoFits, hinfo⟩ := hr.of_required hinfo
  obtain ⟨rootValue, hrootFits, hroot⟩ := hr.of_required hroot
  obtain ⟨deeper, info, rfl, hinfoAll, hinfoBody⟩ := Json.of_readRecord hinfoFits hinfo
  simp only [Parts.seq_eq_all, Parts.map_eq_all] at hinfoBody
  obtain ⟨_, canvas, ⟨version, -, rfl⟩, hcanvas, heq⟩ := hinfoBody
  cases heq
  obtain ⟨canvasValue, hcanvasFits, hcanvas⟩ := hinfoAll.of_required hcanvas
  obtain ⟨hfinite, hdeep⟩ := Canvas.of_read hcanvasFits hcanvas
  obtain ⟨hwritable, hfits⟩ := Element.of_readWithin _ hrootFits hroot
  obtain ⟨rest, rfl⟩ := Nat.exists_eq_add_of_le' hdeep
  exact ⟨⟨hfinite, hwritable⟩, fits_of_root hfits⟩

theorem printable {d : Document Float} (h : d.root.Counted) : d.toJson.Printable := by
  intro levels hdepth
  obtain ⟨inner, rfl, hfields⟩ := Json.depth_object_le hdepth
  rw [List.forall_mem_cons, List.forall_mem_singleton] at hfields
  obtain ⟨hinfo, hroot⟩ := hfields
  obtain ⟨_, rfl, hcanvas⟩ := Json.depth_object_le hinfo
  obtain ⟨_, rfl, hbase⟩ := Json.depth_object_le (hcanvas ("canvas", d.canvas.toJson) (by simp))
  obtain ⟨_, rfl, -⟩ := Json.depth_object_le (hbase ("base", d.canvas.base.toJson) (by simp))
  exact fits_of_root (h.printable _ hroot)

end Document
end DesignLayout
