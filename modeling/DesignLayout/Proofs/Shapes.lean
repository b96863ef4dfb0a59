import DesignLayout.Proofs.Anchoring

/-! Which fields an element has.

The type of an element decides which of its fields are there: `WellShaped` says how, for the
attributes and for the list of what is within. Every form that the compiler gives an element is well
shaped when the elements below it are (`Made.wellShaped`), and so is what a scroller of a repeated
grid makes of its cells (`wellShaped_template`, `wellShaped_pinned`). So every element of every
document of an export is well shaped (`Export.wellShaped_documents`). -/
namespace DesignLayout

variable {α : Type}

/-- The types that always carry a list of elements. -/
def ElementKind.isContainer : ElementKind α → Bool
  | root _ | group | button | slider | scrollbar | toggle | list _ | scroller _ => true
  | image _ | text _ | richText _ | input _ => false

theorem ElementKind.isContainer_eq (kind : ElementKind α) :
    kind.isContainer = !kind.isDrawn := by
  cases kind <;> rfl

def ElementKind.isImage : ElementKind α → Bool
  | image _ => true
  | _ => false

/-- The types that are written as text. -/
def ElementKind.isWritten : ElementKind α → Bool
  | text _ | richText _ | input _ => true
  | _ => false

/-- The types that have a place on the canvas. -/
def ElementKind.isPlaced : ElementKind α → Bool
  | image _ | text _ | richText _ | input _ | scroller _ => true
  | _ => false

/-- A scroller has its padding and spacing in full, or not at all and scrolls vertically. -/
inductive ScrollerLayout.Whole : ScrollerLayout α → Prop
  | padded (scroll : ScrollDirection) (left right top spacing : α) :
      Whole ⟨scroll, some left, some right, some top, some spacing⟩
  | bare : Whole ⟨.vertical, none, none, none, none⟩

structure Attributes.WellShaped (a : Attributes α) : Prop where
  placed : a.kind.isPlaced = true → a.x.isSome ∧ a.y.isSome ∧ a.opacity = some 100
  unplaced : a.kind.isPlaced = false → a.x = none ∧ a.y = none ∧ a.opacity = none
  size : a.w.isSome = a.h.isSome
  place_has_size : a.x.isSome = true → a.w.isSome
  pivot : ∀ p ∈ a.pivot, p.isEmpty = false
  list : ∀ scroll, a.kind = .list scroll → scroll = .vertical
  scroller : ∀ layout, a.kind = .scroller layout → layout.Whole

structure Element.WellShaped (e : Element α) : Prop where
  own : e.own.WellShaped
  container : e.own.kind.isContainer = true → e.elements.isSome
  written : e.own.kind.isWritten = true → e.elements = none
  image : e.own.kind.isImage = true → e.elements ≠ some []
  area : ∀ layout, e.own.kind = .scroller layout → layout.paddingLeft = none →
    ∃ x ∈ e.children, x.name = areaName

/-! ### Attributes -/

namespace Attributes

/-- Names, stretching and pivots may be set at will, but for pivots without any axis. -/
theorem WellShaped.of_eq {a a' : Attributes α} (h : a.WellShaped) (hkind : a'.kind = a.kind)
    (hplace : a'.x = a.x ∧ a'.y = a.y ∧ a'.opacity = a.opacity) (hsize : a'.w = a.w ∧ a'.h = a.h)
    (hpivot : ∀ p ∈ a'.pivot, p.isEmpty = false) : a'.WellShaped := by
  obtain ⟨hx, hy, hopacity⟩ := hplace
  obtain ⟨hw, hh⟩ := hsize
  constructor
  · rw [hkind, hx, hy, hopacity]
    exact h.placed
  · rw [hkind, hx, hy, hopacity]
    exact h.unplaced
  · rw [hw, hh]
    exact h.size
  · rw [hx, hw]
    exact h.place_has_size
  · exact hpivot
  · rw [hkind]
    exact h.list
  · rw [hkind]
    exact h.scroller

theorem wellShaped_framed {kind : ElementKind α} (hplaced : kind.isPlaced = true)
    (hscroller : ∀ layout, kind = .scroller layout → layout.Whole) (name : String) (f : Frame α) :
    (Compiler.framed kind name f).WellShaped where
  placed _ := ⟨rfl, rfl, rfl⟩
  unplaced h := by
    change kind.isPlaced = false at h
    simp [hplaced] at h
  size := rfl
  place_has_size _ := rfl
  pivot _ hp := by cases hp
  list scroll h := by
    change kind = .list scroll at h
    simp [h, ElementKind.isPlaced] at hplaced
  scroller := hscroller

/-- What is neither placed nor a scroller has a size or not. -/
theorem wellShaped_unplaced {kind : ElementKind α} (hplaced : kind.isPlaced = false)
    (hlist : kind ≠ .list .horizontal) (name : String) (size : Option (α × α)) :
    ({ kind, name, w := size.map (·.1), h := size.map (·.2) } : Attributes α).WellShaped where
  placed h := by
    change kind.isPlaced = true at h
    simp [hplaced] at h
  unplaced _ := ⟨rfl, rfl, rfl⟩
  size := by simp
  place_has_size h := by cases h
  pivot _ hp := by cases hp
  list scroll h := by
    change kind = .list scroll at h
    cases scroll
    · rfl
    · exact absurd h hlist
  scroller layout h := by
    change kind = .scroller layout at h
    simp [h, ElementKind.isPlaced] at hplaced

end Attributes

/-! ### Elements -/

namespace Element

/-- The element and all elements within it are well shaped. -/
def AllShaped (e : Element α) : Prop :=
  ∀ x ∈ e.preorder, x.WellShaped

variable {e : Element α} {own : Attributes α} {es : List (Element α)}

theorem allShaped_iff : e.AllShaped ↔ e.WellShaped ∧ ∀ c ∈ e.children, c.AllShaped := by
  constructor
  · intro h
    refine ⟨h e (mem_preorder_self e), fun c hc x hx => h x ?_⟩
    exact mem_preorder.mpr (.inr ⟨c, hc, hx⟩)
  · rintro ⟨hown, hwithin⟩ x hx
    rcases mem_preorder.mp hx with rfl | ⟨c, hc, hx⟩
    · exact hown
    · exact hwithin c hc x hx

theorem AllShaped.setOwn {f : Attributes α → Attributes α} (h : e.AllShaped)
    (hkind : (f e.own).kind = e.own.kind) (hown : (f e.own).WellShaped) :
    (e.setOwn f).AllShaped := by
  obtain ⟨⟨_, hcontainer, hwritten, himage, harea⟩, hwithin⟩ := allShaped_iff.mp h
  rw [← hkind] at hcontainer hwritten himage harea
  cases e
  exact allShaped_iff.mpr ⟨⟨hown, hcontainer, hwritten, himage, harea⟩, hwithin⟩

theorem AllShaped.rename (h : e.AllShaped) (name : String) : (e.rename name).AllShaped := by
  have hown := (allShaped_iff.mp h).1.own
  exact h.setOwn rfl (hown.of_eq rfl ⟨rfl, rfl, rfl⟩ ⟨rfl, rfl⟩ hown.pivot)

theorem AllShaped.setPivot (h : e.AllShaped) {p : Pivot} (hp : p.isEmpty = false) :
    (e.setPivot (some p)).AllShaped := by
  have hown := (allShaped_iff.mp h).1.own
  refine h.setOwn rfl (hown.of_eq rfl ⟨rfl, rfl, rfl⟩ ⟨rfl, rfl⟩ ?_)
  rintro q ⟨⟩
  exact hp

/-- An element that is no scroller and carries a list. -/
theorem allShaped_unplaced (hown : own.WellShaped) (hplaced : own.kind.isPlaced = false)
    (hes : ∀ c ∈ es, c.AllShaped) : (mk own (some es)).AllShaped := by
  refine allShaped_iff.mpr ⟨⟨hown, fun _ => rfl, ?_, ?_, ?_⟩, hes⟩ <;> rw [own_mk]
  · intro h
    cases hkind : own.kind <;> simp [hkind, ElementKind.isPlaced, ElementKind.isWritten] at *
  · intro h
    cases hkind : own.kind <;> simp [hkind, ElementKind.isPlaced, ElementKind.isImage] at *
  · intro layout h
    simp [h, ElementKind.isPlaced] at hplaced

/-- A scroller without padding needs an area. -/
theorem allShaped_scroller {layout : ScrollerLayout α} (hwhole : layout.Whole)
    (harea : layout.paddingLeft = none → Compiler.hasArea es = true) (hes : ∀ c ∈ es, c.AllShaped)
    (name : String) (f : Frame α) :
    (mk (Compiler.framed (.scroller layout) name f) (some es)).AllShaped := by
  have hown : (Compiler.framed (.scroller layout) name f).WellShaped := by
    refine Attributes.wellShaped_framed rfl ?_ name f
    rintro _ ⟨⟩
    exact hwhole
  refine allShaped_iff.mpr ⟨⟨hown, fun _ => rfl, nofun, nofun, ?_⟩, hes⟩
  rintro _ ⟨⟩ hpadding
  simpa [Compiler.hasArea, children] using harea hpadding

end Element

namespace GridMetrics
open Element

variable {cells : List (Element α)}

/-- Pinning changes neither the names nor the number of what stands in an item. -/
theorem allShaped_pinned {item : Element α} (h : item.AllShaped) : (pinned item).AllShaped := by
  obtain ⟨⟨hown, hcontainer, hwritten, himage, harea⟩, hwithin⟩ := allShaped_iff.mp h
  rcases item with ⟨own, _ | es⟩
  · exact h
  · refine allShaped_iff.mpr ⟨⟨hown, fun _ => rfl, ?_, ?_, ?_⟩, ?_⟩
    · intro h
      cases hwritten h
    · intro h
      simpa [pinned] using himage h
    · intro layout hlayout hpadding
      obtain ⟨x, hx, hname⟩ := harea layout hlayout hpadding
      exact ⟨_, List.mem_map_of_mem hx, by simpa [name, setPivot] using hname⟩
    · intro c hc
      obtain ⟨x, hx, rfl⟩ := List.mem_map.mp hc
      exact (hwithin x hx).setPivot rfl

theorem allShaped_columnTemplate (h : ∀ c ∈ cells, c.AllShaped) :
    ∀ it ∈ columnTemplate cells, it.AllShaped := by
  unfold columnTemplate
  split
  · simp
  · rename_i first rest
    have hfirst := h first List.mem_cons_self
    split
    · simpa using hfirst
    · intro it hit
      exact (allShaped_iff.mp hfirst).2 it (List.mem_of_mem_filter hit)

theorem allShaped_rowTemplate (h : ∀ c ∈ cells, c.AllShaped) (columns : Nat) :
    (rowTemplate columns cells).AllShaped := by
  refine allShaped_unplaced (Attributes.wellShaped_unplaced rfl (by simp) _ none) rfl fun c hc => ?_
  obtain ⟨i, hi, rfl⟩ := List.mem_mapIdx.mp hc
  exact (h _ (List.mem_of_mem_take (List.getElem_mem hi))).rename _

theorem allShaped_template (g : GridMetrics α) (h : ∀ c ∈ cells, c.AllShaped) :
    ∀ it ∈ (g.template cells).2, it.AllShaped := by
  unfold template
  split
  · exact allShaped_columnTemplate h
  · split
    · exact fun it hit => h it (List.mem_of_mem_take hit)
    · simpa using allShaped_rowTemplate h g.columns

end GridMetrics

/-! ### Compiling a branch -/

theorem Parameter.isEmpty_of_derive [Scalar α] {t : Thresholds α}
    {before after parentBefore parentAfter : Bounds α} {p : Pivot}
    (hp : p ∈ (derive t before after parentBefore parentAfter).pivot) : p.isEmpty = false := by
  unfold derive at hp
  extract_lets horizontal vertical stretchX stretchY pivot at hp
  change p ∈ (if pivot.isEmpty then none else some pivot) at hp
  split at hp
  · cases hp
  · rename_i hempty
    obtain rfl := Option.some.inj hp
    simpa using hempty

namespace Compiler
open Element

variable [Scalar α] {c : Compiler α} {t : Target α} {n : Node α} {l : Label}
  {es : List (Element α)} {e? : Option (Element α)}

/-- What is made of well shaped elements is well shaped. -/
theorem Made.allShaped (h : c.Made t n l es e?) (hes : ∀ x ∈ es, x.AllShaped) :
    ∀ e ∈ e?, e.AllShaped := by
  intro e he
  cases h with
  | board =>
    obtain rfl := Option.some.inj he
    exact allShaped_unplaced (Attributes.wellShaped_unplaced rfl (by simp) _ none) rfl hes
  | @whole _ kind hdrawn =>
    obtain rfl := Option.some.inj he
    have hown : (framed kind l.name (c.frame t n)).WellShaped := by
      refine Attributes.wellShaped_framed ?_ ?_ _ _
      · cases kind <;> first | rfl | cases hdrawn
      · rintro _ rfl
        cases hdrawn
    refine allShaped_iff.mpr ⟨⟨hown, ?_, fun _ => rfl, nofun, ?_⟩, nofun⟩
    · intro h
      change kind.isContainer = true at h
      simp [ElementKind.isContainer_eq, hdrawn] at h
    · rintro layout rfl
      cases hdrawn
  | shape _ file =>
    obtain rfl := Option.some.inj he
    have hown : (framed (.image file) l.name (c.frame t n)).WellShaped :=
      Attributes.wellShaped_framed rfl (by simp) _ _
    refine allShaped_iff.mpr ⟨⟨hown, nofun, nofun, fun _ => ?_, nofun⟩, ?_⟩
    · cases es <;> simp
    · cases es
      · simp [children]
      · simpa [children] using hes
  | @box _ _ kind hbox w h =>
    obtain rfl := Option.some.inj he
    have hplaced : kind.isPlaced = false := by cases kind <;> first | rfl | cases hbox
    have hlist : kind ≠ .list .horizontal := by
      rintro rfl
      cases hbox
    exact allShaped_unplaced (Attributes.wellShaped_unplaced hplaced hlist _ (some (w, h)))
      hplaced hes
  | viewport _ _ harea =>
    obtain rfl := Option.some.inj he
    exact allShaped_scroller .bare (fun _ => harea) hes _ _
  | @overGrid _ grid =>
    obtain rfl := Option.some.inj he
    refine allShaped_scroller (.padded ..) nofun (fun it hit => ?_) _ _
    obtain ⟨cell, hcell, rfl⟩ := List.mem_map.mp hit
    exact GridMetrics.allShaped_pinned (grid.allShaped_template hes cell hcell)
  | unknown =>
    split at he
    · cases he
    · obtain rfl := Option.some.inj he
      exact allShaped_unplaced (Attributes.wellShaped_unplaced rfl (by simp) _ none) rfl hes

theorem allShaped_withParameter {th : Thresholds α} (hm : c.measurements.Derived th) (id : NodeId)
    {e : Element α} (h : e.AllShaped) : (c.withParameter id e).AllShaped := by
  rcases c.withParameter_eq id e with heq | ⟨p, hp, heq⟩ <;> rw [heq]
  · exact h
  · obtain ⟨_, _, _, _, rfl⟩ := hm id p hp
    have hown := (allShaped_iff.mp h).1.own
    exact h.setOwn rfl
      (hown.of_eq rfl ⟨rfl, rfl, rfl⟩ ⟨rfl, rfl⟩ fun _ => Parameter.isEmpty_of_derive)

theorem closed_allShaped {th : Thresholds α} (hm : c.measurements.Derived th) (t : Target α) :
    c.Closed t (fun _ _ e? => ∀ e ∈ e?, e.AllShaped) (fun _ es => ∀ e ∈ es, e.AllShaped) where
  omitted _ e he := by cases he
  made {_ id _ _ _ _} _ hes hmade e he := by
    obtain ⟨made, hmem, rfl⟩ := Option.map_eq_some_iff.mp he
    exact allShaped_withParameter hm id (hmade.allShaped hes made hmem)
  nil := by simp
  cons hown hlater e he := by
    rcases List.mem_append.mp he with he | he
    · exact hlater e he
    · exact hown e (Option.mem_toList.mp he)

theorem allShaped_roots {th : Thresholds α} (hm : c.measurements.Derived th)
    (bs : List (Branch α)) :
    (c.roots bs).Yields fun rs => ∀ r ∈ rs, r.document.root.AllShaped := by
  refine yields_roots fun b _ l => ?_
  obtain ⟨e?, he, hroot⟩ := yields_root ((closed_allShaped hm _).yields_branch false b) l
  rw [hroot]
  cases e? with
  | none => exact allShaped_unplaced (Attributes.wellShaped_unplaced rfl (by simp) _ none) rfl nofun
  | some e => exact he e rfl

end Compiler

/-! ### A whole export -/

namespace Export
variable {δ : Type} [Scalar α] [Host δ α]

/-- For every document, selection and context for which an export succeeds, every element of each of
its documents has just the fields that its type calls for. -/
theorem wellShaped_documents {doc doc' : δ} {selection : List NodeId} {context : Context α}
    {e : Export α} (h : ofSelection doc selection context = .ok (doc', e)) :
    ∀ r ∈ e.roots, ∀ x ∈ r.document.root.preorder, x.WellShaped := by
  obtain ⟨_, -, -, he⟩ := ofSelection_eq_ok h
  intro r hr
  rw [he] at hr
  exact Compiler.allShaped_roots (c := ⟨Host.scene doc', context, e.measurements⟩)
    (derived_of_ofSelection h) _ _ r hr

/-- An artboard with a scroller around an area, one over a repeated grid, and a text. -/
def shelfBoard : ElasticScene Float :=
  (((((ElasticScene.empty.insert none
    { name := "Shelf", kind := .artboard, bounds := ⟨0.0, 0.0, 400.0, 300.0⟩ }).insert (some 0)
    { name := "PageScroller", kind := .group, bounds := ⟨0.0, 0.0, 400.0, 100.0⟩ }).insert (some 1)
    { name := "Area", kind := .rectangle, bounds := ⟨0.0, 0.0, 400.0, 100.0⟩,
      constraints := { horizontal := .stretch, vertical := .stretch } }).insert (some 0)
    { name := "ShopScroller", kind := .repeatGrid, bounds := ⟨0.0, 100.0, 400.0, 100.0⟩,
      grid := some ⟨1, 2, 200.0, 100.0, 0.0, 0.0⟩ }).insert (some 3)
    { name := "cell", kind := .symbolInstance,
      bounds := ⟨0.0, 100.0, 200.0, 100.0⟩ }).insert (some 0)
    { name := "nameText", kind := .text, bounds := ⟨0.0, 200.0, 400.0, 20.0⟩,
      text := some { content := "hello", fontFamily := "Sans", fontSize := 12.0 } }

theorem shelfBoard_wellShaped :
    ∃ after e, ofSelection shelfBoard [] wholeContext = .ok (after, e) ∧
      (e.roots.flatMap fun r => r.document.root.preorder.map fun x =>
        (x.own.kind.typeName, x.name)) =
        [("Root", "Shelf"), ("TextMeshPro", "nameText"), ("Scroller", "ShopScroller"),
          ("Group", "item0"), ("Scroller", "PageScroller"), ("Image", "Area")] ∧
      ∀ r ∈ e.roots, ∀ x ∈ r.document.root.preorder, x.WellShaped := by
  have hnames : (ofSelection shelfBoard [] wholeContext).toOption.map (fun p =>
      p.2.roots.flatMap fun r => r.document.root.preorder.map fun x =>
        (x.own.kind.typeName, x.name)) =
      some [("Root", "Shelf"), ("TextMeshPro", "nameText"), ("Scroller", "ShopScroller"),
        ("Group", "item0"), ("Scroller", "PageScroller"), ("Image", "Area")] := by
    decide +kernel
  obtain ⟨⟨after, e⟩, h, hnames⟩ := eq_ok_of_map_toOption hnames
  exact ⟨after, e, h, hnames, wellShaped_documents h⟩

end Export
end DesignLayout
