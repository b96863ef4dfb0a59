import DesignLayout.Proofs.Pictures
import DesignLayout.Proofs.Scaling

/-! What an export has to do with its scale.

A compiler follows another one when its scene is that of the other one, displaced as a whole, and
its scale is `k` times as large. Then it makes the same elements with all numbers `k` times as
large, asks for the same pictures in the same order and reports the same (`transfers_roots`): a
relation between the two runs that every stage of the compiler keeps, from the request of one
picture up to a list of roots. In particular an export at some scale is the export at scale 1, with
all its numbers times that scale (`export_scaled`). -/
namespace DesignLayout

/-! ### Computations that go alike -/

namespace Compile
variable {α β γ β' γ' : Type}

/-- From a ledger under `g` the second computation comes to the ledger of the first one under `g`,
with its result under `f`. -/
def Transfers (g : Ledger α → Ledger α) (f : β → γ) (x : Compile α β) (y : Compile α γ) : Prop :=
  ∀ l, y.run (g l) = (f (x.run l).1, g (x.run l).2)

variable {g : Ledger α → Ledger α}

theorem Transfers.pure {f : β → γ} {b : β} {c : γ} (h : c = f b) :
    Transfers g f (Pure.pure b) (Pure.pure c) :=
  fun _ => Prod.ext h rfl

theorem Transfers.bind {f : β → γ} {f' : β' → γ'} {x : Compile α β} {y : Compile α γ}
    {k : β → Compile α β'} {k' : γ → Compile α γ'} (h : Transfers g f x y)
    (hk : ∀ b, Transfers g f' (k b) (k' (f b))) : Transfers g f' (x >>= k) (y >>= k') := by
  intro l
  rw [run_bind, run_bind, h l]
  exact hk _ _

theorem Transfers.some {f : β → γ} {x : Compile α β} {y : Compile α γ} (h : Transfers g f x y) :
    Transfers g (Option.map f) (Option.some <$> x) (Option.some <$> y) := by
  intro l
  rw [run_map, run_map, h l]
  rfl

theorem transfers_report (f : α → α) (d : Diagnostic) :
    Transfers (Ledger.mapScales f) id (report d) (report d) :=
  fun _ => rfl

end Compile

/-! ### The compiler -/

/-- The compiler of the displaced scene at a scale `k` times as large, which has found out the same
parameters. Its requests have scales that are given by `f`. -/
structure Compiler.Follows (dx dy k : ℚ) (f : ℚ → ℚ) (c c' : Compiler ℚ) : Prop where
  scene : c'.scene = c.scene.displaced dx dy
  options : c'.context.options = c.context.options
  scale : c'.context.scale = c.context.scale * k
  request : c'.context.scale = f c.context.scale
  parameter? : ∀ id, c'.measurements.parameter? id = c.measurements.parameter? id

def Target.displaced (dx dy : ℚ) (t : Target ℚ) : Target ℚ :=
  { t with root := t.root.displaced dx dy }

namespace Compiler
open Compile Element

theorem run_picture {α : Type} [Scalar α] (c : Compiler α) (t : Target α) (id : NodeId)
    (n : Node α) (name : String) (l : Ledger α) :
    (c.picture t id n name).run l =
      let (file, manifest) := l.manifest.register id n.guid
        (((c.scene.parentOf? n).map (·.name)).getD "") name t.folder c.context.scale
      (.mk (framed (.image file) name (c.frame t n)) none, { l with manifest }) := rfl

variable {dx dy k : ℚ} {f : ℚ → ℚ} {c c' : Compiler ℚ}

section
variable (h : c.Follows dx dy k f c')
include h

theorem Follows.label (n : Node ℚ) : c'.label (n.displaced dx dy) = c.label n := by
  rw [Compiler.label, Compiler.label, h.scene, h.options, Scene.label_displaced]

theorem Follows.frame (t : Target ℚ) (n : Node ℚ) :
    c'.frame (t.displaced dx dy) (n.displaced dx dy) = (c.frame t n).scaled k := by
  rw [Compiler.frame, Compiler.frame, h.scale]
  exact Frame.inRoot_displaced dx dy n t.root c.context.scale

theorem Follows.cellOffset (n : Node ℚ) :
    c'.cellOffset (n.displaced dx dy) = c.cellOffset n := by
  have hcell : n.children.head?.bind c'.scene.node? =
      (n.children.head?.bind c.scene.node?).map (Node.displaced dx dy) := by
    rw [h.scene]
    cases n.children.head? with
    | none => rfl
    | some id => exact Scene.node?_displaced dx dy c.scene id
  unfold Compiler.cellOffset
  rw [Node.children_displaced, hcell]
  cases n.children.head?.bind c.scene.node? with
  | none => rfl
  | some cell =>
    simp only [Option.map_some, Node.displaced, Bounds.moved, add_sub_add_right_eq_sub]

theorem Follows.withParameter (id : NodeId) (e : Element ℚ) :
    c'.withParameter id (e.scaled k) = (c.withParameter id e).scaled k := by
  unfold Compiler.withParameter
  rw [h.options, h.parameter?]
  split
  · cases c.measurements.parameter? id with
    | none => rfl
    | some p =>
      have htaken : (e.setOwn ({ · with
            pivot := p.pivot, stretchX := p.stretchX, stretchY := p.stretchY })).scaled k =
          (e.scaled k).setOwn ({ · with
            pivot := p.pivot, stretchX := p.stretchX, stretchY := p.stretchY }) :=
        mapOwn_setOwn rfl
      exact htaken.symm
  · rfl

theorem transfers_picture (t : Target ℚ) (id : NodeId) (n : Node ℚ) (name : String) :
    Transfers (Ledger.mapScales f) (scaled k) (c.picture t id n name)
      (c'.picture (t.displaced dx dy) id (n.displaced dx dy) name) := by
  intro l
  have hparent : (c'.scene.parentOf? (n.displaced dx dy)).map (·.name) =
      (c.scene.parentOf? n).map (·.name) := by
    rw [h.scene, Scene.parentOf?_displaced, Option.map_map]
    rfl
  rw [run_picture, run_picture, hparent, h.request, h.frame]
  have hregister := l.manifest.register_mapScales f id n.guid
    (((c.scene.parentOf? n).map (·.name)).getD "") name t.folder c.context.scale
  simp only [Ledger.mapScales, Node.displaced, Target.displaced, hregister]
  rfl

section
variable {below below' : Compile ℚ (List (Element ℚ))}
  (hbelow : Transfers (Ledger.mapScales f) (List.map (scaled k)) below below')
include hbelow

/-- A container takes its size from the draw bounds alone. -/
theorem transfers_container (kind : ElementKind ℚ) (hkind : kind.scaled k = kind) (n : Node ℚ)
    (name : String) :
    Transfers (Ledger.mapScales f) (scaled k) (c.container kind n name below)
      (c'.container kind (n.displaced dx dy) name below') := by
  refine hbelow.bind fun es => .pure ?_
  have hsize (x : ℚ) : x * c'.context.scale = x * c.context.scale * k := by
    rw [h.scale, mul_assoc]
  rw [scaled_sized, hkind]
  simp only [Bounds.scaled, Node.displaced, Bounds.moved, hsize]
  rfl

theorem transfers_scroller (hk : 0 < k) (t : Target ℚ) (n : Node ℚ) (name : String) :
    Transfers (Ledger.mapScales f) (scaled k) (c.scroller t n name below)
      (c'.scroller (t.displaced dx dy) (n.displaced dx dy) name below') := by
  refine hbelow.bind fun es => ?_
  dsimp only
  rw [hasArea_scaled, h.frame, Node.kind_displaced, Node.grid_displaced]
  split
  · exact .pure (scaled_framed (.scroller { scroll := .vertical }) name _ (some es)).symm
  · split
    · rename_i grid _ _
      have hscroller := grid.scroller_scaled hk (c.cellOffset n) (c.frame t n).w c.context.scale es
      rw [← h.scale, ← h.cellOffset] at hscroller
      refine .pure ?_
      rw [scaled_framed]
      show Element.mk (framed (.scroller (grid.scroller _ ((c.frame t n).w * k) _ _).1) _ _)
        (some (grid.scroller _ ((c.frame t n).w * k) _ _).2) = _
      rw [hscroller, h.cellOffset]
      rfl
    · exact (transfers_report f _).bind fun _ => .pure (scaled_sized .group name _ _ (some es)).symm

theorem transfers_group (hk : 0 < k) (t : Target ℚ) (id : NodeId) (n : Node ℚ) (l : Label) :
    Transfers (Ledger.mapScales f) (scaled k) (c.group t id n l below)
      (c'.group (t.displaced dx dy) id (n.displaced dx dy) l below') := by
  have hcontainer (kind : ElementKind ℚ) (hkind : kind.scaled k = kind) :=
    transfers_container h hbelow kind hkind n l.name
  unfold group
  dsimp only
  rw [h.options]
  split
  · exact transfers_picture h t id n l.name
  · split
    · refine (hcontainer _ rfl).bind fun e => ?_
      rw [child?_scaled, Option.isNone_map]
      split
      · exact (transfers_report f _).bind fun _ => .pure rfl
      · exact .pure rfl
    · rename_i kind _ hkind
      exact hcontainer kind (scaled_containerKind? hkind)
    · split
      · exact transfers_scroller h hbelow hk t n l.name
      · exact hcontainer .group rfl

end

theorem transfers_text (t : Target ℚ) (id : NodeId) (n : Node ℚ) (l : Label) :
    Transfers (Ledger.mapScales f) (scaled k) (c.text t id n l)
      (c'.text (t.displaced dx dy) id (n.displaced dx dy) l) := by
  have hwritten : c'.writtenText? (n.displaced dx dy) l.directives =
      c.writtenText? n l.directives := by
    rw [writtenText?, writtenText?, h.options, Node.text_displaced]
  unfold text
  rw [hwritten]
  cases c.writtenText? n l.directives with
  | none => exact transfers_picture h t id n l.name
  | some attributes =>
    have hcontent (height : ℚ) : c'.textContent attributes (height * k) =
        (c.textContent attributes height).scaled k := by
      rw [textContent, textContent, h.scale, ← mul_assoc]
      rfl
    dsimp only
    rw [h.frame, h.options]
    refine .pure ?_
    rw [scaled_framed, Frame.scaled, hcontent]
    split
    · rfl
    · split <;> rfl

/-- The element of a node is scaled when those below it are. -/
theorem transfers_node (hk : 0 < k) {below below' : Compile ℚ (List (Element ℚ))}
    (hbelow : Transfers (Ledger.mapScales f) (List.map (scaled k)) below below') (t : Target ℚ)
    (id : NodeId) (n : Node ℚ) (l : Label) :
    Transfers (Ledger.mapScales f) (Option.map (scaled k)) (c.node t id n l below)
      (c'.node (t.displaced dx dy) id (n.displaced dx dy) l below') := by
  have hpicture := transfers_picture h t id n l.name
  have hgroup := (transfers_group h hbelow hk t id n l).some
  have hempty (es : List (Element ℚ)) : (es.map (scaled k)).isEmpty = es.isEmpty := by simp
  have hshape : Transfers (Ledger.mapScales f) (Option.map (scaled k))
      (do
        let picture ← c.picture t id n l.name
        let elements ← below
        return some (if elements.isEmpty then picture else .mk picture.own (some elements)))
      (do
        let picture ← c'.picture (t.displaced dx dy) id (n.displaced dx dy) l.name
        let elements ← below'
        return some (if elements.isEmpty then picture else .mk picture.own (some elements))) := by
    refine hpicture.bind fun picture => hbelow.bind fun es => .pure ?_
    rw [hempty]
    split
    · rfl
    · rw [Option.map_some, scaled, mapOwn_mk, own_mapOwn]
      rfl
  unfold node
  rw [Node.kind_displaced]
  split
  · refine hbelow.bind fun es => .pure ?_
    rw [Option.map_some, scaled, mapOwn_mk]
    rfl
  · exact hpicture.some
  · exact hgroup
  · exact hgroup
  · exact hgroup
  · exact hshape
  · exact hshape
  · exact hshape
  · exact hshape
  · exact (transfers_text h t id n l).some
  · refine (transfers_report f _).bind fun _ => hbelow.bind fun es => .pure ?_
    rw [hempty]
    split
    · rfl
    · rw [Option.map_some, scaled, mapOwn_mk]
      rfl

end

mutual

/-- A displaced branch is compiled to the scaled element. -/
theorem transfers_branch (h : c.Follows dx dy k f c') (hk : 0 < k) (t : Target ℚ) (inner : Bool) :
    ∀ b, Transfers (Ledger.mapScales f) (Option.map (scaled k)) (c.branch t inner b)
      (c'.branch (t.displaced dx dy) inner (b.displaced dx dy))
  | .mk id n children => by
    have hnode := transfers_node h hk (transfers_branchesBackward h hk t children) t id n (c.label n)
    have homits : c'.omits inner (c.label n) = c.omits inner (c.label n) := by
      rw [omits, omits, h.options]
    rw [Branch.displaced, branch, branch, h.label, homits]
    split
    · exact .pure rfl
    · refine hnode.bind fun e? => .pure ?_
      rw [Option.map_map, Option.map_map]
      exact Option.map_congr fun e _ => h.withParameter id e

theorem transfers_branchesBackward (h : c.Follows dx dy k f c') (hk : 0 < k) (t : Target ℚ) :
    ∀ bs, Transfers (Ledger.mapScales f) (List.map (scaled k)) (c.branchesBackward t bs)
      (c'.branchesBackward (t.displaced dx dy) (Branch.displacedAll dx dy bs))
  | [] => .pure rfl
  | b :: rest => by
    rw [Branch.displacedAll, branchesBackward, branchesBackward]
    refine (transfers_branchesBackward h hk t rest).bind fun later =>
      (transfers_branch h hk t true b).bind fun own => .pure ?_
    rw [List.map_append]
    cases own <;> rfl

end

theorem transfers_root (h : c.Follows dx dy k f c') (hk : 0 < k) (b : Branch ℚ) :
    Transfers (Ledger.mapScales f) (CompiledRoot.scaled k) (c.root b)
      (c'.root (b.displaced dx dy)) := by
  unfold root
  dsimp only
  rw [Branch.node_displaced, Branch.id_displaced, h.label]
  refine (transfers_branch h hk _ false b).bind fun e? => .pure ?_
  have hroot : (e?.map (scaled k)).getD (emptyRoot (c.label b.node).name) =
      (e?.getD (emptyRoot (c.label b.node).name)).scaled k := by
    cases e? <;> rfl
  rw [hroot, h.scene, Scene.parentOf?_displaced, h.scale, Document.ofRoot_displaced]
  rfl

theorem transfers_roots (h : c.Follows dx dy k f c') (hk : 0 < k) (bs : List (Branch ℚ)) :
    Transfers (Ledger.mapScales f) (List.map (CompiledRoot.scaled k)) (c.roots bs)
      (c'.roots (bs.map (Branch.displaced dx dy))) := by
  induction bs with
  | nil => exact .pure rfl
  | cons b rest ih =>
    exact (transfers_root h hk b).bind fun r => ih.bind fun rs => .pure rfl

end Compiler

/-! ### A whole export -/

namespace Export

/-- The export with all numbers of its documents times `s`, its pictures asked for at scale `s`. -/
def scaled (s : ℚ) (e : Export ℚ) : Export ℚ :=
  { e with
    roots := e.roots.map (CompiledRoot.scaled s)
    manifest := e.manifest.mapScales fun _ => s }

theorem compile_follows {dx dy k : ℚ} {f : ℚ → ℚ} {s s' : Scene ℚ} {context context' : Context ℚ}
    {m m' : Measurements ℚ}
    (h : Compiler.Follows dx dy k f ⟨s, context, m⟩ ⟨s', context', m'⟩) (hk : 0 < k) (r : Roots) :
    compile s' context' m' r =
      { roots := (compile s context m r).roots.map (CompiledRoot.scaled k)
        manifest := (compile s context m r).manifest.mapScales f
        measurements := m'
        diagnostics := (compile s context m r).diagnostics
        drift := m'.drift? } := by
  have hroots := Compiler.transfers_roots h hk (s.branches r.ids) Ledger.empty
  have hscene : s' = s.displaced dx dy := h.scene
  rw [← Scene.branches_displaced, ← hscene] at hroots
  have hempty : (Ledger.empty : Ledger ℚ).mapScales f = Ledger.empty := rfl
  rw [hempty] at hroots
  simp only [compile, hroots]
  rfl

theorem follows_scale (scene : Scene ℚ) (context : Context ℚ) (m : Measurements ℚ) (s : ℚ) :
    Compiler.Follows 0 0 s (fun _ => s) ⟨scene, { context with scale := 1 }, m⟩
      ⟨scene, { context with scale := s }, m⟩ where
  scene := scene.displaced_zero.symm
  options := rfl
  scale := (one_mul s).symm
  request := rfl
  parameter? _ := rfl

/-- For every document, selection, context and positive scale: an export fails with the same error
as at scale 1, or leaves the same document behind and gives the same export, except that all
numbers of its documents are times the scale and its pictures are asked for at the scale. -/
theorem export_scaled {δ : Type} [Host δ ℚ] (doc : δ) (selection : List NodeId)
    (context : Context ℚ) {s : ℚ} (hs : 0 < s) :
    ofSelection doc selection { context with scale := s } =
      (ofSelection doc selection { context with scale := 1 }).map fun p => (p.1, p.2.scaled s) := by
  cases hr : Roots.find (Host.scene doc) selection context.options with
  | error e =>
    have herror (s : ℚ) : ofSelection doc selection { context with scale := s } = .error e :=
      ofSelection_of_error hr
    rw [herror s, herror 1]
    rfl
  | ok r =>
    -- The probe does not know the scale.
    have hok (s : ℚ) : ofSelection doc selection { context with scale := s } =
        .ok ((measure doc context r).1, compile (Host.scene (measure doc context r).1)
          { context with scale := s } (measure doc context r).2 r) :=
      ofSelection_of_find hr
    rw [hok s, hok 1, compile_follows (follows_scale _ context _ s) hs]
    rfl

/-- A shelf of two cells with a price in them. -/
def priceShelf : ElasticScene ℚ :=
  let board : ElasticScene ℚ := ElasticScene.empty.insert none
    { name := "Board", kind := .artboard, bounds := ⟨1000, 500, 400, 300⟩ }
  let shelf := board.insert (some 0)
    { name := "ShopScroller", kind := .repeatGrid, bounds := ⟨1010, 510, 380, 100⟩,
      grid := some ⟨1, 2, 100, 80, 10, 5⟩ }
  (shelf.insert (some 1)
    { name := "cell", kind := .group, bounds := ⟨1020, 520, 100, 80⟩ }).insert (some 2)
    { name := "PriceText", kind := .text, bounds := ⟨1030, 530, 60, 15⟩,
      text := some { content := "9.99", fontFamily := "Lato", fontSize := 12 } }

/-- An unscaled export, also of what is not marked. -/
def exactContext : Context ℚ :=
  { scale := 1, folder := "out", options := { onlyMarked := false },
    thresholds := ⟨100, 100, 3 / 5, 1⟩ }

/-- The places and widths of an export's elements. -/
def placements (e : Export ℚ) : List (String × Option ℚ × Option ℚ) :=
  e.roots.flatMap fun r => r.document.root.preorder.map fun x => (x.name, x.own.x, x.own.w)

theorem priceShelf_doubled :
    (ofSelection priceShelf [] { exactContext with scale := 1 }).toOption.map (placements ·.2) =
      some [("Board", none, none), ("ShopScroller", some (-190), some 380),
        ("item0", none, some 100), ("PriceText", some (-170), some 60)] ∧
    ofSelection priceShelf [] { exactContext with scale := 2 } =
      (ofSelection priceShelf [] { exactContext with scale := 1 }).map fun p =>
        (p.1, p.2.scaled 2) :=
  ⟨by decide +kernel, export_scaled priceShelf [] exactContext (by decide)⟩

end Export
end DesignLayout
