import DesignLayout.Proofs.Cutting
import DesignLayout.Proofs.Following

/-! Where the canvas of a board sits.

A canvas whose root is an artboard, or stands under nothing, is put at the origin. Afterwards it is
moved by the anchor of the root element, and that is not asked for the kind of the root: an artboard
within an artboard has an anchor when the outer one is probed after it
(`Measurements.isSome_parameter?_iff_of_root`). Only then can the canvas of a board be away from the
origin, and it is where that anchor puts it (`Export.board_canvas`). In `boardAndPopup` the outer
board is no root, and is probed for the sake of another one (`Export.inner_board_moved`). -/
namespace DesignLayout

variable {α : Type} [Scalar α]

/-! ### Canvases -/

namespace CanvasRect

/-- A canvas at the origin, with the scaled size of a node. -/
def atOrigin (n : Node α) (scale : α) : CanvasRect α :=
  ⟨some Scalar.zero, some Scalar.zero, n.bounds.width * scale, n.bounds.height * scale⟩

theorem ofRoot_eq_atOrigin {n : Node α} {parent : Option (Node α)}
    (h : n.kind = .artboard ∨ parent = none) (scale : α) :
    ofRoot n parent scale = atOrigin n scale := by
  cases parent with
  | none => rfl
  | some p =>
    have hkind : n.kind = .artboard := h.resolve_right nofun
    simp only [ofRoot, if_pos hkind]
    rfl

/-- Without a pivot a canvas stays where it is. -/
theorem anchored_none (base : CanvasRect α) (n : Node α) (parent : Option (Node α)) (scale : α) :
    base.anchored n parent scale none = base := by
  cases parent <;> rfl

/-- And so it does without a container. -/
theorem anchored_without_parent (base : CanvasRect α) (n : Node α) (scale : α)
    (pivot : Option Pivot) : base.anchored n none scale pivot = base := by
  cases pivot <;> rfl

/-- An anchor never changes the size of a canvas. -/
theorem size_anchored (base : CanvasRect α) (n : Node α) (parent : Option (Node α)) (scale : α)
    (pivot : Option Pivot) :
    (base.anchored n parent scale pivot).w = base.w ∧
      (base.anchored n parent scale pivot).h = base.h := by
  cases pivot with
  | none => rw [anchored_none]; exact ⟨rfl, rfl⟩
  | some p => cases parent <;> exact ⟨rfl, rfl⟩

end CanvasRect

/-! ### The pivot of a board -/

namespace Compiler
variable {c : Compiler α}

/-- A board takes over its pivot from the measurements, and has none of its own. -/
theorem exists_board {id : NodeId} {n : Node α} {children : List (Branch α)} {inner : Bool}
    (hkind : n.kind = .artboard) (homits : c.omits inner (c.label n) = false)
    (hresponsive : c.context.options.responsive = false → c.measurements.parameter? id = none)
    (t : Target α) (l : Ledger α) :
    ∃ e, ((c.branch t inner (.mk id n children)).run l).1 = some e ∧
      e.own.pivot = (c.measurements.parameter? id).bind (·.pivot) := by
  rw [branch]
  simp only [homits, Bool.false_eq_true, if_false, node, hkind, Compile.run_bind, Compile.run_pure]
  refine ⟨_, rfl, ?_⟩
  unfold withParameter
  cases hon : c.context.options.responsive with
  | false =>
    rw [hresponsive hon]
    rfl
  | true => cases c.measurements.parameter? id <;> rfl

end Compiler

/-! ### Boards that are probed for themselves -/

omit [Scalar α] in
theorem Scene.enclosingArtboard?_self {s : Scene α} {a : NodeId} {n : Node α}
    (hn : s.node? a = some n) (hkind : n.kind = .artboard) : s.enclosingArtboard? a = some a := by
  have hlt := lt_size_of_node? hn
  unfold enclosingArtboard?
  cases hsize : s.size with
  | zero => omega
  | succ levels =>
    simp only [artboardWithin?, hn, if_pos hkind]

omit [Scalar α] in
/-- A root that is an artboard is probed itself. -/
theorem Roots.mem_artboards_of_board {s : Scene α} {selection : List NodeId} {o : Options}
    {found : Roots} (h : find s selection o = .ok found) {a : NodeId} (ha : a ∈ found.ids)
    {n : Node α} (hn : s.node? a = some n) (hkind : n.kind = .artboard) :
    a ∈ found.artboards := by
  obtain ⟨p, hp, rfl⟩ := List.mem_map.mp ha
  rw [(eq_of_find h).2]
  exact List.mem_eraseDups.mpr
    (List.mem_filterMap.mpr ⟨p, hp, Scene.enclosingArtboard?_self hn hkind⟩)

/-- An artboard that the node stands in is probed after the node. -/
def Roots.ProbesAroundLater (found : Roots) (s : Scene α) (id : NodeId) : Prop :=
  ∃ earlier later, found.artboards = earlier ++ id :: later ∧ ∃ b ∈ later, s.Within id b

namespace Measurements
variable {δ : Type} [Host δ α] {doc : δ} {roots : List NodeId} {id : NodeId}

/-- A node that is probed itself has a parameter when something around it is probed later. -/
theorem isSome_parameter?_iff_of_root (th : Thresholds α) (hshape : Host.FixedShape doc)
    (hroots : ∀ root ∈ roots, root < (Host.scene doc).size) (hnodup : roots.Nodup)
    (hid : id ∈ roots) :
    ((probeAll th doc roots).2.parameter? id).isSome ↔
      ∃ earlier later, roots = earlier ++ id :: later ∧
        ∃ b ∈ later, (Host.scene doc).Within id b := by
  obtain ⟨r, hr⟩ := exists_isLast_of_within th hshape hroots hid .refl
  rw [isSome_parameter?_probeAll hshape hroots hr]
  constructor
  · intro hne
    obtain ⟨earlier, later, hsplit⟩ := List.append_of_mem hid
    refine ⟨earlier, later, hsplit, ?_⟩
    by_contra hnone
    -- Then the node would be the top of the last round that measured it.
    obtain ⟨r', hr', hroot⟩ := (exists_isLast_root_iff th hshape hroots).mpr
      ⟨earlier, later, hsplit, fun b hb hw => hnone ⟨b, hb, hw⟩⟩
    have hsome := isSome_parameter?_probeAll hshape hroots hr
    rw [isSome_parameter?_probeAll hshape hroots hr'] at hsome
    exact hsome.mpr hne hroot.symm
  · rintro ⟨earlier, later, hsplit, b, hb, hw⟩ hroot
    obtain ⟨earlier', later', hsplit', hnone⟩ :=
      (exists_isLast_root_iff th hshape hroots).mp ⟨r, hr, hroot.symm⟩
    rw [hsplit, List.nodup_middle, List.nodup_cons, List.mem_append, not_or] at hnodup
    obtain ⟨-, -, rfl⟩ :=
      (List.append_cons_inj_of_notMem hnodup.1.1 hnodup.1.2).mp (hsplit.symm.trans hsplit')
    exact hnone b hb hw

end Measurements

/-! ### A whole export -/

namespace Export
variable {t t' : ElasticScene α} {selection : List NodeId} {context : Context α} {e : Export α}

/-- Where nothing is probed there are no parameters. -/
theorem parameter?_of_not_responsive {found : Roots}
    (hmeasure : measure t context found = (t', e.measurements))
    (hoff : context.options.responsive = false) (id : NodeId) :
    e.measurements.parameter? id = none := by
  rw [measure, hoff] at hmeasure
  obtain ⟨-, hempty⟩ := Prod.mk.inj hmeasure
  rw [← hempty]
  rfl

/-- A board has a parameter exactly when something around it is probed later. -/
theorem isSome_parameter?_of_board (hbuilt : t.Built) {found : Roots}
    (hfound : Roots.find t.scene selection context.options = .ok found)
    (hmeasure : measure t context found = (t', e.measurements)) {id : NodeId}
    (hid : id ∈ found.artboards) :
    (e.measurements.parameter? id).isSome ↔
      context.options.responsive = true ∧ found.ProbesAroundLater t.scene id := by
  cases hon : context.options.responsive with
  | false => simp [parameter?_of_not_responsive hmeasure hon]
  | true =>
    obtain ⟨hroots, hnodup⟩ := Roots.artboards_of_find hfound
    rw [measure, if_pos hon] at hmeasure
    have hm : (Measurements.probeAll context.thresholds t found.artboards).2 = e.measurements := by
      rw [hmeasure]
    rw [← hm, Measurements.isSome_parameter?_iff_of_root context.thresholds
      (ElasticScene.fixedShape_of_built hbuilt) hroots hnodup hid]
    exact (and_iff_right rfl).symm

/-- The canvas of a compiled root is put where its kind asks, and then moved by the pivot of its
element. -/
theorem canvas_of_mem_roots {found : Roots}
    (he : e = compile t'.scene context e.measurements found) {own : CompiledRoot α}
    (hown : own ∈ e.roots) :
    ∃ n, t'.scene.node? own.node = some n ∧
      own.document.canvas.base =
        (CanvasRect.ofRoot n (t'.scene.parentOf? n) context.scale).anchored n
          (t'.scene.parentOf? n) context.scale own.document.root.own.pivot := by
  obtain ⟨b, l, hbranch, hrun⟩ := exists_branch_of_mem_compile (he ▸ hown)
  refine ⟨b.node, Scene.node?_of_branchWithin? hbranch, ?_⟩
  rw [hrun]
  rfl

/-- The element of a root that is an artboard has the pivot that was measured. -/
theorem pivot_of_board (hbuilt : t.Built) {found : Roots}
    (hfound : Roots.find t.scene selection context.options = .ok found)
    (hmeasure : measure t context found = (t', e.measurements))
    (he : e = compile t'.scene context e.measurements found) (hrelaid : t.scene.Relaid t'.scene)
    {own : CompiledRoot α} (hown : own ∈ e.roots) {p : String × NodeId} (hp : p ∈ found.named)
    (hid : p.2 = own.node) {n : Node α} (hn : t'.scene.node? own.node = some n)
    (hkind : n.kind = .artboard) :
    own.document.root.own.pivot = (e.measurements.parameter? own.node).bind (·.pivot) := by
  obtain ⟨b, l, hbranch, hrun⟩ := exists_branch_of_mem_compile (he ▸ hown)
  obtain ⟨-, a, -, hseen⟩ := Roots.exists_seen_of_find hbuilt.isForest hfound p hp
  have hout : ¬ t'.scene.CommentsOut own.node := by
    rw [hrelaid.commentsOut_iff, ← hid]
    exact hseen.not_commentsOut
  have homits := Compiler.omits_eq_false_of_not_commentsOut
    (c := ⟨t'.scene, context, e.measurements⟩) hbranch hout
  obtain ⟨id, k, children⟩ := b
  obtain rfl : id = own.node := Scene.id_of_branchWithin? hbranch
  obtain rfl := Option.some.inj (hn.symm.trans (Scene.node?_of_branchWithin? hbranch))
  obtain ⟨element, helement, hpivot⟩ := Compiler.exists_board hkind homits
    (fun hoff => parameter?_of_not_responsive hmeasure hoff own.node) _ l
  rw [← hpivot, hrun]
  exact congrArg (fun e? : Option (Element α) => (e?.getD _).own.pivot) helement

/-- For every document that is built, every selection and every context: an export of a document at
rest whose bounds can be compared leaves it as it was; and the canvas of every compiled root that is
an artboard or stands under nothing has the scaled size of the root and sits at the origin, unless
the root is an artboard that was probed before an artboard around it. Then the root has a parameter,
and its canvas is where the anchor of that parameter puts it. -/
theorem board_canvas (hbuilt : t.Built) (h : ofSelection t selection context = .ok (t', e)) :
    (t.AtRest → t.scene.Comparable → t' = t) ∧
    ∃ found, Roots.find t.scene selection context.options = .ok found ∧
      ∀ own ∈ e.roots, ∃ n, t'.scene.node? own.node = some n ∧
        (n.kind = .artboard ∨ n.parent = none →
          own.document.canvas.base.w = n.bounds.width * context.scale ∧
          own.document.canvas.base.h = n.bounds.height * context.scale ∧
          (¬ (context.options.responsive = true ∧ found.ProbesAroundLater t.scene own.node) →
            own.document.canvas.base = .atOrigin n context.scale) ∧
          (context.options.responsive = true ∧ found.ProbesAroundLater t.scene own.node →
            ∃ p, e.measurements.parameter? own.node = some p ∧
              own.document.canvas.base = (CanvasRect.atOrigin n context.scale).anchored n
                (t'.scene.parentOf? n) context.scale p.pivot)) := by
  refine ⟨fun hrest hc => eq_of_ofSelection_eq_ok hbuilt.isForest hrest hc h, ?_⟩
  obtain ⟨found, hfound, hmeasure, he⟩ := ofSelection_eq_ok h
  obtain ⟨found', hfound', hrelaid, hnodes, -⟩ := nodes_of_ofSelection hbuilt h
  obtain rfl := Except.ok.inj (hfound.symm.trans hfound')
  refine ⟨found, hfound, fun own hown => ?_⟩
  obtain ⟨n, hn, hbase⟩ := canvas_of_mem_roots he hown
  refine ⟨n, hn, fun htop => ?_⟩
  have hparent (hnone : n.parent = none) : t'.scene.parentOf? n = none := by
    rw [Scene.parentOf?, hnone]
    rfl
  rw [CanvasRect.ofRoot_eq_atOrigin (htop.imp_right hparent)] at hbase
  obtain ⟨hwidth, hheight⟩ := CanvasRect.size_anchored (.atOrigin n context.scale) n
    (t'.scene.parentOf? n) context.scale own.document.root.own.pivot
  refine ⟨hbase ▸ hwidth, hbase ▸ hheight, ?_⟩
  rcases htop with hkind | hnone
  · have hid : own.node ∈ found.ids := hnodes ▸ List.mem_map_of_mem hown
    obtain ⟨p, hp, hpid⟩ := List.mem_map.mp hid
    rw [pivot_of_board hbuilt hfound hmeasure he hrelaid hown hp hpid hn hkind] at hbase
    have hboard : own.node ∈ found.artboards := by
      rcases hrelaid.cases_node? own.node with ⟨-, hnone⟩ | ⟨m, k, hm, hk, hmoved⟩
      · rw [hn] at hnone
        cases hnone
      · obtain rfl := Option.some.inj (hn.symm.trans hk)
        exact Roots.mem_artboards_of_board hfound hid hm (hmoved.kind.symm.trans hkind)
    rw [← isSome_parameter?_of_board hbuilt hfound hmeasure hboard]
    cases hparameter : e.measurements.parameter? own.node with
    | none =>
      rw [hparameter] at hbase
      exact ⟨fun _ => hbase.trans (CanvasRect.anchored_none ..),
        fun hmeasured => absurd hmeasured Bool.false_ne_true⟩
    | some p =>
      rw [hparameter] at hbase
      exact ⟨fun hunmeasured => absurd rfl hunmeasured, fun _ => ⟨p, rfl, hbase⟩⟩
  · rw [hparent hnone, CanvasRect.anchored_without_parent] at hbase
    refine ⟨fun _ => hbase, ?_⟩
    rintro ⟨hon, earlier, later, hsplit, around⟩
    have hboard : own.node ∈ found.artboards :=
      hsplit ▸ List.mem_append_right earlier List.mem_cons_self
    obtain ⟨p, hp⟩ := Option.isSome_iff_exists.mp
      ((isSome_parameter?_of_board hbuilt hfound hmeasure hboard).mpr
        ⟨hon, earlier, later, hsplit, around⟩)
    refine ⟨p, hp, hbase.trans ?_⟩
    rw [hparent hnone, CanvasRect.anchored_without_parent]

/-- A board that is not marked, with a board and a sub-prefab in it that are. -/
def boardAndPopup : ElasticScene Float :=
  ((ElasticScene.empty.insert none
    { name := "Outer", kind := .artboard, bounds := ⟨0.0, 0.0, 400.0, 300.0⟩ }).insert (some 0)
    { name := "Inner", kind := .artboard, bounds := ⟨10.0, 10.0, 100.0, 100.0⟩,
      marked := true }).insert (some 0)
    { name := "Popup/", kind := .group, bounds := ⟨10.0, 200.0, 100.0, 50.0⟩, marked := true }

theorem built_boardAndPopup : boardAndPopup.Built :=
  ((ElasticScene.Built.empty.insert none _ (by simp)).insert (some 0) _ (by decide)).insert
    (some 0) _ (by decide)

/-- All three are roots and the outer board is probed first: the inner one stays at the origin. -/
theorem inner_board_at_origin :
    boardAndPopup.Built ∧ ∃ t' e, ofSelection boardAndPopup [] wholeContext = .ok (t', e) ∧
      ∃ own ∈ e.roots, own.node = 1 ∧ ∃ n, t'.scene.node? 1 = some n ∧
        (n.kind = .artboard ∨ n.parent = none) ∧
        ¬ (Roots.mk [("Outer", 0), ("Inner", 1), ("Popup", 2)] [0, 1]).ProbesAroundLater
          boardAndPopup.scene 1 ∧
        own.document.canvas.base = .atOrigin n 1.0 := by
  have hfind : Roots.find boardAndPopup.scene [] wholeContext.options =
      .ok ⟨[("Outer", 0), ("Inner", 1), ("Popup", 2)], [0, 1]⟩ := by
    decide +kernel
  have hexport : ((ofSelection boardAndPopup [] wholeContext).toOption.map fun p =>
      (p.2.roots.map (·.node), (p.1.scene.node? 1).map (·.kind))) =
      some ([0, 1, 2], some .artboard) := by
    decide +kernel
  obtain ⟨⟨t', e⟩, hok, hresult⟩ := eq_ok_of_map_toOption hexport
  obtain ⟨hroots, hkind⟩ := Prod.mk.inj hresult
  obtain ⟨-, found, hfound, hall⟩ := board_canvas built_boardAndPopup hok
  obtain rfl := Except.ok.inj (hfind.symm.trans hfound)
  obtain ⟨own, hown, hid⟩ : ∃ own ∈ e.roots, own.node = 1 :=
    List.mem_map.mp (hroots ▸ List.mem_cons_of_mem 0 List.mem_cons_self)
  obtain ⟨n, hn, hcanvas⟩ := hall own hown
  rw [hid] at hn hcanvas
  have hboard : n.kind = .artboard := by
    have hkind : (t'.scene.node? 1).map (·.kind) = some .artboard := hkind
    rwa [hn, Option.map_some, Option.some.injEq] at hkind
  -- Nothing is probed after the inner board.
  have hlast : ¬ (Roots.mk [("Outer", 0), ("Inner", 1), ("Popup", 2)] [0, 1]).ProbesAroundLater
      boardAndPopup.scene 1 := by
    rintro ⟨earlier, later, hsplit, b, hb, -⟩
    have hsplit : [0] ++ 1 :: [] = earlier ++ 1 :: later := hsplit
    obtain ⟨-, -, rfl⟩ :=
      (List.append_cons_inj_of_notMem (by decide) (by decide)).mp hsplit
    cases hb
  exact ⟨built_boardAndPopup, t', e, hok, own, hown, hid, n, hn, .inl hboard, hlast,
    (hcanvas (.inl hboard)).2.2.1 fun hcond => hlast hcond.2⟩

/-- Only what is marked is exported; the outer board is probed last, for the sub-prefab. -/
theorem inner_board_moved :
    ¬ ∀ (t t' : ElasticScene Float) selection (context : Context Float) e, t.Built →
      ofSelection t selection context = .ok (t', e) →
      ∀ own ∈ e.roots, ∀ n, t'.scene.node? own.node = some n →
        n.kind = .artboard ∨ n.parent = none →
        own.document.canvas.base.x = some 0.0 ∧ own.document.canvas.base.y = some 0.0 := by
  intro h
  have hexport : ((ofSelection boardAndPopup []
      { wholeContext with options := {} }).toOption.map fun p =>
        (p.2.roots.map fun own => (own.node, own.document.canvas.base.x),
          (p.1.scene.node? 1).map (·.kind))) =
      some ([(1, some (-60.0)), (2, some (-60.0))], some .artboard) := by
    decide +kernel
  obtain ⟨⟨t', e⟩, hok, hresult⟩ := eq_ok_of_map_toOption hexport
  obtain ⟨hroots, hkind⟩ := Prod.mk.inj hresult
  obtain ⟨n, hn, hboard⟩ := Option.map_eq_some_iff.mp hkind
  obtain ⟨own, hown, hbase⟩ : ∃ own ∈ e.roots,
      (own.node, own.document.canvas.base.x) = (1, some (-60.0)) :=
    List.mem_map.mp (hroots ▸ List.mem_cons_self)
  obtain ⟨hid, hx⟩ := Prod.mk.inj hbase
  have horigin := (h boardAndPopup t' [] _ e built_boardAndPopup hok own hown n (hid ▸ hn)
    (.inl hboard)).1
  rw [hx] at horigin
  exact absurd horigin (by decide +kernel)

end Export
end DesignLayout
