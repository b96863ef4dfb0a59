import DesignLayout.Proofs.Making
import Mathlib.Data.List.Flatten

/-! The elements of a document are the nodes of its branch, mirrored.

`Compiler.kept` prunes a branch: what is passed over goes, and what is below a node that is drawn as
a whole, and last a node of an unknown kind below which nothing is left. A branch gives an element
exactly when something of it is kept. As long as no scroller is made from a repeated grid, the
elements of the branch, one after the other, are the nodes that are kept, a node before those below
it and these from the last one to the first (`Branch.mirrored`): `Compiler.names_root`. Pruning only
leaves nodes out (`mirrored_kept_sublist`), and mirroring only changes their order
(`mirrored_perm_preorder`). -/
namespace DesignLayout

variable {α : Type}

namespace Branch

mutual

/-- A branch and all branches below it, each before those below it, and siblings from the last one
to the first. -/
def mirrored : Branch α → List (Branch α)
  | mk id n children => mk id n children :: mirroredAll children

def mirroredAll : List (Branch α) → List (Branch α)
  | [] => []
  | b :: rest => mirroredAll rest ++ mirrored b

end

mutual

/-- The nodes of a branch are the same ones in either order. -/
theorem mirrored_perm_preorder : ∀ b : Branch α, (b.mirrored.map id).Perm b.preorder
  | mk i n children => by
    rw [mirrored, preorder, List.map_cons]
    exact (mirroredAll_perm_preorderAll children).cons i

theorem mirroredAll_perm_preorderAll :
    ∀ bs : List (Branch α), ((mirroredAll bs).map id).Perm (preorderAll bs)
  | [] => .nil
  | b :: rest => by
    rw [mirroredAll, preorderAll, List.map_append]
    exact List.perm_append_comm.trans
      ((mirrored_perm_preorder b).append (mirroredAll_perm_preorderAll rest))

end
end Branch

/-- The names of an element and of all elements within it. -/
def Element.names (e : Element α) : List String :=
  e.preorder.map name

namespace Element

@[simp] theorem names_mk (own : Attributes α) (es : Option (List (Element α))) :
    (mk own es).names = own.name :: (es.getD []).flatMap names := by
  rw [names, preorder_eq, List.map_cons, List.map_flatMap]
  rfl

theorem names_setOwn {f : Attributes α → Attributes α} {e : Element α}
    (h : (f e.own).name = e.own.name) : (e.setOwn f).names = e.names := by
  cases e
  simp only [setOwn, names_mk]
  exact congrArg (· :: _) h

end Element

namespace Compiler
open Compile

section
variable (c : Compiler α)

/-- The name that a branch is shown by. -/
def shownName (b : Branch α) : String :=
  (c.label b.node).name

mutual

/-- What is left of a branch when it is pruned; `inner` says that it stands below the root. -/
def kept (inner : Bool) : Branch α → Option (Branch α)
  | .mk id n children =>
    let l := c.label n
    if l.directives.has .commentOut then none
    else if inner && c.context.options.active l.directives .subPrefab then none
    else
      let below := if drawsWhole n l then [] else keptAll children
      if n.kind.isUnknown && below.isEmpty then none else some (.mk id n below)

def keptAll : List (Branch α) → List (Branch α)
  | [] => []
  | b :: rest => (kept true b).toList ++ keptAll rest

end

/-- What is kept below a node that is kept itself. -/
def keptBelow (n : Node α) (children : List (Branch α)) : List (Branch α) :=
  if drawsWhole n (c.label n) then [] else c.keptAll children

/-- The node of a pruned branch becomes a scroller over the cells of its repeated grid: nothing
below it is an area to scroll. -/
structure Synthesizes (b : Branch α) : Prop where
  kind : b.node.kind = .repeatGrid
  grid : b.node.grid.isSome
  scrolls : c.context.options.Scrolls (c.label b.node).directives
  noArea : ∀ x ∈ b.children, c.shownName x ≠ areaName

end

variable {c : Compiler α}

/-! ### Pruning -/

theorem kept_mk {inner : Bool} {id : NodeId} {n : Node α} {children : List (Branch α)}
    (h : c.omits inner (c.label n) = false) :
    c.kept inner (.mk id n children) =
      if n.kind.isUnknown && (c.keptBelow n children).isEmpty then none
      else some (.mk id n (c.keptBelow n children)) := by
  simp only [omits, Bool.or_eq_false_iff] at h
  rw [kept]
  simp only [h.1, h.2, Bool.false_eq_true, if_false]
  rfl

theorem kept_eq_none_of_omits {inner : Bool} {id : NodeId} {n : Node α}
    {children : List (Branch α)} (h : c.omits inner (c.label n) = true) :
    c.kept inner (.mk id n children) = none := by
  simp only [omits, Bool.or_eq_true] at h
  rw [kept]
  rcases h with h | h <;> simp [h]

mutual

/-- Pruning leaves nodes out, and changes nothing else. -/
theorem mirrored_kept_sublist (inner : Bool) :
    ∀ b k : Branch α, c.kept inner b = some k →
      (k.mirrored.map Branch.id).Sublist (b.mirrored.map Branch.id)
  | .mk id n children, k, h => by
    have hbelow : ((Branch.mirroredAll (c.keptBelow n children)).map Branch.id).Sublist
        ((Branch.mirroredAll children).map Branch.id) := by
      unfold keptBelow
      split
      · simp [Branch.mirroredAll]
      · exact mirroredAll_keptAll_sublist children
    cases homits : c.omits inner (c.label n) with
    | true => simp [kept_eq_none_of_omits homits] at h
    | false =>
      rw [kept_mk homits] at h
      split at h
      · cases h
      · obtain rfl := Option.some.inj h
        rw [Branch.mirrored, Branch.mirrored, List.map_cons, List.map_cons]
        exact hbelow.cons_cons id

theorem mirroredAll_keptAll_sublist :
    ∀ bs : List (Branch α), ((Branch.mirroredAll (c.keptAll bs)).map Branch.id).Sublist
      ((Branch.mirroredAll bs).map Branch.id)
  | [] => by simp [keptAll, Branch.mirroredAll]
  | b :: rest => by
    have hrest := mirroredAll_keptAll_sublist rest
    rw [keptAll, Branch.mirroredAll, List.map_append]
    cases hk : c.kept true b with
    | none => simpa using hrest.trans (List.sublist_append_left ..)
    | some k =>
      rw [Option.toList_some, List.singleton_append, Branch.mirroredAll, List.map_append]
      exact hrest.append (mirrored_kept_sublist true b k hk)

end

/-! ### The elements of what is kept -/

section
variable (c)

/-- The element of a branch shows what is kept of the branch. -/
structure Shows (k? : Option (Branch α)) (e? : Option (Element α)) : Prop where
  own : e?.map Element.name = k?.map c.shownName
  all : (∀ k ∈ k?, ∀ x ∈ k.mirrored, ¬ c.Synthesizes x) →
    (e?.map Element.names).getD [] = (k?.map fun k => k.mirrored.map c.shownName).getD []

/-- The elements of branches show what is kept of them, the last branch first. -/
structure ShowsAll (ks : List (Branch α)) (es : List (Element α)) : Prop where
  own : es.map Element.name = ks.reverse.map c.shownName
  all : (∀ x ∈ Branch.mirroredAll ks, ¬ c.Synthesizes x) →
    es.flatMap Element.names = (Branch.mirroredAll ks).map c.shownName

end

variable {ks : List (Branch α)} {es : List (Element α)}

theorem ShowsAll.isEmpty_eq (h : c.ShowsAll ks es) : es.isEmpty = ks.isEmpty := by
  have hlength := congrArg List.length h.own
  simp only [List.length_map, List.length_reverse] at hlength
  cases es <;> cases ks <;> simp_all

theorem ShowsAll.hasArea_iff (h : c.ShowsAll ks es) :
    hasArea es = true ↔ ∃ x ∈ ks, c.shownName x = areaName := by
  have hnames : hasArea es = (es.map Element.name).any (· == areaName) := by
    simp [hasArea, Function.comp_def]
  rw [hnames, h.own]
  simp

/-- A node that keeps what is shown below it. -/
theorem ShowsAll.shows (h : c.ShowsAll ks es) {id : NodeId} {n : Node α} {own : Attributes α}
    (hname : own.name = (c.label n).name) {elements : Option (List (Element α))}
    (helements : elements.getD [] = es) :
    c.Shows (some (.mk id n ks)) (some (.mk own elements)) where
  own := congrArg some hname
  all hno := by
    have hks := h.all fun x hx => hno _ rfl x (by
      rw [Branch.mirrored]
      exact List.mem_cons_of_mem _ hx)
    simp [helements, hname, hks, Branch.mirrored, shownName]

theorem showsAll_nil : c.ShowsAll [] [] :=
  ⟨rfl, fun _ => rfl⟩

theorem ShowsAll.append {k? : Option (Branch α)} {e? : Option (Element α)}
    (hown : c.Shows k? e?) (hlater : c.ShowsAll ks es) :
    c.ShowsAll (k?.toList ++ ks) (es ++ e?.toList) := by
  obtain ⟨hname, hnames⟩ := hown
  obtain ⟨hlaterName, hlaterNames⟩ := hlater
  cases k? with
  | none =>
    obtain rfl := Option.map_eq_none_iff.mp hname
    simpa using ShowsAll.mk hlaterName hlaterNames
  | some k =>
    obtain ⟨e, rfl, he⟩ := Option.map_eq_some_iff.mp hname
    refine ⟨by simp [hlaterName, he], fun hno => ?_⟩
    change ∀ x ∈ Branch.mirroredAll ks ++ k.mirrored, _ at hno
    rw [List.forall_mem_append] at hno
    have hk := hnames fun _ hk => by
      obtain rfl := Option.some.inj hk
      exact hno.2
    simp_all [Branch.mirroredAll]

/-! ### Compiling a branch -/

theorem isUnknown_of_drawsWhole {n : Node α} {l : Label} (h : drawsWhole n l = true) :
    n.kind.isUnknown = false := by
  cases hkind : n.kind <;> simp [hkind, drawsWhole, Kind.isUnknown] at *

theorem isUnknown_of_isGroup {k : Kind} (h : k.isGroup = true) : k.isUnknown = false := by
  cases k <;> first | rfl | cases h

theorem isUnknown_of_isShape {k : Kind} (h : k.isShape = true) : k.isUnknown = false := by
  cases k <;> first | rfl | cases h

theorem drawsWhole_of_isShape {n : Node α} (l : Label) (h : n.kind.isShape = true) :
    drawsWhole n l = false := by
  cases hkind : n.kind <;> simp [hkind, drawsWhole, Kind.isShape] at *

theorem drawsWhole_of_isUnknown {n : Node α} (l : Label) (h : n.kind.isUnknown = true) :
    drawsWhole n l = false := by
  cases hkind : n.kind <;> simp [hkind, drawsWhole, Kind.isUnknown] at *

variable [Scalar α] {t : Target α} {n : Node α}

/-- The element of a node that is kept shows the node with what is kept below it. -/
theorem Made.shows {e? : Option (Element α)} {children : List (Branch α)}
    (h : c.Made t n (c.label n) es e?) (hes : c.ShowsAll (c.keptAll children) es) (id : NodeId) :
    c.Shows (if n.kind.isUnknown && (c.keptBelow n children).isEmpty then none
      else some (.mk id n (c.keptBelow n children))) e? := by
  have hbelow (hwhole : drawsWhole n (c.label n) = false) :
      c.keptBelow n children = c.keptAll children := by
    simp [keptBelow, hwhole]
  cases h with
  | board hkind =>
    rw [hbelow (by simp [drawsWhole, hkind])]
    simpa [hkind, Kind.isUnknown] using hes.shows rfl rfl
  | whole hwhole =>
    have hempty : c.keptBelow n children = [] := by simp [keptBelow, hwhole]
    rw [hempty]
    simpa [isUnknown_of_drawsWhole hwhole] using showsAll_nil.shows rfl rfl
  | shape hkind =>
    rw [hbelow (drawsWhole_of_isShape _ hkind), isUnknown_of_isShape hkind]
    exact hes.shows rfl (by cases es <;> rfl)
  | box hkind hwhole =>
    rw [hbelow hwhole, isUnknown_of_isGroup hkind]
    exact hes.shows rfl rfl
  | viewport hkind hwhole =>
    rw [hbelow hwhole, isUnknown_of_isGroup hkind]
    exact hes.shows rfl rfl
  | overGrid hkind hgrid hwhole hscrolls harea =>
    rw [hbelow hwhole, hkind]
    refine ⟨rfl, fun hno => ?_⟩
    have hcells : ∀ x ∈ c.keptAll children, c.shownName x ≠ areaName := fun x hx hname => by
      rw [hes.hasArea_iff.mpr ⟨x, hx, hname⟩] at harea
      cases harea
    exact absurd ⟨hkind, by rw [Branch.node_mk, hgrid]; rfl, hscrolls, hcells⟩
      (hno _ rfl _ List.mem_cons_self)
  | unknown hkind =>
    rw [hbelow (drawsWhole_of_isUnknown _ hkind), hkind, ← hes.isEmpty_eq, Bool.true_and]
    split
    · exact ⟨rfl, fun _ => rfl⟩
    · exact hes.shows rfl rfl

omit [Scalar α] in
theorem Shows.withParameter {k? : Option (Branch α)} {e? : Option (Element α)}
    (h : c.Shows k? e?) (id : NodeId) : c.Shows k? (e?.map (c.withParameter id)) := by
  have hname (e : Element α) : (c.withParameter id e).name = e.name := by
    rcases c.withParameter_eq id e with heq | ⟨p, -, heq⟩ <;> rw [heq]
    simp [Element.name]
  have hnames (e : Element α) : (c.withParameter id e).names = e.names := by
    rcases c.withParameter_eq id e with heq | ⟨p, -, heq⟩ <;> rw [heq]
    exact Element.names_setOwn rfl
  obtain ⟨hown, hall⟩ := h
  constructor
  · rw [← hown]
    simp [Function.comp_def, hname]
  · intro hno
    rw [← hall hno]
    simp [Function.comp_def, hnames]

/-- Every branch is compiled to what shows the part of it that is kept. -/
theorem closed_shows (c : Compiler α) (t : Target α) :
    c.Closed t (fun inner b e? => c.Shows (c.kept inner b) e?)
      (fun bs es => c.ShowsAll (c.keptAll bs) es) where
  omitted homits := by
    rw [kept_eq_none_of_omits homits]
    exact ⟨rfl, fun _ => rfl⟩
  made homits hes hmade := by
    rw [kept_mk homits]
    exact (hmade.shows hes _).withParameter _
  nil := showsAll_nil
  cons hown hlater := hlater.append hown

/-- When the root of a branch is compiled to an element, some of the branch is kept, and the
document shows it. -/
theorem shows_root {b : Branch α} {l : Ledger α} {e : Element α}
    (he : ((c.branch (c.target b) false b).run l).1 = some e) :
    ∃ k, c.kept false b = some k ∧ ((∀ x ∈ k.mirrored, ¬ c.Synthesizes x) →
      ((c.root b).run l).1.document.root.names = k.mirrored.map c.shownName) := by
  have hshows := (closed_shows c (c.target b)).yields_branch false b l
  rw [he] at hshows
  obtain ⟨k, hk, -⟩ := Option.map_eq_some_iff.mp hshows.own.symm
  have hroot : ((c.root b).run l).1.document.root = e := by
    change ((c.branch (c.target b) false b).run l).1.getD _ = e
    rw [he]
    rfl
  refine ⟨k, hk, fun hno => ?_⟩
  have hall := hshows.all fun k' hk' => by
    obtain rfl := Option.some.inj (hk.symm.trans hk')
    exact hno
  rw [hk] at hall
  rw [hroot]
  exact hall

/-- For every scene, context and measurements, and every node that is compiled to an element as a
root: the branch below it is mirrored without loss, what is kept of it has each node at most once
and in that order, and as long as no node that is kept becomes a scroller over a repeated grid, the
document names just the nodes that are kept, in this order. -/
theorem names_mirror_subtree (hf : c.scene.IsForest) {root : NodeId} {b : Branch α}
    (hb : c.scene.branch? root = some b) {l : Ledger α} {e : Element α}
    (he : ((c.branch (c.target b) false b).run l).1 = some e) :
    (b.mirrored.map Branch.id).Perm (c.scene.subtree root) ∧
    ∃ k, c.kept false b = some k ∧
      (k.mirrored.map Branch.id).Sublist (b.mirrored.map Branch.id) ∧
      (k.mirrored.map Branch.id).Nodup ∧
      ((∀ x ∈ k.mirrored, ¬ c.Synthesizes x) →
        ((c.root b).run l).1.document.root.names = k.mirrored.map c.shownName) := by
  have hperm : (b.mirrored.map Branch.id).Perm (c.scene.subtree root) := by
    rw [hf.subtree_eq hb]
    exact b.mirrored_perm_preorder
  obtain ⟨n, hn, -⟩ := Option.map_eq_some_iff.mp (hf.branch?_eq root ▸ hb)
  have hnodup := hperm.nodup_iff.mpr (hf.nodup_subtree (Scene.lt_size_of_node? hn))
  obtain ⟨k, hk, hnames⟩ := shows_root he
  have hsub := mirrored_kept_sublist false b k hk
  exact ⟨hperm, k, hk, hsub, hsub.nodup hnodup, hnames⟩

/-- A board with a note that is commented out, a flat picture, a part of its own, a board within it,
and two layers of a kind that is not known, of which one is empty. -/
def mixedBoard : ElasticScene Float :=
  let box (name : String) (kind : Kind) : Draft Float :=
    { name, kind, bounds := ⟨0.0, 0.0, 10.0, 10.0⟩ }
  ((((((((((((ElasticScene.empty.insert none (box "Screen" .artboard)).insert (some 0)
    (box "backImage" .rectangle)).insert (some 0) (box "#noteImage" .rectangle)).insert (some 0)
    (box "panel" .group)).insert (some 3) (box "titleText" .text)).insert (some 3)
    (box "*flat" .group)).insert (some 5) (box "inner" .path)).insert (some 0)
    (box "part/" .group)).insert (some 0) (box "empty" (.other "Widget"))).insert (some 0)
    (box "frame" (.other "Widget"))).insert (some 9) (box "dot" .ellipse)).insert (some 0)
    (box "Nested" .artboard))

theorem built_mixedBoard : mixedBoard.Built :=
  (((((((((((ElasticScene.Built.empty.insert none _ (by simp)).insert (some 0) _ (by decide)).insert
    (some 0) _ (by decide)).insert (some 0) _ (by decide)).insert (some 3) _ (by decide)).insert
    (some 3) _ (by decide)).insert (some 5) _ (by decide)).insert (some 0) _ (by decide)).insert
    (some 0) _ (by decide)).insert (some 0) _ (by decide)).insert (some 9) _ (by decide)).insert
    (some 0) _ (by decide)

theorem mixedBoard_mirrored :
    let c : Compiler Float := ⟨mixedBoard.scene, Export.wholeContext, .empty⟩
    ∃ b, c.scene.branch? 0 = some b ∧ ((c.root b).run .empty).1.document.root.names =
      ["Screen", "Nested", "frame", "dot", "panel", "flat", "titleText", "backImage"] := by
  intro c
  obtain ⟨b, hb⟩ : ∃ b, c.scene.branch? 0 = some b := ⟨_, rfl⟩
  have hcompiled : ((c.scene.branch? 0).bind fun b =>
      ((c.branch (c.target b) false b).run .empty).1.map Element.name) = some "Screen" := by
    decide +kernel
  have hkept : ((c.scene.branch? 0).bind (c.kept false)).map (fun k =>
      k.mirrored.map fun x => (x.node.kind, c.shownName x)) =
      some [(.artboard, "Screen"), (.artboard, "Nested"), (.other "Widget", "frame"),
        (.ellipse, "dot"), (.group, "panel"), (.group, "flat"), (.text, "titleText"),
        (.rectangle, "backImage")] := by
    decide +kernel
  rw [hb, Option.bind_some] at hcompiled hkept
  obtain ⟨e, he, -⟩ := Option.map_eq_some_iff.mp hcompiled
  obtain ⟨-, k, hk, -, -, hnames⟩ := names_mirror_subtree built_mixedBoard.isForest hb he
  rw [hk, Option.map_some, Option.some.injEq] at hkept
  refine ⟨b, hb, ?_⟩
  rw [hnames]
  · simpa [Function.comp_def] using congrArg (List.map Prod.snd) hkept
  · intro x hx hgrid
    have hmem : (x.node.kind, c.shownName x) ∈ _ := hkept ▸ List.mem_map_of_mem hx
    rw [hgrid.kind] at hmem
    simp at hmem

end Compiler
end DesignLayout
