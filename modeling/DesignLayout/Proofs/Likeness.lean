import DesignLayout.Proofs.Hiding
import DesignLayout.Proofs.Resizing
import Mathlib.Data.List.Forall2

/-! Scenes that look alike.

A view says which nodes are looked at (`live`) and which ones are only known to be commented out
(`out`). Two scenes are alike for a view when they have the same links, the same live nodes, and
comment out what the view takes to be commented out.

The layout goes from parents to children. So if whoever looks at a node looks at its parent, scenes
that are alike stay alike when a node is placed, laid out anew or resized. -/
namespace DesignLayout

/-- What is looked at, node by node. -/
structure View where
  live : NodeId → Prop
  out : NodeId → Prop

/-- The view is of this scene: from the top down it comes to nodes that are live or commented out,
and goes on below the live ones. -/
structure View.Fits {α : Type} (v : View) (s : Scene α) : Prop where
  up : ∀ {p c}, c ∈ s.children p → v.live c → v.live p
  down : ∀ {p c}, c ∈ s.children p → v.live p → v.live c ∨ v.out c
  top : ∀ {id}, id ∈ s.topLevel → v.live id ∨ v.out id

variable {α : Type} {v : View} {id : NodeId}

structure Node.Alike (v : View) (id : NodeId) (n n' : Node α) : Prop where
  parent : n'.parent = n.parent
  children : n'.children = n.children
  live : v.live id → n' = n
  out : v.out id → n.commentedOut = true ∧ n'.commentedOut = true
  /-- Whoever looks at all of a node looks at all of its parent. -/
  up : v.live id → ∀ p ∈ n.parent, v.live p

structure Placement.Alike (v : View) (p p' : Placement α) : Prop where
  id : p'.id = p.id
  live : v.live p.id → p' = p

theorem Node.Alike.placed {n n' : Node α} {p p' : Placement α} (h : Node.Alike v p.id n n')
    (hp : Placement.Alike v p p') : Node.Alike v p.id (n.placed p) (n'.placed p') where
  parent := h.parent
  children := h.children
  live hid := by rw [h.live hid, hp.live hid]
  out := h.out
  up := h.up

namespace Scene
variable {s s' : Scene α}

def Alike (v : View) (s s' : Scene α) : Prop :=
  Matched (Node.Alike v) s s'

namespace Alike

theorem sameLinks (h : Alike v s s') : s.SameLinks s' :=
  h.mono fun _ _ _ hm => ⟨hm.parent, hm.children⟩

theorem place {p p' : Placement α} (h : Alike v s s') (hp : Placement.Alike v p p') :
    Alike v (s.place p) (s'.place p') where
  topLevel := h.topLevel
  node? m := by
    rw [node?_place, node?_place, hp.id]
    rcases h.cases_node? m with ⟨hs, hs'⟩ | ⟨n, n', hs, hs', hm⟩ <;> rw [hs, hs']
    · exact .none
    · refine .some ?_
      split
      · rename_i hid
        subst hid
        exact hm.placed hp
      · exact hm

theorem placeAll {ps ps' : List (Placement α)} (h : Alike v s s')
    (hps : List.Forall₂ (Placement.Alike v) ps ps') :
    Alike v (s.placeAll ps) (s'.placeAll ps') := by
  induction hps generalizing s s' with
  | nil => exact h
  | cons hp _ ih => exact ih (h.place hp)

theorem placements (h : Alike v s s') (id : NodeId) :
    List.Forall₂ (Placement.Alike v) (s.placements id) (s'.placements id) := by
  unfold Scene.placements
  rw [h.sameLinks.subtree_eq]
  induction s.subtree id with
  | nil => exact .nil
  | cons m rest ih =>
    rcases h.cases_node? m with ⟨hs, hs'⟩ | ⟨n, n', hs, hs', hm⟩
    · simpa [hs, hs'] using ih
    · simp only [List.filterMap_cons, hs, hs', Option.map_some]
      refine .cons ⟨rfl, fun hid => ?_⟩ ih
      rw [hm.live hid]

end Alike
end Scene

/-! ### Branches -/

namespace Branch

mutual

/-- A branch of the scene and another one of the same shape, alike at every node. -/
def Alike (v : View) (s : Scene α) : Branch α → Branch α → Prop
  | .mk id n bs, .mk id' n' bs' =>
    id' = id ∧ s.node? id = some n ∧ Node.Alike v id n n' ∧ AlikeBelow v s id bs bs'

def AlikeBelow (v : View) (s : Scene α) (p : NodeId) : List (Branch α) → List (Branch α) → Prop
  | [], [] => True
  | b :: bs, b' :: bs' =>
    b.id ∈ s.children p ∧ Alike v s b b' ∧ AlikeBelow v s p bs bs'
  | _, _ => False

end

variable {s : Scene α}

theorem alike_node {b b' : Branch α} (h : Alike v s b b') :
    b'.id = b.id ∧ Node.Alike v b.id b.node b'.node := by
  cases b
  cases b'
  obtain ⟨hid, _, hn, _⟩ := h
  exact ⟨hid, hn⟩

section
variable [Scalar α]

mutual

theorem alike_relaid (hv : v.Fits s) :
    ∀ {b b' : Branch α} {new new' : Bounds α}, Alike v s b b' → (v.live b.id → new' = new) →
      List.Forall₂ (Placement.Alike v) (b.relaid new) (b'.relaid new')
  | .mk id n bs, .mk _ n' bs', new, new', ⟨rfl, _, hn, hbs⟩, hnew => by
    rw [relaid, relaid]
    refine .cons ⟨rfl, fun hid => ?_⟩ (alike_relaidAll hv hbs fun hid => ?_)
    · rw [hn.live hid, hnew hid]
    · rw [hn.live hid]
      exact ⟨rfl, hnew hid⟩

theorem alike_relaidAll (hv : v.Fits s) :
    ∀ {p : NodeId} {bs bs' : List (Branch α)} {old old' new new' : Bounds α},
      AlikeBelow v s p bs bs' → (v.live p → old' = old ∧ new' = new) →
      List.Forall₂ (Placement.Alike v) (relaidAll old new bs) (relaidAll old' new' bs')
  | _, [], [], _, _, _, _, _, _ => .nil
  | p, .mk id n children :: bs, .mk _ n' children' :: bs', old, old', new, new',
      ⟨hc, ⟨rfl, hs, hn, hbelow⟩, hbs⟩, hp => by
    rw [relaidAll, relaidAll]
    have hb : Alike v s (.mk id n children) (.mk id n' children') := ⟨rfl, hs, hn, hbelow⟩
    refine List.rel_append (alike_relaid hv hb fun hid => ?_) (alike_relaidAll hv hbs hp)
    obtain ⟨hold, hnew⟩ := hp (hv.up hc hid)
    rw [hn.live hid, hold, hnew]

end

end
end Branch

theorem View.Fits.of_sameLinks {s t : Scene α} (hv : v.Fits s) (h : s.SameLinks t) : v.Fits t where
  up {p _} hc := hv.up (h.children_eq p ▸ hc)
  down {p _} hc := hv.down (h.children_eq p ▸ hc)
  top hid := hv.top (h.topLevel ▸ hid)

namespace Scene
variable {s s' : Scene α}

theorem id_of_branchWithin? {levels : Nat} {id : NodeId} {b : Branch α}
    (h : s.branchWithin? levels id = some b) : b.id = id := by
  cases levels with
  | zero => cases h
  | succ levels =>
    obtain ⟨n, _, rfl⟩ := Option.map_eq_some_iff.mp h
    rfl

namespace Alike

/-- The branches of scenes that are alike are alike. -/
theorem branchWithin? (h : Alike v s s') (levels : Nat) (id : NodeId) :
    Option.Rel (Branch.Alike v s) (s.branchWithin? levels id) (s'.branchWithin? levels id) := by
  induction levels generalizing id with
  | zero => exact .none
  | succ levels ih =>
    rw [Scene.branchWithin?, Scene.branchWithin?]
    rcases h.cases_node? id with ⟨hs, hs'⟩ | ⟨n, n', hs, hs', hm⟩ <;> rw [hs, hs']
    · exact .none
    · have hbelow (cs : List NodeId) (hcs : ∀ c ∈ cs, c ∈ s.children id) :
          Branch.AlikeBelow v s id (cs.filterMap (s.branchWithin? levels))
            (cs.filterMap (s'.branchWithin? levels)) := by
        induction cs with
        | nil => trivial
        | cons c rest ihc =>
          obtain ⟨hc, hrest⟩ := List.forall_mem_cons.mp hcs
          rcases rel_cases (ih c) with ⟨hb, hb'⟩ | ⟨b, b', hb, hb', hrel⟩
          · rw [List.filterMap_cons_none hb, List.filterMap_cons_none hb']
            exact ihc hrest
          · rw [List.filterMap_cons_some hb, List.filterMap_cons_some hb']
            exact ⟨(id_of_branchWithin? hb).symm ▸ hc, hrel, ihc hrest⟩
      refine .some ⟨rfl, hs, hm, ?_⟩
      rw [hm.children]
      exact hbelow n.children fun c hc => children_of_node? hs ▸ hc

theorem branch? (h : Alike v s s') (id : NodeId) :
    Option.Rel (Branch.Alike v s) (s.branch? id) (s'.branch? id) := by
  rw [Scene.branch?, Scene.branch?, h.size_eq]
  exact h.branchWithin? s.size id

theorem branches (h : Alike v s s') {P : NodeId → Prop} {ids : List NodeId}
    (hids : ∀ id ∈ ids, P id) :
    List.Forall₂ (fun b b' => Branch.Alike v s b b' ∧ P b.id) (s.branches ids)
      (s'.branches ids) := by
  unfold Scene.branches
  induction ids with
  | nil => exact .nil
  | cons id rest ih =>
    obtain ⟨hid, hrest⟩ := List.forall_mem_cons.mp hids
    rcases rel_cases (h.branch? id) with ⟨hb, hb'⟩ | ⟨b, b', hb, hb', hrel⟩
    · rw [List.filterMap_cons_none hb, List.filterMap_cons_none hb']
      exact ih hrest
    · rw [List.filterMap_cons_some hb, List.filterMap_cons_some hb']
      exact .cons ⟨hrel, (id_of_branchWithin? hb).symm ▸ hid⟩ (ih hrest)

/-- What stands directly above a live node is the same in both scenes. -/
theorem parentOf? (h : Alike v s s') {n n' : Node α} (hn : Node.Alike v id n n') (hid : v.live id) :
    s'.parentOf? n = s.parentOf? n := by
  unfold Scene.parentOf?
  cases hp : n.parent with
  | none => rfl
  | some p =>
    have hlive := hn.up hid p hp
    show s'.node? p = s.node? p
    rcases h.cases_node? p with ⟨hs, hs'⟩ | ⟨q, q', hs, hs', hq⟩ <;> rw [hs, hs']
    rw [hq.live hlive]

theorem relayout [Scalar α] (h : Alike v s s') (hv : v.Fits s) (hid : v.live id)
    (width height : α) : Alike v (s.relayout id width height) (s'.relayout id width height) := by
  unfold Scene.relayout
  rcases rel_cases (h.branch? id) with ⟨hb, hb'⟩ | ⟨b, b', hb, hb', hrel⟩ <;> rw [hb, hb']
  · exact h
  · obtain rfl := id_of_branchWithin? hb
    refine h.placeAll (Branch.alike_relaid hv hrel fun hid => ?_)
    rw [(Branch.alike_node hrel).2.live hid]

end Alike
end Scene

/-! ### Elastic scenes -/

structure Resting.Alike (v : View) (r r' : Resting α) : Prop where
  width : r'.width = r.width
  height : r'.height = r.height
  layout : List.Forall₂ (Placement.Alike v) r.layout r'.layout

namespace ElasticScene

/-- The scenes are alike, and so are the resting layouts of the nodes that are looked at. -/
structure Alike (v : View) (t t' : ElasticScene α) : Prop where
  scene : t.scene.Alike v t'.scene
  resting : ∀ {id}, v.live id → Option.Rel (Resting.Alike v) (t.resting.lookup id)
    (t'.resting.lookup id)

variable {t t' : ElasticScene α}

theorem Alike.of_atRest (h : t.scene.Alike v t'.scene) (ht : t.AtRest) (ht' : t'.AtRest) :
    Alike v t t' where
  scene := h
  resting _ := by
    rw [show t.resting = [] from ht, show t'.resting = [] from ht']
    exact .none

theorem Alike.restingOf (h : Alike v t t') {n : Node α} (hid : v.live id) :
    Resting.Alike v (t.restingOf id n) (t'.restingOf id n) := by
  unfold ElasticScene.restingOf
  rcases rel_cases (h.resting hid) with ⟨hr, hr'⟩ | ⟨r, r', hr, hr', hrel⟩ <;> rw [hr, hr']
  · exact ⟨rfl, rfl, h.scene.placements id⟩
  · exact hrel

/-- Resizing a node that is looked at keeps elastic scenes alike. -/
theorem Alike.resize [Scalar α] (h : Alike v t t') (hv : v.Fits t.scene) (hid : v.live id)
    (width height : α) : Alike v (t.resize id width height) (t'.resize id width height) := by
  unfold ElasticScene.resize
  rcases h.scene.cases_node? id with ⟨hs, hs'⟩ | ⟨n, n', hs, hs', hm⟩ <;> rw [hs, hs']
  · exact h
  · obtain rfl := hm.live hid
    obtain ⟨hwidth, hheight, hlayout⟩ := h.restingOf hid (n := n')
    have hsettled := h.scene.placeAll hlayout
    have hothers {m : NodeId} (hm : v.live m) : Option.Rel (Resting.Alike v)
        ((t.resting.filter (·.1 != id)).lookup m) ((t'.resting.filter (·.1 != id)).lookup m) := by
      rw [lookup_filter, lookup_filter]
      split
      · exact .none
      · exact h.resting hm
    dsimp only
    rw [hwidth, hheight]
    split
    · exact ⟨hsettled, hothers⟩
    · have hlinks := t.scene.relaid_placeAll (t.restingOf id n').layout
      refine ⟨hsettled.relayout (hv.of_sameLinks hlinks.sameLinks) hid width height, ?_⟩
      intro m hm
      by_cases heq : m = id
      · subst heq
        rw [List.lookup_cons_self, List.lookup_cons_self]
        exact .some ⟨hwidth, hheight, hlayout⟩
      · have hne : (m == id) = false := by simpa using heq
        rw [List.lookup_cons, List.lookup_cons, hne]
        exact hothers hm

end ElasticScene
end DesignLayout
