import DesignLayout.Proofs.Resizing

/-! Scenes under change.

A scene comes about by changes: inserts, shifts and resizes, one after the other. Of one branch only
a few of them can alter anything. Unless a node is inserted below its uppermost node, the branch
keeps its nodes, perhaps at other places (`BranchRelaid`, `branchRelaid_changeAll`); a change that
is made apart from the branch leaves it just as it is (`node?_changeAll_of_apart`). The resting
layout of a node is written down when the node is resized at rest, and is kept as it is until the
node rests again (`lookup_change`); it is the layout of nodes of its branch only
(`Built.keepsWithin`). -/
namespace DesignLayout

variable {α : Type}

namespace Scene
variable {s t u : Scene α} {id m : NodeId}

/-- The branch of `id` has in `t` the nodes that it has in `s`, perhaps at other places. -/
structure BranchRelaid (id : NodeId) (s t : Scene α) : Prop where
  within : ∀ m, t.Within m id ↔ s.Within m id
  moved : ∀ m n, s.Within m id → s.node? m = some n → ∃ k, t.node? m = some k ∧ n.Moved k

namespace BranchRelaid

theorem refl (id : NodeId) (s : Scene α) : BranchRelaid id s s :=
  ⟨fun _ => .rfl, fun _ n _ hn => ⟨n, hn, .refl n⟩⟩

theorem trans (h : BranchRelaid id s t) (h' : BranchRelaid id t u) : BranchRelaid id s u where
  within m := (h'.within m).trans (h.within m)
  moved m n hm hn := by
    obtain ⟨k, hk, hnk⟩ := h.moved m n hm hn
    obtain ⟨l, hl, hkl⟩ := h'.moved m k ((h.within m).mpr hm) hk
    exact ⟨l, hl, hnk.trans hkl⟩

end BranchRelaid

theorem Relaid.branchRelaid (h : s.Relaid t) (id : NodeId) : BranchRelaid id s t where
  within m := h.sameLinks.within_iff m id
  moved _ _ _ hn := h.exists_node? hn

theorem branchRelaid_insert (hf : s.IsForest) {parent : Option NodeId} (d : Draft α)
    (hp : ∀ p ∈ parent, p < s.size) (hid : id < s.size) (hout : ∀ p ∈ parent, ¬ s.Within p id) :
    BranchRelaid id s (s.insert parent d) where
  within m := by
    rw [within_insert hf d hp hid, or_iff_left]
    rintro ⟨-, p, hpp, hw⟩
    exact hout p hpp hw
  moved m n hm hn :=
    ⟨n, (node?_insert_of_within d hp hid hout hm).trans hn, .refl n⟩

end Scene

/-! ### Changes -/

/-- One of the changes by which scenes come about. -/
inductive Change (α : Type)
  | insert (parent : Option NodeId) (d : Draft α)
  | shift (id : NodeId) (dx dy : α)
  | resize (id : NodeId) (width height : α)

namespace ElasticScene
variable [Scalar α] {t : ElasticScene α} {id m : NodeId}

def change (t : ElasticScene α) : Change α → ElasticScene α
  | .insert parent d => t.insert parent d
  | .shift id dx dy => t.shift id dx dy
  | .resize id width height => t.resize id width height

def changeAll (t : ElasticScene α) (cs : List (Change α)) : ElasticScene α :=
  cs.foldl change t

theorem changeAll_append (t : ElasticScene α) (cs ds : List (Change α)) :
    t.changeAll (cs ++ ds) = (t.changeAll cs).changeAll ds :=
  List.foldl_append

/-- Every change is such a one in the scene in which it is made. -/
def Along (P : ElasticScene α → Change α → Prop) : ElasticScene α → List (Change α) → Prop
  | _, [] => True
  | t, c :: cs => P t c ∧ Along P (t.change c) cs

theorem along_append {P : ElasticScene α → Change α → Prop} {cs ds : List (Change α)} :
    Along P t (cs ++ ds) ↔ Along P t cs ∧ Along P (t.changeAll cs) ds := by
  induction cs generalizing t with
  | nil => exact (and_iff_right trivial).symm
  | cons c cs ih =>
    show P t c ∧ Along P (t.change c) (cs ++ ds) ↔
      (P t c ∧ Along P (t.change c) cs) ∧ Along P ((t.change c).changeAll cs) ds
    rw [ih, and_assoc]

theorem Along.mono {P Q : ElasticScene α → Change α → Prop} (hPQ : ∀ t c, P t c → Q t c)
    {cs : List (Change α)} (h : Along P t cs) : Along Q t cs := by
  induction cs generalizing t with
  | nil => trivial
  | cons c cs ih => exact ⟨hPQ t c h.1, ih h.2⟩

/-- The change is an insert under a node that is there, or it is none. -/
def Fits (t : ElasticScene α) : Change α → Prop
  | .insert parent _ => ∀ p ∈ parent, p < t.scene.size
  | _ => True

theorem Built.change (h : t.Built) {c : Change α} (hc : t.Fits c) : (t.change c).Built := by
  cases c with
  | insert parent d => exact h.insert parent d hc
  | shift id dx dy => exact h.shift id dx dy
  | resize id width height => exact h.resize id width height

theorem Built.changeAll (h : t.Built) {cs : List (Change α)} (hcs : Along Fits t cs) :
    (t.changeAll cs).Built := by
  induction cs generalizing t with
  | nil => exact h
  | cons c cs ih => exact ih (h.change hcs.1) hcs.2

/-- The change puts a node below `id`. -/
def AddsBelow (id : NodeId) (t : ElasticScene α) : Change α → Prop
  | .insert parent _ => ∃ p ∈ parent, t.scene.Within p id
  | _ => False

theorem branchRelaid_change (h : t.Built) (hid : id < t.scene.size) {c : Change α}
    (hc : t.Fits c) (hadds : ¬ AddsBelow id t c) :
    Scene.BranchRelaid id t.scene (t.change c).scene := by
  cases c with
  | insert parent d =>
    exact Scene.branchRelaid_insert h.isForest d hc hid fun p hp hw => hadds ⟨p, hp, hw⟩
  | shift x dx dy => exact (Scene.relaid_shift t.scene x dx dy).branchRelaid id
  | resize x width height => exact (t.relaid_resize x width height).branchRelaid id

theorem size_le_change (t : ElasticScene α) (c : Change α) :
    t.scene.size ≤ (t.change c).scene.size := by
  cases c with
  | insert parent d => simp [change, insert]
  | shift x dx dy => exact Nat.le_of_eq (Scene.relaid_shift t.scene x dx dy).size_eq.symm
  | resize x width height => exact Nat.le_of_eq (t.relaid_resize x width height).size_eq.symm

theorem size_le_changeAll (t : ElasticScene α) (cs : List (Change α)) :
    t.scene.size ≤ (t.changeAll cs).scene.size := by
  induction cs generalizing t with
  | nil => exact Nat.le_refl _
  | cons c cs ih => exact Nat.le_trans (size_le_change t c) (ih (t.change c))

/-- As long as nothing is put below `id`, its branch keeps its nodes. -/
theorem branchRelaid_changeAll (h : t.Built) (hid : id < t.scene.size) {cs : List (Change α)}
    (hcs : Along Fits t cs) (hadds : Along (fun t c => ¬ AddsBelow id t c) t cs) :
    Scene.BranchRelaid id t.scene (t.changeAll cs).scene := by
  induction cs generalizing t with
  | nil => exact .refl id t.scene
  | cons c cs ih =>
    have hlt := Nat.lt_of_lt_of_le hid (size_le_change t c)
    exact (branchRelaid_change h hid hcs.1 hadds.1).trans
      (ih (h.change hcs.1) hlt hcs.2 hadds.2)

/-! ### Resting layouts -/

/-- What is kept of the node when it is resized at rest. -/
def present (t : ElasticScene α) (id : NodeId) (n : Node α) : Resting α :=
  ⟨n.bounds.width, n.bounds.height, t.scene.placements id⟩

/-- A change alters what is kept of a node only when it resizes the node: the node rests, or what is
kept is the layout before its first resize. -/
theorem lookup_change (t : ElasticScene α) (c : Change α) (id : NodeId) :
    (t.change c).resting.lookup id = none ∨
    (t.change c).resting.lookup id = t.resting.lookup id ∨
    t.resting.lookup id = none ∧ ∃ n, t.scene.node? id = some n ∧
      (t.change c).resting.lookup id = some (t.present id n) := by
  cases c with
  | insert parent d => exact .inr (.inl rfl)
  | shift x dx dy => exact .inr (.inl rfl)
  | resize x width height =>
    simp only [change, resize]
    cases hx : t.scene.node? x with
    | none => exact .inr (.inl rfl)
    | some n =>
      by_cases hid : id = x
      · subst hid
        dsimp only
        split
        · exact .inl (by rw [lookup_filter, if_pos rfl])
        · rw [List.lookup_cons_self, restingOf]
          cases hkept : t.resting.lookup id with
          | none => exact .inr (.inr ⟨rfl, n, hx, rfl⟩)
          | some r => exact .inr (.inl rfl)
      · have hne : (id == x) = false := by simpa using hid
        have hothers : (t.resting.filter (·.1 != x)).lookup id = t.resting.lookup id := by
          rw [lookup_filter, if_neg hid]
        dsimp only
        split
        · exact .inr (.inl hothers)
        · exact .inr (.inl (by rw [List.lookup_cons, hne, hothers]))

theorem within_change (h : t.Built) {c : Change α} (hc : t.Fits c) (hid : id < t.scene.size)
    (hm : t.scene.Within m id) : (t.change c).scene.Within m id := by
  cases c with
  | insert parent d => exact (Scene.within_insert h.isForest d hc hid).mpr (.inl hm)
  | shift x dx dy => exact ((Scene.relaid_shift t.scene x dx dy).sameLinks.within_iff m id).mpr hm
  | resize x width height => exact ((t.relaid_resize x width height).sameLinks.within_iff m id).mpr hm

/-- What is kept of a node is the layout of nodes in its branch. -/
structure KeepsWithin (t : ElasticScene α) (id : NodeId) (r : Resting α) : Prop where
  lt_size : id < t.scene.size
  within : ∀ p ∈ r.layout, t.scene.Within p.id id

theorem KeepsWithin.change {r : Resting α} (h : t.KeepsWithin id r) (hbuilt : t.Built)
    {c : Change α} (hc : t.Fits c) : (t.change c).KeepsWithin id r where
  lt_size := Nat.lt_of_lt_of_le h.lt_size (size_le_change t c)
  within p hp := within_change hbuilt hc h.lt_size (h.within p hp)

theorem keepsWithin_present (hbuilt : t.Built) {n : Node α} (hn : t.scene.node? id = some n) :
    t.KeepsWithin id (t.present id n) where
  lt_size := Scene.lt_size_of_node? hn
  within p hp := by
    obtain ⟨m, hm, _, _, rfl⟩ := Scene.mem_placements.mp hp
    exact (hbuilt.isForest.mem_subtree (Scene.lt_size_of_node? hn)).mp hm

theorem Built.keepsWithin (h : t.Built) {r : Resting α} (hr : t.resting.lookup id = some r) :
    t.KeepsWithin id r := by
  have step {t : ElasticScene α} (h : t.Built) {c : Change α} (hc : t.Fits c)
      (ih : ∀ r, t.resting.lookup id = some r → t.KeepsWithin id r) (r : Resting α)
      (hr : (t.change c).resting.lookup id = some r) : (t.change c).KeepsWithin id r := by
    rcases lookup_change t c id with hnone | hsame | ⟨-, n, hn, hpresent⟩
    · rw [hr] at hnone
      cases hnone
    · exact (ih r (hsame ▸ hr)).change h hc
    · obtain rfl := Option.some.inj (hpresent.symm.trans hr)
      exact (keepsWithin_present h hn).change h hc
  induction h generalizing r with
  | empty => cases hr
  | insert h parent d hp ih => exact step (c := .insert parent d) h hp (fun r => ih) r hr
  | shift h x dx dy ih => exact step (c := .shift x dx dy) h trivial (fun r => ih) r hr
  | resize h x width height ih =>
    exact step (c := .resize x width height) h trivial (fun r => ih) r hr

theorem keepsWithin_restingOf (h : t.Built) {n : Node α} (hn : t.scene.node? id = some n) :
    t.KeepsWithin id (t.restingOf id n) := by
  unfold restingOf
  cases hr : t.resting.lookup id with
  | none => exact keepsWithin_present h hn
  | some r => exact h.keepsWithin hr

/-! ### Changes apart from a branch -/

/-- The change touches no node of the branch of `id`, and no node above it. -/
def Apart (id : NodeId) (t : ElasticScene α) : Change α → Prop
  | .insert parent _ => ∀ p ∈ parent, ¬ t.scene.Within p id
  | .shift x _ _ | .resize x _ _ => ¬ t.scene.Within x id ∧ ¬ t.scene.Within id x

omit [Scalar α] in
theorem Apart.not_addsBelow {c : Change α} (h : Apart id t c) : ¬ AddsBelow id t c := by
  cases c with
  | insert parent d =>
    rintro ⟨p, hp, hw⟩
    exact h p hp hw
  | shift x dx dy => exact not_false
  | resize x width height => exact not_false

theorem node?_shift_of_not_within (hf : t.scene.IsForest) {x : NodeId} (dx dy : α)
    (hm : ¬ t.scene.Within m x) : (t.shift x dx dy).scene.node? m = t.scene.node? m := by
  refine Scene.node?_placeAll_of_notMem t.scene fun p hp hpm => hm ?_
  obtain ⟨q, hq, rfl⟩ := List.mem_map.mp hp
  obtain ⟨m', hm', _, _, rfl⟩ := Scene.mem_placements.mp hq
  obtain rfl : m' = m := hpm
  exact hf.within_of_mem_subtree hm'

theorem node?_resize_of_not_within (h : t.Built) {x : NodeId} (width height : α)
    (hm : ¬ t.scene.Within m x) : (t.resize x width height).scene.node? m = t.scene.node? m := by
  unfold resize
  cases hx : t.scene.node? x with
  | none => rfl
  | some n =>
    have hlayout := (keepsWithin_restingOf h hx).within
    have hsettled : (t.scene.placeAll (t.restingOf x n).layout).node? m = t.scene.node? m :=
      Scene.node?_placeAll_of_notMem t.scene fun p hp hpm => hm (hpm ▸ hlayout p hp)
    have hlinks := (t.scene.relaid_placeAll (t.restingOf x n).layout).sameLinks
    dsimp only
    split
    · exact hsettled
    · rw [Scene.node?_relayout_of_notMem (hlinks.isForest h.isForest), hsettled]
      rw [hlinks.subtree_eq]
      exact fun hmem => hm (h.isForest.within_of_mem_subtree hmem)

theorem node?_change_of_apart (h : t.Built) {c : Change α} (hc : t.Fits c) (hid : id < t.scene.size)
    (hapart : Apart id t c) (hm : t.scene.Within m id) :
    (t.change c).scene.node? m = t.scene.node? m := by
  -- A node in both branches would put one of the uppermost nodes below the other one.
  have hout {x : NodeId} (hx : ¬ t.scene.Within x id ∧ ¬ t.scene.Within id x) :
      ¬ t.scene.Within m x := fun hw => (hm.total hw).elim hx.2 hx.1
  cases c with
  | insert parent d => exact Scene.node?_insert_of_within d hc hid hapart hm
  | shift x dx dy => exact node?_shift_of_not_within h.isForest dx dy (hout hapart)
  | resize x width height => exact node?_resize_of_not_within h width height (hout hapart)

/-- Changes apart from a branch leave all its nodes as they are. -/
theorem node?_changeAll_of_apart (h : t.Built) {cs : List (Change α)} (hcs : Along Fits t cs)
    (hid : id < t.scene.size) (hapart : Along (Apart id) t cs) (hm : t.scene.Within m id) :
    (t.changeAll cs).scene.node? m = t.scene.node? m := by
  induction cs generalizing t with
  | nil => rfl
  | cons c cs ih =>
    have hwithin := within_change h hcs.1 hid hm
    have hlt := Nat.lt_of_lt_of_le hid (size_le_change t c)
    exact (ih (h.change hcs.1) hcs.2 hlt hapart.2 hwithin).trans
      (node?_change_of_apart h hcs.1 hid hapart.1 hm)

end ElasticScene
end DesignLayout
