import DesignLayout.Proofs.Finding
import DesignLayout.Proofs.Mirroring
import DesignLayout.Proofs.Settling
import Mathlib.Logic.Function.Iterate

/-! What the walks over a scene come to, and why they end.

A run of changes leaves an arena in which node number `k` is the one of the `k`-th insert
(`ElasticScene.node?_changeAll_inserts`), and every node is listed in one place
(`Scene.IsForest.listedOnce`). Two loops go over it. One keeps the nodes that are still to be
visited on a stack: what it has found, followed by the subtrees of what is pending, is the same
after every turn (`Scene.IsForest.turns`), so it ends when it has found the subtree. The other one
climbs to the parent until it comes to an artboard (`Scene.IsForest.climbs`). The other passes
recurse on branches, which are the same subtrees once more (`Scene.IsForest.passedOver`). All of it,
for every run, is `ElasticScene.runs_are_walkable`. -/
namespace DesignLayout

variable {α : Type}

namespace Scene
variable {s : Scene α}

/-! ### Lists of children -/

/-- Every node has a smaller number than those below it, and is listed under its parent, or at the
top, once and nowhere else; all lists are in the order of the numbers. -/
structure ListedOnce (s : Scene α) : Prop where
  parent_lt : ∀ {k p : Nat} {n : Node α}, s.node? k = some n → n.parent = some p → p < k
  count_topLevel : ∀ {k n}, s.node? k = some n →
    s.topLevel.count k = if n.parent = none then 1 else 0
  count_children : ∀ {k n}, s.node? k = some n → ∀ p,
    (s.children p).count k = if n.parent = some p then 1 else 0
  lt_size_of_topLevel : ∀ k ∈ s.topLevel, k < s.size
  lt_size_of_children : ∀ p, ∀ k ∈ s.children p, k < s.size
  topLevel_ascending : s.topLevel.Pairwise (· < ·)
  children_ascending : ∀ p, (s.children p).Pairwise (· < ·)

theorem count_eq_ite_of_ascending {ids : List Nat} (h : ids.Pairwise (· < ·)) {k : Nat} {P : Prop}
    [Decidable P] (hk : k ∈ ids ↔ P) : ids.count k = if P then 1 else 0 := by
  have hnodup : ids.Nodup := h.imp fun hlt => Nat.ne_of_lt hlt
  split
  · exact List.count_eq_one_of_mem hnodup (hk.mpr ‹P›)
  · exact List.count_eq_zero_of_not_mem fun hmem => ‹¬ P› (hk.mp hmem)

/-- Nodes that are there have branches, all of them. -/
theorem map_id_branches_of_lt {ids : List NodeId} (h : ∀ id ∈ ids, id < s.size) :
    (s.branches ids).map (·.id) = ids := by
  rw [map_id_branches, List.filter_eq_self]
  intro id hid
  obtain ⟨n, hn⟩ := node?_isSome (h id hid)
  rw [hn]
  rfl

namespace IsForest
variable (hf : s.IsForest)
include hf

theorem listedOnce : s.ListedOnce where
  parent_lt hn hp := hf.parent_lt ⟨_, hn, hp⟩
  count_topLevel {k n} hn := by
    refine count_eq_ite_of_ascending hf.topLevel_ascending ?_
    simp [hf.mem_topLevel, hn]
  count_children {k n} hn p := by
    refine count_eq_ite_of_ascending (hf.children_ascending p) ?_
    simp [hf.mem_children, ChildOf, hn]
  lt_size_of_topLevel _ := hf.lt_size_of_mem_topLevel
  lt_size_of_children _ _ := hf.lt_size_of_mem_children
  topLevel_ascending := hf.topLevel_ascending
  children_ascending := hf.children_ascending

/-! ### Down from a node -/

theorem preorderAll_branches {ids : List NodeId} (h : ∀ id ∈ ids, id < s.size) :
    Branch.preorderAll (s.branches ids) = ids.flatMap s.subtree := by
  induction ids with
  | nil => rfl
  | cons id rest ih =>
    obtain ⟨n, hn⟩ := node?_isSome (h id List.mem_cons_self)
    rw [hf.branches_cons hn, Branch.preorderAll, ih fun m hm => h m (List.mem_cons_of_mem id hm),
      List.flatMap_cons, hf.subtree_eq (hf.branch?_of_node? hn)]

/-- A subtree is its uppermost node and then the subtrees of its children, one after the other. -/
theorem subtree_eq_cons {id : NodeId} (hid : id < s.size) :
    s.subtree id = id :: (s.children id).flatMap s.subtree := by
  obtain ⟨n, hn⟩ := node?_isSome hid
  rw [hf.subtree_eq (hf.branch?_of_node? hn), Branch.preorder, ← children_of_node? hn,
    hf.preorderAll_branches fun c hc => hf.lt_size_of_mem_children hc]

/-- Going from node to child comes to an end. -/
theorem wellFounded_children : WellFounded fun c p : NodeId => c ∈ s.children p := by
  refine Subrelation.wf ?_ (measure fun id : Nat => s.size - id).wf
  intro c p hc
  have := hf.lt_of_mem_children hc
  have := hf.lt_size_of_mem_children hc
  show s.size - c < s.size - p
  omega

end IsForest

/-- A walk with a stack: the nodes that are still to be visited, the next one on top, and those that
were found. -/
structure Sweep where
  pending : List NodeId
  found : List NodeId

/-- One turn of the walk: the next node is found, and its children take its place on the stack. -/
def turn (s : Scene α) : Sweep → Sweep
  | ⟨[], found⟩ => ⟨[], found⟩
  | ⟨id :: pending, found⟩ => ⟨s.children id ++ pending, found ++ [id]⟩

/-- So many turns find what so many steps of the walk come to, in any scene. -/
theorem found_turns (s : Scene α) (k : Nat) (w : Sweep) :
    (s.turn^[k] w).found = w.found ++ s.walk k w.pending := by
  induction k generalizing w with
  | zero => rw [walk, List.append_nil]; rfl
  | succ k ih =>
    obtain ⟨pending, found⟩ := w
    rw [Function.iterate_succ_apply, ih]
    cases pending with
    | nil => cases k <;> rfl
    | cons id pending => rw [turn, walk, List.append_assoc, List.singleton_append]

namespace IsForest
variable (hf : s.IsForest)
include hf

theorem lt_size_of_turn {w : Sweep} (h : ∀ id ∈ w.pending, id < s.size) :
    ∀ id ∈ (s.turn w).pending, id < s.size := by
  obtain ⟨pending, found⟩ := w
  cases pending with
  | nil => exact h
  | cons id pending =>
    intro m hm
    rcases List.mem_append.mp hm with hm | hm
    · exact hf.lt_size_of_mem_children hm
    · exact h m (List.mem_cons_of_mem id hm)

/-- A turn takes one node off what is still to come. -/
theorem subtrees_turn {w : Sweep} (h : ∀ id ∈ w.pending, id < s.size) :
    (s.turn w).found ++ (s.turn w).pending.flatMap s.subtree =
      w.found ++ w.pending.flatMap s.subtree ∧
    (s.turn w).pending.flatMap s.subtree = (w.pending.flatMap s.subtree).tail := by
  obtain ⟨pending, found⟩ := w
  cases pending with
  | nil => exact ⟨rfl, rfl⟩
  | cons id pending =>
    simp only [turn, List.flatMap_cons, hf.subtree_eq_cons (h id List.mem_cons_self)]
    exact ⟨by simp, by simp⟩

/-- What was found and what is still to come are together the same after every turn, and `k` turns
take `k` nodes off what is still to come. -/
theorem turns (k : Nat) {w : Sweep} (h : ∀ id ∈ w.pending, id < s.size) :
    (∀ id ∈ (s.turn^[k] w).pending, id < s.size) ∧
      (s.turn^[k] w).found ++ (s.turn^[k] w).pending.flatMap s.subtree =
        w.found ++ w.pending.flatMap s.subtree ∧
      (s.turn^[k] w).pending.flatMap s.subtree = (w.pending.flatMap s.subtree).drop k := by
  induction k with
  | zero => exact ⟨h, rfl, rfl⟩
  | succ k ih =>
    obtain ⟨hlt, hall, hcome⟩ := ih
    obtain ⟨hall', hcome'⟩ := hf.subtrees_turn hlt
    rw [Function.iterate_succ_apply']
    refine ⟨hf.lt_size_of_turn hlt, hall'.trans hall, ?_⟩
    rw [hcome', hcome, List.tail_drop]

/-- Nothing is pending as soon as nothing is still to come. -/
theorem pending_eq_nil_iff {ids : List NodeId} (h : ∀ id ∈ ids, id < s.size) :
    ids.flatMap s.subtree = [] ↔ ids = [] := by
  cases ids with
  | nil => exact iff_of_true rfl rfl
  | cons id rest =>
    rw [List.flatMap_cons, hf.subtree_eq_cons (h id List.mem_cons_self)]
    exact iff_of_false nofun nofun

end IsForest

/-- What the walk down from a node comes to. The turns find what the walk's steps come to, the stack
is empty after as many turns as the subtree has nodes, and not before, and then the subtree was
found. That is the node and then, child by child, the subtrees of its children; it holds the node
and all that is below it, and each of them once. -/
structure WalkedDown (s : Scene α) (id : NodeId) : Prop where
  steps : ∀ k, (s.turn^[k] ⟨[id], []⟩).found = s.walk k [id]
  ends : ∀ k, (s.turn^[k] ⟨[id], []⟩).pending = [] ↔ (s.subtree id).length ≤ k
  found : ∀ k, (s.turn^[k] ⟨[id], []⟩).pending = [] → (s.turn^[k] ⟨[id], []⟩).found = s.subtree id
  inOrder : s.subtree id = id :: (s.children id).flatMap s.subtree
  preorder : ∃ b, s.branch? id = some b ∧ s.subtree id = b.preorder
  mem : ∀ m, m ∈ s.subtree id ↔ s.Within m id
  nodup : (s.subtree id).Nodup

theorem IsForest.walkedDown (hf : s.IsForest) {id : NodeId} (hid : id < s.size) :
    s.WalkedDown id := by
  have hstart : ∀ m ∈ (Sweep.mk [id] []).pending, m < s.size := by simpa using hid
  have hstack (k : Nat) : (s.turn^[k] ⟨[id], []⟩).pending = [] ↔ (s.subtree id).length ≤ k := by
    obtain ⟨hlt, -, hcome⟩ := hf.turns k hstart
    rw [← hf.pending_eq_nil_iff hlt, hcome]
    simp
  obtain ⟨n, hn⟩ := node?_isSome hid
  have hb := hf.branch?_of_node? hn
  refine ⟨fun k => s.found_turns k _, hstack, fun k hk => ?_, hf.subtree_eq_cons hid,
    ⟨_, hb, hf.subtree_eq hb⟩, fun m => hf.mem_subtree hid, hf.nodup_subtree hid⟩
  obtain ⟨-, hall, -⟩ := hf.turns k hstart
  simpa [hk] using hall

/-! ### Up from a node -/

/-- One turn of the climb to an artboard: from any other node to its parent. -/
def climb (s : Scene α) : Option NodeId → Option NodeId
  | none => none
  | some id => (s.node? id).bind fun n => if n.kind = .artboard then some id else n.parent

theorem climb_iterate_none (s : Scene α) (k : Nat) : s.climb^[k] none = none :=
  Function.iterate_fixed rfl k

theorem climb_iterate_of_isArtboard {id : NodeId} (h : s.IsArtboard id) (k : Nat) :
    s.climb^[k] (some id) = some id := by
  obtain ⟨n, hn, hkind⟩ := h
  exact Function.iterate_fixed (by simp [climb, hn, hkind]) k

/-- The artboard that is found is the lowest one at or above the node. -/
theorem within_of_nearest {levels : Nat} {id a b : NodeId}
    (h : s.artboardWithin? levels id = some a) (hb : s.IsArtboard b) (hw : s.Within id b) :
    s.Within a b := by
  induction levels generalizing id with
  | zero => cases h
  | succ levels ih =>
    rcases cases_artboardWithin? h with ⟨-, rfl⟩ | ⟨hother, p, hp, ha⟩
    · exact hw
    · rcases Relation.ReflTransGen.cases_head hw with rfl | ⟨q, hq, hqb⟩
      · exact absurd hb hother
      · rw [← hp.unique hq] at hqb
        exact ih ha hqb

namespace IsForest
variable (hf : s.IsForest)
include hf

/-- After more turns than the node has nodes before it the climb is over. -/
theorem climbs {k levels id : Nat} (hk : id < k) (hlevels : id < levels) :
    s.climb^[k] (some id) = s.artboardWithin? levels id := by
  induction id using Nat.strongRecOn generalizing k levels with
  | _ id ih =>
    obtain ⟨k, rfl⟩ := Nat.exists_eq_add_one_of_ne_zero (Nat.ne_zero_of_lt hk)
    obtain ⟨levels, rfl⟩ := Nat.exists_eq_add_one_of_ne_zero (Nat.ne_zero_of_lt hlevels)
    rw [artboardWithin?]
    cases hn : s.node? id with
    | none => rw [Function.iterate_succ_apply, climb, hn, Option.bind_none, climb_iterate_none]
    | some n =>
      dsimp only
      split
      · exact climb_iterate_of_isArtboard ⟨n, hn, ‹_›⟩ (k + 1)
      · rw [Function.iterate_succ_apply, climb, hn, Option.bind_some, if_neg ‹_›]
        cases hp : n.parent with
        | none => exact climb_iterate_none s k
        | some p =>
          have hlt := hf.parent_lt ⟨n, hn, hp⟩
          exact ih p hlt (by omega) (by omega)

end IsForest

/-- What the climb from a node comes to: it is over after as many turns as the node's number says
and one more. It has found an artboard at or above the node exactly when there is one, and then the
one that stands within all the others. -/
structure ClimbedUp (s : Scene α) (id : NodeId) : Prop where
  ends : ∀ k, id < k → s.climb^[k] (some id) = s.enclosingArtboard? id
  nearest : ∀ a, s.enclosingArtboard? id = some a ↔
    s.IsArtboard a ∧ s.Within id a ∧ ∀ b, s.IsArtboard b → s.Within id b → s.Within a b
  none : s.enclosingArtboard? id = none ↔ ∀ b, s.IsArtboard b → ¬ s.Within id b

theorem IsForest.climbedUp (hf : s.IsForest) {id : NodeId} (hid : id < s.size) :
    s.ClimbedUp id := by
  refine ⟨fun k hk => hf.climbs hk hid, fun a => ⟨fun h => ?_, ?_⟩, fun h b hb hw => ?_, ?_⟩
  · obtain ⟨hboard, hw⟩ := within_of_artboardWithin? h
    exact ⟨hboard, hw, fun b => within_of_nearest h⟩
  · rintro ⟨ha, hw, hleast⟩
    obtain ⟨b, hb⟩ := hf.exists_artboardWithin? ha hw hid
    obtain ⟨hboard, hwb⟩ := within_of_artboardWithin? hb
    rw [hf.within_antisymm (hleast b hboard hwb) (within_of_nearest hb ha hw)]
    exact hb
  · obtain ⟨c, hc⟩ := hf.exists_artboardWithin? hb hw hid
    rw [enclosingArtboard?, hc] at h
    cases h
  · intro h
    cases ha : s.enclosingArtboard? id with
    | none => rfl
    | some a =>
      obtain ⟨hboard, hw⟩ := within_of_artboardWithin? ha
      exact absurd hw (h a hboard)

/-! ### What recurses on branches -/

variable [Scalar α]

/-- What the passes over the branch of a node go through. The search for roots finds nodes of the
subtree, in its order and none twice; a relayout places each node of it, in its order; and the
compiler goes through all of it, siblings from the last one to the first. -/
structure PassedOver (s : Scene α) (id : NodeId) (b : Branch α) : Prop where
  candidates : ∀ o, ((Roots.candidates s o b).map (·.2)).Sublist (s.subtree id)
  relaid : ∀ new, (b.relaid new).map (·.id) = s.subtree id
  mirrored : (b.mirrored.map (·.id)).Perm (s.subtree id)

theorem IsForest.passedOver (hf : s.IsForest) {id : NodeId} {b : Branch α}
    (hb : s.branch? id = some b) : s.PassedOver id b := by
  constructor <;> rw [hf.subtree_eq hb]
  · exact fun o => Roots.map_snd_candidates_sublist s o b
  · exact fun new => b.map_id_relaid new
  · exact b.mirrored_perm_preorder

/-- A scene over which every walk comes to an end. To go on from a node to its children ends, and a
branch is the node above the branches of all its children: what recurses on branches visits a node
and then all that is below it, and is not cut off. -/
structure Walkable (s : Scene α) : Prop where
  listedOnce : s.ListedOnce
  walkedDown : ∀ id < s.size, s.WalkedDown id
  climbedUp : ∀ id < s.size, s.ClimbedUp id
  children_end : WellFounded fun c p : NodeId => c ∈ s.children p
  branch?_eq : ∀ id, s.branch? id = (s.node? id).map fun n => .mk id n (s.branches n.children)
  map_id_branches : ∀ p, (s.branches (s.children p)).map (·.id) = s.children p
  passedOver : ∀ id b, s.branch? id = some b → s.PassedOver id b

theorem IsForest.walkable (hf : s.IsForest) : s.Walkable where
  listedOnce := hf.listedOnce
  walkedDown _ := hf.walkedDown
  climbedUp _ := hf.climbedUp
  children_end := hf.wellFounded_children
  branch?_eq := hf.branch?_eq
  map_id_branches _ := map_id_branches_of_lt fun _ => hf.lt_size_of_mem_children
  passedOver _ _ := hf.passedOver

end Scene

/-! ### Runs of changes -/

/-- The node is the one of the draft under this number. Nodes may have been put under it, and it may
have been moved. -/
def Draft.Became (d : Draft α) (id : NodeId) (parent : Option NodeId) (n : Node α) : Prop :=
  ∃ children, { d.toNode id parent with children }.Moved n

namespace ElasticScene

/-- What a run of changes inserts: the drafts, each with the parent it is put under. -/
def inserts (cs : List (Change α)) : List (Option NodeId × Draft α) :=
  cs.filterMap fun
    | .insert parent d => some (parent, d)
    | _ => none

theorem inserts_append (cs ds : List (Change α)) : inserts (cs ++ ds) = inserts cs ++ inserts ds :=
  List.filterMap_append

/-- A node that is moved is what it was. -/
theorem became_of_relaid {s u : Scene α} (h : s.Relaid u) {d : Draft α} {id : NodeId}
    {parent : Option NodeId} {n : Node α} (hn : s.node? id = some n) (hd : d.Became id parent n) :
    ∃ k, u.node? id = some k ∧ d.Became id parent k := by
  obtain ⟨k, hk, hmoved⟩ := h.exists_node? hn
  obtain ⟨children, hchildren⟩ := hd
  exact ⟨k, hk, children, hchildren.trans hmoved⟩

variable [Scalar α] {t : ElasticScene α}

/-- A change leaves the nodes what they are. -/
theorem became_change {c : Change α} (hc : t.Fits c) {d : Draft α} {id : NodeId}
    {parent : Option NodeId} {n : Node α} (hn : t.scene.node? id = some n)
    (hd : d.Became id parent n) :
    ∃ k, (t.change c).scene.node? id = some k ∧ d.Became id parent k := by
  cases c with
  | insert p e =>
    have hne : id ≠ t.scene.size := Nat.ne_of_lt (Scene.lt_size_of_node? hn)
    obtain ⟨children, hchildren⟩ := hd
    refine ⟨_, (Scene.node?_insert t.scene e hc id).trans (by rw [if_neg hne, hn]; rfl), ?_⟩
    split
    · exact ⟨children ++ [t.scene.size], by rw [← hchildren]; rfl⟩
    · exact ⟨children, hchildren⟩
  | shift x dx dy => exact became_of_relaid (Scene.relaid_shift t.scene x dx dy) hn hd
  | resize x width height => exact became_of_relaid (t.relaid_resize x width height) hn hd

theorem size_change_inserts (t : ElasticScene α) (c : Change α) :
    (t.change c).scene.size = t.scene.size + (inserts [c]).length := by
  cases c with
  | insert parent d => exact Scene.size_insert t.scene parent d
  | shift x dx dy => exact (Scene.relaid_shift t.scene x dx dy).size_eq
  | resize x width height => exact (t.relaid_resize x width height).size_eq

theorem size_changeAll_inserts (t : ElasticScene α) (cs : List (Change α)) :
    (t.changeAll cs).scene.size = t.scene.size + (inserts cs).length := by
  induction cs generalizing t with
  | nil => rfl
  | cons c cs ih =>
    have hcs : inserts (c :: cs) = inserts [c] ++ inserts cs := inserts_append [c] cs
    rw [hcs, List.length_append, ← Nat.add_assoc, ← size_change_inserts]
    exact ih (t.change c)

/-- The `k`-th insert of a run makes node number `k`. -/
theorem node?_changeAll_inserts {cs : List (Change α)} (hcs : Along Fits .empty cs) {k : Nat}
    {parent : Option NodeId} {d : Draft α} (h : (inserts cs)[k]? = some (parent, d)) :
    ∃ n, (changeAll .empty cs).scene.node? k = some n ∧ d.Became k parent n := by
  induction cs using List.reverseRecOn with
  | nil => cases h
  | append_singleton cs c ih =>
    obtain ⟨hbefore, hc, -⟩ := along_append.mp hcs
    rw [changeAll_append]
    by_cases hk : k < (inserts cs).length
    · -- An earlier insert: its node is there already, and the last change leaves it what it is.
      rw [inserts_append, List.getElem?_append_left hk] at h
      obtain ⟨n, hn, hd⟩ := ih hbefore h
      exact became_change hc hn hd
    · rw [inserts_append, List.getElem?_append_right (Nat.le_of_not_lt hk)] at h
      cases c with
      | insert p e =>
        have hsize : (changeAll .empty cs : ElasticScene α).scene.size = (inserts cs).length :=
          (size_changeAll_inserts .empty cs).trans (Nat.zero_add _)
        obtain ⟨hlast, -⟩ := List.getElem?_eq_some_iff.mp h
        obtain rfl : k = (inserts cs).length := by
          have : k - (inserts cs).length < 1 := hlast
          omega
        obtain ⟨rfl, rfl⟩ : p = parent ∧ e = d := by simpa [inserts] using h
        rw [← hsize]
        exact ⟨_, (Scene.node?_insert _ e hc _).trans (if_pos rfl), [], .refl _⟩
      | shift x dx dy => cases h
      | resize x width height => cases h

/-- For every run of changes that begins with the empty scene and inserts under nodes that are there
only: there are as many nodes as inserts, node number `k` is the one of the `k`-th insert, and all
walks over the scene come to an end and find what they are to find. -/
theorem runs_are_walkable {cs : List (Change α)} (hcs : Along Fits .empty cs) :
    (changeAll .empty cs).scene.size = (inserts cs).length ∧
      (∀ k parent d, (inserts cs)[k]? = some (parent, d) →
        ∃ n, (changeAll .empty cs).scene.node? k = some n ∧ d.Became k parent n) ∧
      (changeAll .empty cs).scene.Walkable := by
  refine ⟨?_, fun k parent d => node?_changeAll_inserts hcs, ?_⟩
  · exact (size_changeAll_inserts .empty cs).trans (Nat.zero_add _)
  · exact (Built.empty.changeAll hcs).isForest.walkable

/-- Two boards of which the second one is made wider, and a dot on it that is moved. -/
theorem two_boards_are_walkable :
    Along Fits .empty (twoBoards ++ [.resize 1 500.0 400.0, .shift 2 5.0 0.0]) ∧
      (changeAll .empty (twoBoards ++ [.resize 1 500.0 400.0, .shift 2 5.0 0.0])).scene.Walkable ∧
      (changeAll .empty (twoBoards ++ [.resize 1 500.0 400.0, .shift 2 5.0 0.0])).scene.preorder =
        [0, 1, 2] := by
  have hfits : Along Fits .empty (twoBoards ++ [.resize 1 500.0 400.0, .shift 2 5.0 0.0]) :=
    along_append.mpr ⟨fits_twoBoards, trivial, trivial, trivial⟩
  obtain ⟨-, -, hwalkable⟩ := runs_are_walkable hfits
  exact ⟨hfits, hwalkable, by decide +kernel⟩

end ElasticScene
end DesignLayout
