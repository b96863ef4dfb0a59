import DesignLayout.Scene.Basic
import Mathlib.Data.List.Nodup
import Mathlib.Data.List.Perm.Subperm
import Mathlib.Logic.Relation

/-! Scenes as forests.

A scene is an arena of nodes, and nothing in its type keeps it from having cycles or from listing a
node twice. `IsForest` says what every scene that is built by inserting has: parents come before
their children, the child lists and the parent links agree, and every list of siblings is ascending.

On a forest the bounds with which the walks are cut off do not show: `branch?_eq` unfolds a branch
by one level, and `induction_branch` goes down it. `subtree_eq` lists exactly the nodes of a branch,
`mem_subtree` says which ones they are, and `nodup_subtree` that none comes twice. -/
namespace DesignLayout

namespace Branch
variable {α : Type}

@[simp] theorem node_mk (id : NodeId) (n : Node α) (bs : List (Branch α)) :
    (mk id n bs).node = n := rfl

@[simp] theorem id_mk (id : NodeId) (n : Node α) (bs : List (Branch α)) :
    (mk id n bs).id = id := rfl

theorem preorderAll_eq (bs : List (Branch α)) : preorderAll bs = bs.flatMap preorder := by
  induction bs with
  | nil => rfl
  | cons b rest ih => rw [preorderAll, ih, List.flatMap_cons]

theorem preorderAll_append (as bs : List (Branch α)) :
    preorderAll (as ++ bs) = preorderAll as ++ preorderAll bs := by
  simp only [preorderAll_eq, List.flatMap_append]

end Branch

namespace Scene
variable {α : Type} {s : Scene α}

theorem lt_size_of_node? {id : Nat} {n : Node α} (h : s.node? id = some n) : id < s.size :=
  (Array.getElem?_eq_some_iff.mp h).1

theorem node?_isSome {id : Nat} (h : id < s.size) : ∃ n, s.node? id = some n :=
  ⟨s.nodes[id], Array.getElem?_eq_some_iff.mpr ⟨h, rfl⟩⟩

theorem node?_eq_none {id : Nat} (h : s.size ≤ id) : s.node? id = none :=
  Array.getElem?_eq_none h

theorem any_node?_iff {p : Node α → Bool} {id : NodeId} :
    (s.node? id).any p = true ↔ ∃ n, s.node? id = some n ∧ p n = true := by
  cases s.node? id <;> simp

theorem children_of_node? {id : NodeId} {n : Node α} (h : s.node? id = some n) :
    s.children id = n.children := by
  rw [children, h]

/-- Two scenes with the same nodes under the same numbers are the same. -/
theorem ext_node? {s t : Scene α} (htop : s.topLevel = t.topLevel)
    (hnode : ∀ id, s.node? id = t.node? id) : s = t := by
  cases s; cases t
  have : _ = _ := Array.ext_getElem? hnode
  simp_all

/-- The node `c` stands directly under `p`. -/
def ChildOf (s : Scene α) (c p : NodeId) : Prop :=
  ∃ n, s.node? c = some n ∧ n.parent = some p

/-- The node `m` is `a` or stands somewhere below it. -/
def Within (s : Scene α) (m a : NodeId) : Prop :=
  Relation.ReflTransGen s.ChildOf m a

structure IsForest (s : Scene α) : Prop where
  parent_lt : ∀ {c p : Nat}, s.ChildOf c p → p < c
  mem_children : ∀ {c p}, c ∈ s.children p ↔ s.ChildOf c p
  children_ascending : ∀ p, (s.children p).Pairwise (· < ·)
  mem_topLevel : ∀ {id}, id ∈ s.topLevel ↔ ∃ n, s.node? id = some n ∧ n.parent = none
  topLevel_ascending : s.topLevel.Pairwise (· < ·)

theorem ChildOf.lt_size {c p : Nat} (h : s.ChildOf c p) : c < s.size := by
  obtain ⟨n, hn, _⟩ := h
  exact lt_size_of_node? hn

/-- A node has at most one parent. -/
theorem ChildOf.unique {c p q : NodeId} (hp : s.ChildOf c p) (hq : s.ChildOf c q) : p = q := by
  obtain ⟨n, hn, hp⟩ := hp
  obtain ⟨m, hm, hq⟩ := hq
  rw [hn] at hm
  cases hm
  exact Option.some.inj (hp.symm.trans hq)

/-- Of two nodes that a node stands below, one is below the other. -/
theorem Within.total {m a b : NodeId} (ha : s.Within m a) (hb : s.Within m b) :
    s.Within a b ∨ s.Within b a :=
  Relation.ReflTransGen.total_of_right_unique (fun _ _ _ => ChildOf.unique) ha hb

theorem Within.lt_size {m a : NodeId} (h : s.Within m a) (ha : a < s.size) : m < s.size := by
  rcases Relation.ReflTransGen.cases_head h with rfl | ⟨p, hp, _⟩
  · exact ha
  · exact hp.lt_size

namespace IsForest

theorem lt_of_mem_children (hf : s.IsForest) {c p : Nat} (h : c ∈ s.children p) : p < c :=
  hf.parent_lt (hf.mem_children.mp h)

theorem lt_size_of_mem_children (hf : s.IsForest) {c p : Nat} (h : c ∈ s.children p) :
    c < s.size :=
  (hf.mem_children.mp h).lt_size

theorem lt_size_of_mem_topLevel (hf : s.IsForest) {id : NodeId} (h : id ∈ s.topLevel) :
    id < s.size := by
  obtain ⟨n, hn, -⟩ := hf.mem_topLevel.mp h
  exact lt_size_of_node? hn

/-- What holds of a node as soon as it holds of its children holds of every node. -/
theorem induction_below (hf : s.IsForest) {motive : NodeId → Prop}
    (step : ∀ id, (∀ c ∈ s.children id, motive c) → motive id) (id : Nat) : motive id := by
  -- Children have larger numbers, and no number reaches the size of the scene.
  induction h : s.size - id using Nat.strongRecOn generalizing id with
  | _ left ih =>
    refine step id fun c hc => ih (s.size - c) ?_ c rfl
    have := hf.lt_of_mem_children hc
    have := hf.lt_size_of_mem_children hc
    omega

/-! ### The walks are never cut off -/

theorem branchWithin?_succ (hf : s.IsForest) (levels id : Nat)
    (h : s.size ≤ id + levels) : s.branchWithin? (levels + 1) id = s.branchWithin? levels id := by
  induction levels generalizing id with
  | zero => rw [branchWithin?, branchWithin?, node?_eq_none (by omega), Option.map_none]
  | succ levels ih =>
    rw [branchWithin?, branchWithin?]
    cases hn : s.node? id with
    | none => rfl
    | some n =>
      simp only [Option.map_some, Option.some.injEq, Branch.mk.injEq, true_and]
      refine List.filterMap_congr fun c hc => ih c ?_
      have hlt : id < c := hf.lt_of_mem_children (by rw [children_of_node? hn]; exact hc)
      omega

/-- The branch of a node is the node above the branches of its children. -/
theorem branch?_eq (hf : s.IsForest) (id : NodeId) :
    s.branch? id = (s.node? id).map fun n => .mk id n (s.branches n.children) := by
  rw [branch?, ← hf.branchWithin?_succ s.size id (Nat.le_add_left ..)]
  rfl

theorem branch?_of_node? (hf : s.IsForest) {id : NodeId} {n : Node α} (h : s.node? id = some n) :
    s.branch? id = some (.mk id n (s.branches n.children)) := by
  rw [hf.branch?_eq, h, Option.map_some]

theorem exists_branch (hf : s.IsForest) {id : NodeId} (h : id < s.size) :
    ∃ b, s.branch? id = some b := by
  obtain ⟨n, hn⟩ := node?_isSome h
  exact ⟨_, hf.branch?_of_node? hn⟩

/-- What holds of a branch as soon as it holds of the branches of the children holds of every
branch of the scene. -/
theorem induction_branch (hf : s.IsForest) {motive : (id : NodeId) → (b : Branch α) →
      s.branch? id = some b → Prop}
    (step : ∀ id n (_ : s.node? id = some n)
      (hb : s.branch? id = some (.mk id n (s.branches (s.children id)))),
      (∀ c ∈ s.children id, ∀ b hb, motive c b hb) → motive id _ hb)
    (id : NodeId) (b : Branch α) (hb : s.branch? id = some b) : motive id b hb := by
  induction id using hf.induction_below generalizing b with
  | step id ih =>
    obtain ⟨n, hn, heq⟩ := Option.map_eq_some_iff.mp (hf.branch?_eq id ▸ hb)
    rw [← children_of_node? hn] at heq
    subst heq
    exact step id n hn hb ih

theorem branches_cons (hf : s.IsForest) {id : NodeId} {n : Node α} (h : s.node? id = some n)
    (rest : List NodeId) :
    s.branches (id :: rest) = .mk id n (s.branches n.children) :: s.branches rest := by
  rw [branches, List.filterMap_cons_some (hf.branch?_of_node? h)]
  rfl

theorem walk_eq_take (hf : s.IsForest) (steps : Nat) (pending : List NodeId)
    (hp : ∀ id ∈ pending, id < s.size) :
    s.walk steps pending = (Branch.preorderAll (s.branches pending)).take steps := by
  induction steps generalizing pending with
  | zero => rw [walk, List.take_zero]
  | succ steps ih =>
    cases pending with
    | nil => rfl
    | cons id pending =>
      obtain ⟨n, hn⟩ := node?_isSome (hp id List.mem_cons_self)
      have hc : s.children id = n.children := children_of_node? hn
      rw [walk, hf.branches_cons hn, Branch.preorderAll, Branch.preorder, List.cons_append,
        List.take_succ_cons, ih, hc, branches, List.filterMap_append, Branch.preorderAll_append]
      · rfl
      · intro c hm
        rcases List.mem_append.mp hm with hm | hm
        · exact hf.lt_size_of_mem_children hm
        · exact hp c (List.mem_cons_of_mem id hm)

/-! ### What is below a node -/

theorem le_of_within (hf : s.IsForest) {m a : Nat} (h : s.Within m a) : a ≤ m := by
  induction h with
  | refl => exact Nat.le_refl m
  | tail _ hc ih => exact Nat.le_trans (Nat.le_of_lt (hf.parent_lt hc)) ih

/-- The branches of two siblings have no node in common. -/
theorem not_within_siblings (hf : s.IsForest) {m a b p : Nat} (hap : s.ChildOf a p)
    (hbp : s.ChildOf b p) (hne : a ≠ b) (ha : s.Within m a) : ¬ s.Within m b := by
  -- Were one of them below the other one, the common parent would be below it too.
  have key : ∀ {c d : Nat}, s.ChildOf c p → s.ChildOf d p → c ≠ d → ¬ s.Within c d := by
    intro c d hc hd hcd h
    rcases Relation.ReflTransGen.cases_head h with rfl | ⟨q, hq, hqd⟩
    · exact hcd rfl
    · rw [← hc.unique hq] at hqd
      have := hf.le_of_within hqd
      have := hf.parent_lt hd
      omega
  intro hb
  rcases ha.total hb with h | h
  · exact key hap hbp hne h
  · exact key hbp hap hne.symm h

theorem mem_preorderAll_branches {ids : List NodeId} {m : NodeId} :
    m ∈ Branch.preorderAll (s.branches ids) ↔
      ∃ c ∈ ids, ∃ b, s.branch? c = some b ∧ m ∈ b.preorder := by
  simp only [Branch.preorderAll_eq, branches, List.mem_flatMap, List.mem_filterMap]
  constructor
  · rintro ⟨b, ⟨c, hc, hb⟩, hm⟩
    exact ⟨c, hc, b, hb, hm⟩
  · rintro ⟨c, hc, b, hb, hm⟩
    exact ⟨b, ⟨c, hc, hb⟩, hm⟩

theorem mem_preorder (hf : s.IsForest) (a : NodeId) :
    ∀ b m, s.branch? a = some b → (m ∈ b.preorder ↔ s.Within m a) := by
  intro b m hb
  induction a, b, hb using hf.induction_branch with
  | step a n hn hb ih =>
    rw [Branch.preorder, List.mem_cons, mem_preorderAll_branches]
    constructor
    · rintro (rfl | ⟨c, hc, b, hb, hm⟩)
      · exact .refl
      · exact .tail ((ih c hc b hb).mp hm) (hf.mem_children.mp hc)
    · intro hw
      rcases Relation.ReflTransGen.cases_tail hw with rfl | ⟨c, hmc, hca⟩
      · exact .inl rfl
      · have hc := hf.mem_children.mpr hca
        obtain ⟨b, hb⟩ := hf.exists_branch hca.lt_size
        exact .inr ⟨c, hc, b, hb, (ih c hc b hb).mpr hmc⟩

theorem nodup_preorder (hf : s.IsForest) (a : NodeId) :
    ∀ b, s.branch? a = some b → b.preorder.Nodup := by
  intro b hb
  induction a, b, hb using hf.induction_branch with
  | step a n hn hb ih =>
    rw [Branch.preorder, List.nodup_cons]
    constructor
    · rw [mem_preorderAll_branches]
      rintro ⟨c, hc, b, hb, hm⟩
      have := hf.le_of_within ((hf.mem_preorder c b a hb).mp hm)
      have := hf.lt_of_mem_children hc
      omega
    · rw [Branch.preorderAll_eq, List.nodup_flatMap]
      refine ⟨fun b hb => ?_, ?_⟩
      · obtain ⟨c, hc, hb⟩ := List.mem_filterMap.mp hb
        exact ih c hc b hb
      · rw [branches, List.pairwise_filterMap]
        refine (hf.children_ascending a).imp_of_mem fun {c d} hc hd hlt b hb e he m hmb hme => ?_
        exact hf.not_within_siblings (hf.mem_children.mp hc) (hf.mem_children.mp hd)
          (Nat.ne_of_lt hlt) ((hf.mem_preorder c b m hb).mp hmb) ((hf.mem_preorder d e m he).mp hme)

/-- The subtree of a node lists its branch, from the first node to the last one. -/
theorem subtree_eq (hf : s.IsForest) {a : NodeId} {b : Branch α} (hb : s.branch? a = some b) :
    s.subtree a = b.preorder := by
  obtain ⟨n, hn, _⟩ := Option.map_eq_some_iff.mp (hf.branch?_eq a ▸ hb)
  have ha : a < s.size := lt_size_of_node? hn
  have hlen : b.preorder.length ≤ s.size := by
    have hsub : b.preorder.Subperm (List.range s.size) :=
      (hf.nodup_preorder a b hb).subperm fun m hm =>
        List.mem_range.mpr (((hf.mem_preorder a b m hb).mp hm).lt_size ha)
    simpa using hsub.length_le
  rw [subtree, hf.walk_eq_take _ _ (by simpa using ha), branches,
    List.filterMap_cons_some hb, List.filterMap_nil, Branch.preorderAll, Branch.preorderAll,
    List.append_nil, List.take_of_length_le hlen]

theorem mem_subtree (hf : s.IsForest) {m a : NodeId} (ha : a < s.size) :
    m ∈ s.subtree a ↔ s.Within m a := by
  obtain ⟨n, hn⟩ := node?_isSome ha
  have hb := hf.branch?_of_node? hn
  rw [hf.subtree_eq hb, hf.mem_preorder a _ m hb]

theorem within_of_mem_walk (hf : s.IsForest) {m : NodeId} (steps : Nat) (pending : List NodeId)
    (h : m ∈ s.walk steps pending) : ∃ c ∈ pending, s.Within m c := by
  induction steps generalizing pending with
  | zero => cases h
  | succ steps ih =>
    cases pending with
    | nil => cases h
    | cons first pending =>
      rw [walk] at h
      rcases List.mem_cons.mp h with rfl | h
      · exact ⟨m, List.mem_cons_self, .refl⟩
      · obtain ⟨c, hc, hw⟩ := ih _ h
        rcases List.mem_append.mp hc with hc | hc
        · exact ⟨first, List.mem_cons_self, hw.tail (hf.mem_children.mp hc)⟩
        · exact ⟨c, List.mem_cons_of_mem first hc, hw⟩

/-- Also of a node that is not there. -/
theorem within_of_mem_subtree (hf : s.IsForest) {m id : NodeId} (h : m ∈ s.subtree id) :
    s.Within m id := by
  obtain ⟨c, hc, hw⟩ := hf.within_of_mem_walk _ _ h
  rwa [List.mem_singleton.mp hc] at hw

theorem nodup_subtree (hf : s.IsForest) {a : NodeId} (ha : a < s.size) : (s.subtree a).Nodup := by
  obtain ⟨n, hn⟩ := node?_isSome ha
  have hb := hf.branch?_of_node? hn
  rw [hf.subtree_eq hb]
  exact hf.nodup_preorder a _ hb

/-- A branch is made of its nodes only. -/
theorem branch?_congr {t : Scene α} (hs : s.IsForest) (ht : t.IsForest) (id : NodeId) :
    (∀ m, s.Within m id → t.node? m = s.node? m) → t.branch? id = s.branch? id := by
  induction id using hs.induction_below with
  | step id ih =>
    intro h
    rw [hs.branch?_eq, ht.branch?_eq, h id .refl]
    refine Option.map_congr fun n hn => ?_
    have hbranches : t.branches n.children = s.branches n.children := by
      refine List.filterMap_congr fun c hc => ?_
      rw [← children_of_node? hn] at hc
      exact ih c hc fun m hm => h m (hm.tail (hs.mem_children.mp hc))
    rw [hbranches]

/-- Every node stands in the branch of a top-level node. -/
theorem exists_top (hf : s.IsForest) (m : Nat) :
    m < s.size → ∃ r ∈ s.topLevel, s.Within m r := by
  induction m using Nat.strongRecOn with
  | _ m ih =>
    intro hm
    obtain ⟨n, hn⟩ := node?_isSome hm
    cases hp : n.parent with
    | none => exact ⟨m, hf.mem_topLevel.mpr ⟨n, hn, hp⟩, .refl⟩
    | some p =>
      have hchild : s.ChildOf m p := ⟨n, hn, hp⟩
      have hlt := hf.parent_lt hchild
      obtain ⟨r, hr, hw⟩ := ih p hlt (Nat.lt_trans hlt hm)
      exact ⟨r, hr, .head hchild hw⟩

/-- The branches of top-level nodes have no node in common. -/
theorem top_unique (hf : s.IsForest) {m r r' : NodeId}
    (hr : r ∈ s.topLevel) (hr' : r' ∈ s.topLevel) (hm : s.Within m r) (hm' : s.Within m r') :
    r = r' := by
  have key {a b : NodeId} (ha : a ∈ s.topLevel) (h : s.Within a b) : a = b := by
    obtain ⟨n, hn, hp⟩ := hf.mem_topLevel.mp ha
    rcases Relation.ReflTransGen.cases_head h with rfl | ⟨p, ⟨k, hk, hkp⟩, -⟩
    · rfl
    · obtain rfl := Option.some.inj (hn.symm.trans hk)
      rw [hp] at hkp
      cases hkp
  rcases hm.total hm' with h | h
  · exact key hr h
  · exact (key hr' h).symm

end IsForest

/-! ### Inserting keeps the forest -/

@[simp] theorem size_insert (s : Scene α) (parent : Option NodeId) (d : Draft α) :
    (s.insert parent d).size = s.size + 1 := by
  cases parent <;> simp [insert, size]

theorem node?_insert (s : Scene α) {parent : Option NodeId} (d : Draft α)
    (hp : ∀ p ∈ parent, p < s.size) (m : NodeId) :
    (s.insert parent d).node? m =
      if m = s.size then some (d.toNode s.size parent)
      else (s.node? m).map fun n =>
        if parent = some m then { n with children := n.children ++ [s.size] } else n := by
  cases parent with
  | none => simp [insert, node?, size, Array.getElem?_push]
  | some p =>
    have hps : p ≠ s.nodes.size := Nat.ne_of_lt (hp p rfl)
    simp only [insert, node?, size, Array.getElem?_modify, Array.getElem?_push, Option.some.injEq]
    by_cases hm : m = s.nodes.size
    · simp [hm, hps]
    · by_cases hpm : p = m <;> simp [hm, hpm]

theorem topLevel_insert (s : Scene α) (parent : Option NodeId) (d : Draft α) :
    (s.insert parent d).topLevel =
      if parent = none then s.topLevel ++ [s.size] else s.topLevel := by
  cases parent <;> rfl

theorem children_insert (s : Scene α) {parent : Option NodeId} (d : Draft α)
    (hp : ∀ p ∈ parent, p < s.size) (m : Nat) :
    (s.insert parent d).children m =
      if parent = some m then s.children m ++ [s.size] else s.children m := by
  simp only [children, node?_insert s d hp]
  by_cases hm : m = s.size
  · have hne : parent ≠ some m := fun h => Nat.lt_irrefl _ (hm ▸ hp m h)
    simp [hm ▸ hne, hm, node?_eq_none, Draft.toNode]
  · by_cases hpm : parent = some m
    · obtain ⟨n, hn⟩ := node?_isSome (hp m hpm)
      simp [hm, hpm, hn]
    · cases s.node? m <;> simp [hm, hpm]

theorem childOf_insert (s : Scene α) {parent : Option NodeId} (d : Draft α)
    (hp : ∀ p ∈ parent, p < s.size) (c p : NodeId) :
    (s.insert parent d).ChildOf c p ↔ s.ChildOf c p ∨ (c = s.size ∧ parent = some p) := by
  simp only [ChildOf, node?_insert s d hp]
  by_cases hc : c = s.size
  · simp [hc, node?_eq_none, Draft.toNode]
  · cases s.node? c with
    | none => simp [hc]
    | some n => by_cases hpc : parent = some c <;> simp [hc, hpc]

/-- Below an old node there is after an insert what was there before, and the new node when that is
inserted there. -/
theorem within_insert (hf : s.IsForest) {m id : NodeId} {parent : Option NodeId} (d : Draft α)
    (hp : ∀ p ∈ parent, p < s.size) (hid : id < s.size) :
    (s.insert parent d).Within m id ↔
      s.Within m id ∨ m = s.size ∧ ∃ p ∈ parent, s.Within p id := by
  constructor
  · intro h
    induction h using Relation.ReflTransGen.head_induction_on with
    | refl => exact .inl .refl
    | @head c p hc _ ih =>
      have hlt : p < s.size := by
        rcases ih with hw | ⟨rfl, -⟩
        · exact hw.lt_size hid
        · rcases (childOf_insert s d hp c s.size).mp hc with hold | ⟨-, hnew⟩
          · exact Nat.lt_trans (hf.parent_lt hold) hold.lt_size
          · exact hp _ hnew
      have hw : s.Within p id := by
        rcases ih with hw | ⟨rfl, -⟩
        · exact hw
        · exact absurd hlt (Nat.lt_irrefl _)
      rcases (childOf_insert s d hp c p).mp hc with hold | ⟨rfl, hnew⟩
      · exact .inl (.head hold hw)
      · exact .inr ⟨rfl, p, hnew, hw⟩
  · have hold {c : NodeId} (h : s.Within c id) : (s.insert parent d).Within c id :=
      Relation.ReflTransGen.mono (fun c p hc => (childOf_insert s d hp c p).mpr (.inl hc)) c id h
    rintro (h | ⟨rfl, p, hpp, hw⟩)
    · exact hold h
    · exact .head ((childOf_insert s d hp _ p).mpr (.inr ⟨rfl, hpp⟩)) (hold hw)

/-- A node in the branch is the same after an insert elsewhere. -/
theorem node?_insert_of_within {m id : NodeId} {parent : Option NodeId} (d : Draft α)
    (hp : ∀ p ∈ parent, p < s.size) (hid : id < s.size) (hout : ∀ p ∈ parent, ¬ s.Within p id)
    (hm : s.Within m id) : (s.insert parent d).node? m = s.node? m := by
  have hne : m ≠ s.size := Nat.ne_of_lt (hm.lt_size hid)
  have hparent : parent ≠ some m := fun h => hout m h hm
  simp [node?_insert s d hp, hne, hparent]

theorem IsForest.empty : (Scene.empty : Scene α).IsForest where
  parent_lt h := by obtain ⟨n, hn, _⟩ := h; simp [Scene.empty, node?] at hn
  mem_children := by simp [Scene.empty, children, node?, ChildOf]
  children_ascending p := by simp [Scene.empty, children, node?]
  mem_topLevel := by simp [Scene.empty, node?]
  topLevel_ascending := .nil

theorem IsForest.insert (hf : s.IsForest) {parent : Option NodeId} (d : Draft α)
    (hp : ∀ p ∈ parent, p < s.size) : (s.insert parent d).IsForest where
  parent_lt {c p} h := by
    rcases (childOf_insert s d hp c p).mp h with hold | ⟨rfl, hnew⟩
    · exact hf.parent_lt hold
    · exact hp p hnew
  mem_children {c p} := by
    rw [children_insert s d hp, childOf_insert s d hp, ← hf.mem_children]
    by_cases h : parent = some p <;> simp [h]
  children_ascending p := by
    rw [children_insert s d hp]
    split
    · refine List.pairwise_append.mpr ⟨hf.children_ascending p, List.pairwise_singleton .., ?_⟩
      intro c hc m hm
      rw [List.mem_singleton.mp hm]
      exact hf.lt_size_of_mem_children hc
    · exact hf.children_ascending p
  mem_topLevel {id} := by
    rw [topLevel_insert, node?_insert s d hp]
    by_cases hid : id = s.size
    · have hold : id ∉ s.topLevel := by
        rw [hf.mem_topLevel, node?_eq_none (Nat.le_of_eq hid.symm)]
        simp
      by_cases h : parent = none <;> simp [hid ▸ hold, hid, h, Draft.toNode]
    · have hnode : id ∈ s.topLevel ↔ _ := hf.mem_topLevel
      by_cases h : parent = none
      · simpa [hid, h] using hnode
      · cases hn : s.node? id with
        | none => simpa [hid, h, hn] using hnode
        | some n => by_cases hpi : parent = some id <;> simpa [hid, h, hn, hpi] using hnode
  topLevel_ascending := by
    rw [topLevel_insert]
    split
    · refine List.pairwise_append.mpr ⟨hf.topLevel_ascending, List.pairwise_singleton .., ?_⟩
      intro c hc m hm
      rw [List.mem_singleton.mp hm]
      exact hf.lt_size_of_mem_topLevel hc
    · exact hf.topLevel_ascending

end Scene
end DesignLayout
