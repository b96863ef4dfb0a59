import DesignLayout.Proofs.Measuring

/-! Probing any design document, branch after branch.

A design document may lay out a resized branch as it likes; all that is asked of it here is that its
tree of nodes keeps its shape (`Host.FixedShape`). The probes of an export form a list of rounds,
each of the document that the round before has left. A merge takes the later record of a node, so
of all rounds that measured a node the last one has the say (`record?_probeAll_iff`). -/
namespace DesignLayout

variable {α δ : Type} [Host δ α]

/-! ### Documents whose tree keeps its shape -/

namespace Host

/-- The second document comes of the first one by resizing nodes. -/
def Reaches : δ → δ → Prop :=
  Relation.ReflTransGen fun doc doc' => ∃ id width height, doc' = resize doc id width height

/-- The document is a forest, and resizes leave it the same forest, whatever they do to where its
nodes stand. -/
structure FixedShape (doc : δ) : Prop where
  isForest : (scene doc).IsForest
  sameLinks : ∀ {doc'}, Reaches doc doc' → (scene doc).SameLinks (scene doc')

theorem reaches_resize (doc : δ) (id : NodeId) (width height : α) :
    Reaches doc (resize doc id width height) :=
  .single ⟨id, width, height, rfl⟩

theorem FixedShape.of_reaches {doc doc' : δ} (h : FixedShape doc) (hr : Reaches doc doc') :
    FixedShape doc' where
  isForest := (h.sameLinks hr).isForest h.isForest
  sameLinks hr' := (h.sameLinks hr).symm.trans (h.sameLinks (hr.trans hr'))

end Host

theorem ElasticScene.fixedShape_of_built [Scalar α] {t : ElasticScene α} (h : t.Built) :
    Host.FixedShape t where
  isForest := h.isForest
  sameLinks hr := by
    induction hr with
    | refl => exact .refl _
    | tail _ hstep ih =>
      obtain ⟨id, width, height, rfl⟩ := hstep
      exact ih.trans (relaid_resize _ id width height).sameLinks

/-! ### Rounds -/

/-- A probe of one branch, with the document before its first resize and after its last one. -/
structure Round (δ : Type) where
  root : NodeId
  before : δ
  after : δ

/-- The node stands in the branch that is probed. -/
def Round.Measures (r : Round δ) (id : NodeId) : Prop :=
  id ∈ (Host.scene r.before).subtree r.root

/-- The round measured the node, and no later one did. -/
def Round.IsLast (rs : List (Round δ)) (id : NodeId) (r : Round δ) : Prop :=
  ∃ earlier later, rs = earlier ++ r :: later ∧ r.Measures id ∧ ∀ r' ∈ later, ¬ r'.Measures id

theorem Round.IsLast.mem {rs : List (Round δ)} {id : NodeId} {r : Round δ}
    (h : Round.IsLast rs id r) : r ∈ rs := by
  obtain ⟨earlier, later, rfl, -⟩ := h
  exact List.mem_append_right _ List.mem_cons_self

variable [Scalar α]

/-- What a round takes down of a node. -/
def Round.record? (th : Thresholds α) (r : Round δ) (id : NodeId) : Option (Record α) :=
  (Measurements.probe th r.before r.root).2.record? id

namespace Measurements

/-- The rounds of a probe of several branches. -/
def rounds (th : Thresholds α) : δ → List NodeId → List (Round δ)
  | _, [] => []
  | doc, root :: rest =>
    ⟨root, doc, (probe th doc root).1⟩ :: rounds th (probe th doc root).1 rest

theorem map_root_rounds (th : Thresholds α) (doc : δ) (roots : List NodeId) :
    (rounds th doc roots).map (·.root) = roots := by
  induction roots generalizing doc with
  | nil => rfl
  | cons root rest ih => rw [rounds, List.map_cons, ih]

theorem root_mem_of_mem_rounds {th : Thresholds α} {doc : δ} {roots : List NodeId} {r : Round δ}
    (h : r ∈ rounds th doc roots) : r.root ∈ roots := by
  rw [← map_root_rounds th doc roots]
  exact List.mem_map_of_mem h

theorem reaches_probe (th : Thresholds α) (doc : δ) (root : NodeId) :
    Host.Reaches doc (probe th doc root).1 := by
  unfold probe
  split
  · exact .refl
  · exact (Host.reaches_resize doc root _ _).trans (Host.reaches_resize _ root _ _)

/-- Every round probes a document that comes of the first one by resizing. -/
theorem mem_rounds {th : Thresholds α} {doc : δ} {roots : List NodeId} {r : Round δ}
    (h : r ∈ rounds th doc roots) :
    Host.Reaches doc r.before ∧ r.after = (probe th r.before r.root).1 := by
  induction roots generalizing doc with
  | nil => cases h
  | cons root rest ih =>
    rcases List.mem_cons.mp h with rfl | h
    · exact ⟨.refl, rfl⟩
    · obtain ⟨hreach, hafter⟩ := ih h
      exact ⟨(reaches_probe th doc root).trans hreach, hafter⟩

/-- The record that is kept of a node is that of the last round that has one. -/
theorem record?_probeAll (th : Thresholds α) (doc : δ) (roots : List NodeId) (id : NodeId) :
    (probeAll th doc roots).2.record? id =
      (rounds th doc roots).reverse.findSome? (Round.record? th · id) := by
  -- The invariant of the loop, for any measurements to begin with.
  have key (m : Measurements α) :
      (roots.foldl (fun (p : δ × Measurements α) root =>
        ((probe th p.1 root).1, p.2.merge (probe th p.1 root).2)) (doc, m)).2.record? id =
      ((rounds th doc roots).reverse.findSome? (Round.record? th · id)).or (m.record? id) := by
    induction roots generalizing doc m with
    | nil => rfl
    | cons root rest ih =>
      rw [List.foldl_cons, ih, rounds, List.reverse_cons, List.findSome?_append, record?_merge,
        Option.or_assoc]
      simp only [List.findSome?_cons, List.findSome?_nil, Round.record?]
      cases (probe th doc root).2.record? id <;> rfl
  refine (key empty).trans ?_
  rw [record?_empty, Option.or_none]

end Measurements

/-! ### What one round takes down -/

namespace Round
open Measurements

variable {th : Thresholds α} {doc : δ} {roots : List NodeId} {r : Round δ} {id : NodeId}

theorem record?_eq_taken? (hshape : Host.FixedShape doc) (hr : r ∈ rounds th doc roots)
    (hroot : r.root < (Host.scene doc).size) :
    ∃ grown, (Host.scene r.before).SameLinks grown ∧ ∀ id,
      r.record? th id = taken? th (Host.scene r.before) grown (Host.scene r.after) r.root id := by
  obtain ⟨hreach, hafter⟩ := mem_rounds hr
  have hbefore := hshape.of_reaches hreach
  rw [← (hshape.sameLinks hreach).size_eq] at hroot
  obtain ⟨n, hn⟩ := Scene.node?_isSome hroot
  have hgrown : Host.Reaches r.before (grown th r.before r.root n) := Host.reaches_resize ..
  have hback : Host.Reaches r.before (back th r.before r.root n) :=
    hgrown.trans (Host.reaches_resize ..)
  have hprobed : r.after = back th r.before r.root n := by
    rw [hafter]
    simp only [probe, hn]
    rfl
  refine ⟨_, hbefore.sameLinks hgrown, fun id => ?_⟩
  rw [hprobed]
  exact record?_probe_of_sameLinks hbefore.isForest th hn (hbefore.sameLinks hgrown)
    (hbefore.sameLinks hback) id

theorem measures_iff (hshape : Host.FixedShape doc) (hr : r ∈ rounds th doc roots)
    (hroot : r.root < (Host.scene doc).size) :
    r.Measures id ↔ (Host.scene doc).Within id r.root := by
  rw [Measures, (hshape.sameLinks (mem_rounds hr).1).subtree_eq, hshape.isForest.mem_subtree hroot]

/-- A round takes down where the nodes of its branch stood before it, when they were grown, and
after it. -/
theorem record?_of_measures (hshape : Host.FixedShape doc) (hr : r ∈ rounds th doc roots)
    (hroot : r.root < (Host.scene doc).size) (hid : r.Measures id) :
    ∃ n grown, (Host.scene r.before).node? id = some n ∧
      (Host.scene r.before).SameLinks grown ∧
      r.record? th id = some
        { name := n.name, before := some n.bounds, after := grown.bounds? id,
          restored := (Host.scene r.after).bounds? id,
          parameter := found? th (Host.scene r.before) grown r.root id } := by
  have hsize := ((measures_iff hshape hr hroot).mp hid).lt_size hroot
  rw [← (hshape.sameLinks (mem_rounds hr).1).size_eq] at hsize
  obtain ⟨n, hn⟩ := Scene.node?_isSome hsize
  obtain ⟨grown, hlinks, hrecord⟩ := record?_eq_taken? hshape hr hroot
  refine ⟨n, grown, hn, hlinks, ?_⟩
  have hid : id ∈ (Host.scene r.before).subtree r.root := hid
  simp [hrecord, taken?, swept?, hid, hn, Scene.bounds?]

theorem record?_eq_none_iff (hshape : Host.FixedShape doc) (hr : r ∈ rounds th doc roots)
    (hroot : r.root < (Host.scene doc).size) : r.record? th id = none ↔ ¬ r.Measures id := by
  constructor
  · intro hnone hid
    obtain ⟨n, grown, _, _, hrecord⟩ := record?_of_measures hshape hr hroot hid
    rw [hnone] at hrecord
    cases hrecord
  · intro hid
    obtain ⟨grown, -, hrecord⟩ := record?_eq_taken? hshape hr hroot
    have hid : id ∉ (Host.scene r.before).subtree r.root := hid
    rw [hrecord, taken?, swept?, if_neg hid, Option.map_none]

end Round

namespace Measurements
variable {th : Thresholds α} {doc : δ} {roots : List NodeId} {id : NodeId}

/-- Of all rounds that measured a node the last one has the say. -/
theorem record?_probeAll_iff (hshape : Host.FixedShape doc)
    (hroots : ∀ root ∈ roots, root < (Host.scene doc).size) {found : Record α} :
    (probeAll th doc roots).2.record? id = some found ↔
      ∃ r, Round.IsLast (rounds th doc roots) id r ∧ r.record? th id = some found := by
  have hnone : ∀ r ∈ rounds th doc roots, r.record? th id = none ↔ ¬ r.Measures id := by
    intro r hr
    exact Round.record?_eq_none_iff hshape hr (hroots _ (root_mem_of_mem_rounds hr))
  rw [record?_probeAll, List.findSome?_eq_some_iff]
  constructor
  · rintro ⟨later, r, earlier, hrounds, hr, hlater⟩
    have hrounds : rounds th doc roots = earlier.reverse ++ r :: later.reverse := by
      rw [← List.reverse_reverse (rounds th doc roots), hrounds]
      simp
    refine ⟨r, ⟨earlier.reverse, later.reverse, hrounds, ?_, fun r' hr' => ?_⟩, hr⟩
    · by_contra hid
      rw [(hnone r (by simp [hrounds])).mpr hid] at hr
      cases hr
    · refine (hnone r' ?_).mp (hlater r' (List.mem_reverse.mp hr'))
      rw [hrounds]
      exact List.mem_append_right _ (List.mem_cons_of_mem r hr')
  · rintro ⟨r, ⟨earlier, later, hrounds, -, hlater⟩, hr⟩
    refine ⟨later.reverse, r, earlier.reverse, by simp [hrounds], hr, fun r' hr' => ?_⟩
    rw [List.mem_reverse] at hr'
    refine (hnone r' ?_).mpr (hlater r' hr')
    rw [hrounds]
    exact List.mem_append_right _ (List.mem_cons_of_mem r hr')

end Measurements
end DesignLayout
