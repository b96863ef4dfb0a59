import DesignLayout.Probe.Measurement
import DesignLayout.Proofs.Building

/-! What the probe's records hold.

A sweep over a branch without repetitions sets one measurement in the record of each of its nodes
and leaves the other records alone (`record?_sweep`); parameters are added node by node, and a merge
takes the later record where there is one. So what a probe found out about a node can be read off
(`record?_probe`), and `drift?_eq_none_iff` says when nothing has drifted. -/
namespace DesignLayout

variable {α : Type}

/-- The bounds of a node that is there. -/
def Scene.bounds? (s : Scene α) (id : NodeId) : Option (Bounds α) :=
  (s.node? id).map (·.bounds)

namespace Measurements

@[simp] theorem record?_empty (id : NodeId) : (empty : Measurements α).record? id = none :=
  Std.TreeMap.getElem?_emptyc

theorem record?_sweep {s : Scene α} {root : NodeId} (hnd : (s.subtree root).Nodup)
    (set : Bounds α → Record α → Record α) (m : Measurements α) (id : NodeId) :
    (sweep s root set m).record? id =
      if id ∈ s.subtree root then
        ((s.node? id).map fun n => set n.bounds ((m.record? id).getD { name := n.name })).or
          (m.record? id)
      else m.record? id := by
  unfold sweep record?
  generalize m.records = records, s.subtree root = ids at hnd ⊢
  dsimp only
  induction ids generalizing records with
  | nil => rfl
  | cons first rest ih =>
    obtain ⟨hfirst, hrest⟩ := List.nodup_cons.mp hnd
    rw [List.foldl_cons, ih _ hrest]
    cases hn : s.node? first with
    | none =>
      by_cases hid : id = first
      · simp [hid, hfirst, hn]
      · simp [hid]
    | some n =>
      by_cases hid : id = first
      · simp [hid, hfirst, hn]
      · have hne : ¬ first = id := fun h => hid h.symm
        simp [hid, hne, Std.TreeMap.getElem?_insert]

/-- What three sweeps over the branch of `root` take down of a node, in the scenes before growing,
after it, and after shrinking back. -/
def swept? (s grown back : Scene α) (root id : NodeId) : Option (Record α) :=
  if id ∈ s.subtree root then
    (s.node? id).map fun n =>
      { name := n.name, before := s.bounds? id, after := grown.bounds? id,
        restored := back.bounds? id }
  else none

theorem record?_sweeps {s grown back : Scene α} (hf : s.IsForest) (hg : s.SameLinks grown)
    (hb : s.SameLinks back) {root : NodeId} (hroot : root < s.size) (id : NodeId) :
    (((empty.sweep s root fun b r => { r with before := some b }).sweep grown root
        fun b r => { r with after := some b }).sweep back root
        fun b r => { r with restored := some b }).record? id = swept? s grown back root id := by
  have hnd := hf.nodup_subtree hroot
  have hsg := hg.subtree_eq root
  have hsb := hb.subtree_eq root
  rw [record?_sweep (hsb ▸ hnd), record?_sweep (hsg ▸ hnd), record?_sweep hnd, hsg, hsb, swept?]
  split
  · rcases hg.cases_node? id with ⟨hs, hgn⟩ | ⟨n, k, hs, hgn, _⟩
    · have hbn : back.node? id = none := by
        rcases hb.cases_node? id with ⟨_, hbn⟩ | ⟨n, _, hn, _⟩
        · exact hbn
        · rw [hs] at hn
          cases hn
      simp [hs, hgn, hbn]
    · obtain ⟨l, hbn, _⟩ := hb.exists_node? hs
      simp [hs, hgn, hbn, Scene.bounds?]
  · simp

theorem record?_merge (earlier later : Measurements α) (id : NodeId) :
    (earlier.merge later).record? id = (later.record? id).or (earlier.record? id) := by
  unfold merge record?
  cases hr : later.records[id]? with
  | none =>
    refine Std.TreeMap.getElem?_insertMany_list_of_contains_eq_false ?_
    rw [Std.TreeMap.map_fst_toList_eq_keys]
    simpa using hr
  | some r =>
    refine Std.TreeMap.getElem?_insertMany_list_of_mem (k := id) Std.ReflCmp.compare_self
      Std.TreeMap.distinct_keys_toList ?_
    exact Std.TreeMap.mem_toList_iff_getElem?_eq_some.mpr hr

/-! ### Drift -/

section
variable [Scalar α]

theorem record?_withParameters (t : Thresholds α) (s : Scene α) (m : Measurements α) (id : NodeId) :
    (m.withParameters t s).record? id =
      (m.record? id).map fun r => { r with parameter := m.derive? t s id } :=
  Std.TreeMap.getElem?_map

theorem drift?_eq_none_iff (m : Measurements α) :
    m.drift? = none ↔ ∀ id r, m.record? id = some r → drifted? id r = none := by
  have hmem (p : NodeId × Record α) : p ∈ m.toList ↔ m.record? p.1 = some p.2 :=
    Std.TreeMap.mem_toList_iff_getElem?_eq_some
  unfold drift?
  split
  · rename_i hnil
    rw [List.filterMap_eq_nil_iff] at hnil
    simp only [true_iff]
    exact fun id r hr => hnil (id, r) ((hmem _).mpr hr)
  · rename_i nodes hne
    simp only [reduceCtorEq, false_iff]
    intro h
    exact hne (List.filterMap_eq_nil_iff.mpr fun p hp => h p.1 p.2 ((hmem p).mp hp))

/-! ### One probe -/

/-- The parameter that a probe of `root` finds out for a node, given the scenes before and after
growing. -/
def found? (th : Thresholds α) (s grown : Scene α) (root id : NodeId) : Option Parameter := do
  let parent ← (← s.node? id).parent
  if parent ∈ s.subtree root then
    return .derive th (← s.bounds? id) (← grown.bounds? id) (← s.bounds? parent)
      (← grown.bounds? parent)
  else none

/-- What a probe of `root` takes down of a node. -/
def taken? (th : Thresholds α) (s grown back : Scene α) (root id : NodeId) : Option (Record α) :=
  (swept? s grown back root id).map fun r => { r with parameter := found? th s grown root id }

theorem derive?_of_swept {m : Measurements α} {s grown back : Scene α} {root : NodeId}
    (hm : ∀ id, m.record? id = swept? s grown back root id) (hb : s.SameLinks back)
    (th : Thresholds α) {id : NodeId} (hid : id ∈ s.subtree root) :
    m.derive? th back id = found? th s grown root id := by
  unfold derive? found?
  rw [hm]
  rcases hb.cases_node? id with ⟨hs, hbn⟩ | ⟨n, k, hs, hbn, hkp, _⟩
  · simp [swept?, hs]
  · cases hp : n.parent with
    | none => simp [hs, hbn, hkp, hp]
    | some p =>
      by_cases hpm : p ∈ s.subtree root
      · cases hps : s.node? p <;>
          simp [hs, hbn, hkp, hp, hm, swept?, hid, hpm, hps, Scene.bounds?]
      · simp [hs, hbn, hkp, hp, hm, swept?, hid, hpm]

/-- The document of a host after a probe has grown the node. -/
def grown {δ : Type} [Host δ α] (th : Thresholds α) (doc : δ) (root : NodeId) (n : Node α) : δ :=
  Host.resize doc root (n.bounds.width + th.growWidth) (n.bounds.height + th.growHeight)

/-- The document of a host after a probe has given the node its first size back. -/
def back {δ : Type} [Host δ α] (th : Thresholds α) (doc : δ) (root : NodeId) (n : Node α) : δ :=
  Host.resize (grown th doc root n) root n.bounds.width n.bounds.height

/-- Of any design document whose tree stays the same while it is probed. -/
theorem record?_probe_of_sameLinks {δ : Type} [Host δ α] {doc : δ}
    (hf : (Host.scene doc).IsForest) (th : Thresholds α) {root : NodeId} {n : Node α}
    (hn : (Host.scene doc).node? root = some n)
    (hgrown : (Host.scene doc).SameLinks (Host.scene (grown th doc root n)))
    (hback : (Host.scene doc).SameLinks (Host.scene (back th doc root n))) (id : NodeId) :
    (probe th doc root).2.record? id =
      taken? th (Host.scene doc) (Host.scene (grown th doc root n))
        (Host.scene (back th doc root n)) root id := by
  have hsweeps := record?_sweeps hf hgrown hback (Scene.lt_size_of_node? hn)
  simp only [probe, hn]
  rw [record?_withParameters]
  refine (congrArg (Option.map _) (hsweeps id)).trans ?_
  unfold taken?
  refine Option.map_congr fun r hr => ?_
  have hid : id ∈ (Host.scene doc).subtree root := by
    by_contra hid
    rw [swept?, if_neg hid] at hr
    cases hr
  rw [← derive?_of_swept hsweeps hback th hid]
  rfl

theorem record?_probe {t : ElasticScene α} (hf : t.scene.IsForest) (th : Thresholds α)
    {root : NodeId} {n : Node α} (hn : t.scene.node? root = some n) (id : NodeId) :
    (probe th t root).2.record? id =
      taken? th t.scene (grown th t root n).scene (back th t root n).scene root id := by
  have hgrown : t.scene.Relaid (grown th t root n).scene := t.relaid_resize ..
  have hback : t.scene.Relaid (back th t root n).scene :=
    hgrown.trans (ElasticScene.relaid_resize ..)
  exact record?_probe_of_sameLinks hf th hn hgrown.sameLinks hback.sameLinks id

/-! ### Probe after probe -/

/-- One more branch is probed. -/
def probeNext (th : Thresholds α) (p : ElasticScene α × Measurements α) (root : NodeId) :
    ElasticScene α × Measurements α :=
  ((probe th p.1 root).1, p.2.merge (probe th p.1 root).2)

theorem relaid_probe (th : Thresholds α) (t : ElasticScene α) (root : NodeId) :
    t.scene.Relaid (probe th t root).1.scene := by
  unfold probe
  split
  · exact .refl _
  · exact (t.relaid_resize ..).trans (ElasticScene.relaid_resize ..)

theorem relaid_foldl_probeNext (th : Thresholds α) (roots : List NodeId)
    (p : ElasticScene α × Measurements α) :
    p.1.scene.Relaid (roots.foldl (probeNext th) p).1.scene := by
  induction roots generalizing p with
  | nil => exact .refl _
  | cons root rest ih => exact (relaid_probe th p.1 root).trans (ih (probeNext th p root))

/-- A probe moves nodes and changes no more. -/
theorem relaid_probeAll (th : Thresholds α) (t : ElasticScene α) (roots : List NodeId) :
    t.scene.Relaid (probeAll th t roots).1.scene :=
  relaid_foldl_probeNext th roots (t, empty)

end
end Measurements
end DesignLayout
