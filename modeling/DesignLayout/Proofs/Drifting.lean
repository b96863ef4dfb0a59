import DesignLayout.Proofs.Exporting
import DesignLayout.Proofs.Probing
import DesignLayout.Proofs.RoundTrip

/-! Which failed restores an export tells of.

A round has failed on a node when the node does not stand after it where it stood before it. The
drift of an export lists exactly the nodes on which the last round that measured them has failed,
each once and in ascending order (`mem_driftedNodes_probeAll`, `pairwise_driftedNodes`). So a
failure is told of for certain when no probed artboard stands within another one, since then a node
is measured by one round only (`isLast_of_apart`). Otherwise a later round can begin at the place to
which an earlier one has brought a node, find it there again, and cover up the failure
(`failure_covered_up`). -/
namespace DesignLayout

variable {α δ : Type}

/-! ### The drifted nodes of measurements -/

namespace Measurements
variable [Scalar α] {m : Measurements α}

/-- The nodes that have drifted, in the order of their numbers. -/
def driftedNodes (m : Measurements α) : List (DriftedNode α) :=
  m.toList.filterMap fun (id, r) => drifted? id r

theorem drift?_eq (m : Measurements α) :
    m.drift? = if m.driftedNodes = [] then none else some ⟨m.driftedNodes⟩ := by
  unfold drift? driftedNodes
  split
  · rename_i hnil
    rw [if_pos hnil]
  · rename_i hne
    rw [if_neg hne]

theorem drifted?_eq_some_iff {id : NodeId} {r : Record α} {d : DriftedNode α} :
    drifted? id r = some d ↔ ∃ before restored, r.before = some before ∧
      r.restored = some restored ∧ before.same restored = false ∧
      d = ⟨id, r.name, before, restored⟩ := by
  unfold drifted?
  cases r.before with
  | none => simp
  | some before =>
    cases r.restored with
    | none => simp
    | some restored =>
      by_cases h : before.same restored = true
      · simp [h]
      · simpa [h] using eq_comm

theorem mem_driftedNodes {d : DriftedNode α} :
    d ∈ m.driftedNodes ↔ ∃ r, m.record? d.id = some r ∧ drifted? d.id r = some d := by
  have hmem (p : NodeId × Record α) : p ∈ m.toList ↔ m.record? p.1 = some p.2 :=
    Std.TreeMap.mem_toList_iff_getElem?_eq_some
  simp only [driftedNodes, List.mem_filterMap, Prod.exists, hmem]
  constructor
  · rintro ⟨id, r, hr, hd⟩
    obtain ⟨_, _, _, _, _, rfl⟩ := drifted?_eq_some_iff.mp hd
    exact ⟨r, hr, hd⟩
  · rintro ⟨r, hr, hd⟩
    exact ⟨d.id, r, hr, hd⟩

theorem pairwise_driftedNodes (m : Measurements α) :
    m.driftedNodes.Pairwise fun d d' => d.id < d'.id := by
  have hkeys : m.toList.Pairwise fun p p' => compare p.1 p'.1 = .lt :=
    Std.TreeMap.ordered_keys_toList
  rw [driftedNodes, List.pairwise_filterMap]
  refine hkeys.imp fun {p p'} hlt d hd d' hd' => ?_
  obtain ⟨_, _, _, _, _, rfl⟩ := drifted?_eq_some_iff.mp hd
  obtain ⟨_, _, _, _, _, rfl⟩ := drifted?_eq_some_iff.mp hd'
  exact Nat.compare_eq_lt.mp hlt

end Measurements

/-! ### The failures of rounds -/

section
variable [Host δ α] [Scalar α]

/-- The failure of a round on a node that it measured: the node stands elsewhere after it. -/
def Round.failure? (r : Round δ) (id : NodeId) : Option (DriftedNode α) :=
  if id ∈ (Host.scene r.before).subtree r.root then do
    let n ← (Host.scene r.before).node? id
    let restored ← (Host.scene r.after).bounds? id
    if n.bounds.same restored then none else some ⟨id, n.name, n.bounds, restored⟩
  else none

theorem Round.measures_of_failure? {r : Round δ} {id : NodeId} {d : DriftedNode α}
    (h : r.failure? id = some d) : r.Measures id := by
  by_contra hid
  have hid : id ∉ (Host.scene r.before).subtree r.root := hid
  rw [failure?, if_neg hid] at h
  cases h

namespace Measurements
variable {th : Thresholds α} {doc : δ} {roots : List NodeId}

/-- What a round has taken down of a node tells of its failure on the node. -/
theorem drifted?_record? {r : Round δ} {id : NodeId} {found : Record α}
    (hshape : Host.FixedShape doc) (hr : r ∈ rounds th doc roots)
    (hroot : r.root < (Host.scene doc).size) (h : r.record? th id = some found) :
    drifted? id found = r.failure? id := by
  have hid : r.Measures id := by
    by_contra hid
    rw [(Round.record?_eq_none_iff hshape hr hroot).mpr hid] at h
    cases h
  obtain ⟨n, grown, hn, -, hrecord⟩ := Round.record?_of_measures hshape hr hroot hid
  obtain rfl := Option.some.inj (h.symm.trans hrecord)
  have hid : id ∈ (Host.scene r.before).subtree r.root := hid
  rw [Round.failure?, if_pos hid, hn]
  rfl

/-- The drifted nodes are those on which the last round that measured them has failed. -/
theorem mem_driftedNodes_probeAll (hshape : Host.FixedShape doc)
    (hroots : ∀ root ∈ roots, root < (Host.scene doc).size) {d : DriftedNode α} :
    d ∈ (probeAll th doc roots).2.driftedNodes ↔
      ∃ r, Round.IsLast (rounds th doc roots) d.id r ∧ r.failure? d.id = some d := by
  simp only [mem_driftedNodes, record?_probeAll_iff hshape hroots]
  constructor
  · rintro ⟨found, ⟨r, hlast, hfound⟩, hd⟩
    have hroot := hroots _ (root_mem_of_mem_rounds hlast.mem)
    rw [drifted?_record? hshape hlast.mem hroot hfound] at hd
    exact ⟨r, hlast, hd⟩
  · rintro ⟨r, hlast, hd⟩
    have hroot := hroots _ (root_mem_of_mem_rounds hlast.mem)
    obtain ⟨n, grown, -, -, hfound⟩ :=
      Round.record?_of_measures hshape hlast.mem hroot (Round.measures_of_failure? hd)
    rw [← drifted?_record? hshape hlast.mem hroot hfound] at hd
    exact ⟨_, ⟨r, hlast, hfound⟩, hd⟩

/-- Where no branch that is probed stands within another one, a node is measured only once. -/
theorem isLast_of_apart (hshape : Host.FixedShape doc)
    (hroots : ∀ root ∈ roots, root < (Host.scene doc).size) (hnodup : roots.Nodup)
    (hapart : ∀ a ∈ roots, ∀ b ∈ roots, (Host.scene doc).Within a b → a = b) {r : Round δ}
    {id : NodeId} (hr : r ∈ rounds th doc roots) (hid : r.Measures id) :
    Round.IsLast (rounds th doc roots) id r := by
  have hwithin {p : Round δ} (hp : p ∈ rounds th doc roots) (hid : p.Measures id) :
      (Host.scene doc).Within id p.root :=
    (Round.measures_iff hshape hp (hroots _ (root_mem_of_mem_rounds hp))).mp hid
  obtain ⟨earlier, later, hrounds⟩ := List.append_of_mem hr
  refine ⟨earlier, later, hrounds, hid, fun r' hlater hid' => ?_⟩
  have hr' : r' ∈ rounds th doc roots := by
    rw [hrounds]
    exact List.mem_append_right _ (List.mem_cons_of_mem r hlater)
  have hroot := root_mem_of_mem_rounds hr
  have hroot' := root_mem_of_mem_rounds hr'
  -- Two branches with a node in common stand one within the other.
  have hsame : r'.root = r.root := by
    rcases (hwithin hr hid).total (hwithin hr' hid') with h | h
    · exact (hapart _ hroot _ hroot' h).symm
    · exact hapart _ hroot' _ hroot h
  rw [← map_root_rounds th doc roots, hrounds, List.map_append, List.map_cons] at hnodup
  have hfirst := (List.nodup_cons.mp (List.nodup_append.mp hnodup).2.1).1
  exact hfirst (hsame ▸ List.mem_map_of_mem hlater)

end Measurements
end

/-! ### A whole export -/

namespace Export
variable [Host δ α] [Scalar α]

/-- The drifted nodes that an export tells of. -/
def driftedNodes (e : Export α) : List (DriftedNode α) :=
  (e.drift.map (·.nodes)).getD []

/-- For every design document whose tree keeps its shape, and every selection and context with a
probe: the drift of an export lists, once each and in ascending order, exactly the nodes on which
the last round that measured them has failed, and it is missing when there is none. When no probed
artboard stands within another one, these are all nodes on which any round has failed. -/
theorem drift_lists_failures {doc doc' : δ} {selection : List NodeId} {context : Context α}
    {e : Export α} (hshape : Host.FixedShape doc)
    (hresponsive : context.options.responsive = true)
    (h : ofSelection doc selection context = .ok (doc', e)) :
    ∃ r, Roots.find (Host.scene doc) selection context.options = .ok r ∧
      (e.drift = none ↔ e.driftedNodes = []) ∧
      (e.driftedNodes.Pairwise fun d d' => d.id < d'.id) ∧
      (∀ d, d ∈ e.driftedNodes ↔
        ∃ p, Round.IsLast (Measurements.rounds context.thresholds doc r.artboards) d.id p ∧
          p.failure? d.id = some d) ∧
      ((∀ a ∈ r.artboards, ∀ b ∈ r.artboards, (Host.scene doc).Within a b → a = b) →
        ∀ d, d ∈ e.driftedNodes ↔
          ∃ p ∈ Measurements.rounds context.thresholds doc r.artboards,
            p.failure? d.id = some d) := by
  obtain ⟨r, hr, hmeasure, he⟩ := ofSelection_eq_ok h
  obtain ⟨hroots, hnodup⟩ := Roots.artboards_of_find hr
  have hm : (Measurements.probeAll context.thresholds doc r.artboards).2 = e.measurements := by
    rw [measure, if_pos hresponsive] at hmeasure
    rw [hmeasure]
  have hdrift : e.drift = e.measurements.drift? := by
    rw [he]
    rfl
  have hnodes : e.driftedNodes = e.measurements.driftedNodes := by
    rw [driftedNodes, hdrift, Measurements.drift?_eq]
    split
    · rename_i hnil
      exact hnil.symm
    · rfl
  have hlast (d : DriftedNode α) : d ∈ e.driftedNodes ↔
      ∃ p, Round.IsLast (Measurements.rounds context.thresholds doc r.artboards) d.id p ∧
        p.failure? d.id = some d := by
    rw [hnodes, ← hm]
    exact Measurements.mem_driftedNodes_probeAll hshape hroots
  refine ⟨r, hr, ?_, ?_, hlast, fun hapart d => ?_⟩
  · rw [hdrift, hnodes, Measurements.drift?_eq]
    by_cases hnil : e.measurements.driftedNodes = [] <;> simp [hnil]
  · rw [hnodes]
    exact e.measurements.pairwise_driftedNodes
  · rw [hlast]
    constructor
    · rintro ⟨p, hp, hd⟩
      exact ⟨p, hp.mem, hd⟩
    · rintro ⟨p, hp, hd⟩
      have hid := Round.measures_of_failure? hd
      exact ⟨p, Measurements.isLast_of_apart hshape hroots hnodup hapart hp hid, hd⟩

end Export

/-! ### A document that slips once -/

/-- An elastic scene whose second resize leaves a node half a point off. -/
structure SlippingScene where
  elastic : ElasticScene Float
  victim : NodeId
  resizes : Nat := 0

namespace SlippingScene

def resize (t : SlippingScene) (id : NodeId) (width height : Float) : SlippingScene :=
  let resized := t.elastic.resize id width height
  { t with
    elastic := if t.resizes = 1 then resized.shift t.victim 0.0 0.5 else resized
    resizes := t.resizes + 1 }

instance : Host SlippingScene Float where
  scene t := t.elastic.scene
  resize := resize

theorem relaid_resize (t : SlippingScene) (id : NodeId) (width height : Float) :
    t.elastic.scene.Relaid (t.resize id width height).elastic.scene := by
  have hresized := t.elastic.relaid_resize id width height
  dsimp only [resize]
  split
  · exact hresized.trans (Scene.relaid_shift _ t.victim 0.0 0.5)
  · exact hresized

theorem fixedShape_of_built {t : SlippingScene} (h : t.elastic.Built) : Host.FixedShape t where
  isForest := h.isForest
  sameLinks hr := by
    induction hr with
    | refl => exact .refl _
    | tail _ hstep ih =>
      obtain ⟨id, width, height, rfl⟩ := hstep
      exact ih.trans (relaid_resize _ id width height).sameLinks

end SlippingScene

namespace Export

/-- A dot on an artboard, which slips when the artboard is restored. -/
def slippingDot : SlippingScene where
  elastic := (ElasticScene.empty.insert none
    { name := "Shop", kind := .artboard, bounds := ⟨0.0, 0.0, 375.0, 667.0⟩ }).insert (some 0)
    { name := "dot", kind := .rectangle, bounds := ⟨20.0, 30.0, 10.0, 10.0⟩ }
  victim := 1

theorem slipping_dot_told :
    Host.FixedShape slippingDot ∧ wholeContext.options.responsive = true ∧
    ∃ after e, ofSelection slippingDot [] wholeContext = .ok (after, e) ∧
      e.drift ≠ none ∧ e.driftedNodes.map (·.id) = [1] ∧
      ∃ p ∈ Measurements.rounds wholeContext.thresholds slippingDot [0], (p.failure? 1).isSome := by
  have hshape : Host.FixedShape slippingDot := SlippingScene.fixedShape_of_built
    ((ElasticScene.Built.empty.insert none _ (by simp)).insert (some 0) _ (by decide))
  have hfind : Roots.find (Host.scene slippingDot) [] wholeContext.options =
      .ok ⟨[("Shop", 0)], [0]⟩ := by
    decide +kernel
  have hids : (ofSelection slippingDot [] wholeContext).toOption.map
      (fun p => p.2.driftedNodes.map (·.id)) = some [1] := by
    decide +kernel
  obtain ⟨⟨after, e⟩, h, hids⟩ := eq_ok_of_map_toOption hids
  obtain ⟨r, hr, hnone, -, hlast, -⟩ := drift_lists_failures hshape rfl h
  obtain rfl := Except.ok.inj (hfind.symm.trans hr)
  have hdot : 1 ∈ e.driftedNodes.map (·.id) := by
    rw [hids]
    exact List.mem_cons_self
  obtain ⟨d, hd, hdid⟩ := List.mem_map.mp hdot
  obtain ⟨p, hp, hfailure⟩ := (hlast d).mp hd
  rw [hdid] at hfailure
  refine ⟨hshape, rfl, after, e, h, fun hdrift => ?_, hids, p, hp.mem, by rw [hfailure]; rfl⟩
  rw [hnone.mp hdrift] at hd
  cases hd

/-- An inner artboard that slips in the round of the outer one is found in its own round where the
slip has left it, and the export tells of nothing. -/
theorem failure_covered_up :
    ¬ ∀ (doc after : SlippingScene) selection (context : Context Float) e r,
      Host.FixedShape doc → context.options.responsive = true →
      ofSelection doc selection context = .ok (after, e) →
      Roots.find (Host.scene doc) selection context.options = .ok r →
      ∀ p ∈ Measurements.rounds context.thresholds doc r.artboards, ∀ id,
        (p.failure? id).isSome → ∃ d ∈ e.driftedNodes, d.id = id := by
  intro h
  have hshape : Host.FixedShape (⟨nestedBoards, 1, 0⟩ : SlippingScene) :=
    SlippingScene.fixedShape_of_built built_nestedBoards
  have hfind : Roots.find (Host.scene (⟨nestedBoards, 1, 0⟩ : SlippingScene)) []
      wholeContext.options = .ok ⟨[("Outer", 0), ("Inner", 1)], [0, 1]⟩ := by
    decide +kernel
  have hfailed : ((Measurements.rounds wholeContext.thresholds
      (⟨nestedBoards, 1, 0⟩ : SlippingScene) [0, 1]).map fun p => (p.failure? 1).isSome) =
        [true, false] := by
    decide +kernel
  have hdrifted : (ofSelection (⟨nestedBoards, 1, 0⟩ : SlippingScene) []
      wholeContext).toOption.map (fun p => p.2.driftedNodes.map (·.id)) = some [] := by
    decide +kernel
  obtain ⟨⟨after, e⟩, hboards, hdrifted⟩ := eq_ok_of_map_toOption hdrifted
  have hmem : true ∈ (Measurements.rounds wholeContext.thresholds
      (⟨nestedBoards, 1, 0⟩ : SlippingScene) [0, 1]).map fun p => (p.failure? 1).isSome := by
    rw [hfailed]
    exact List.mem_cons_self
  obtain ⟨p, hp, hfailure⟩ := List.mem_map.mp hmem
  obtain ⟨d, hd, -⟩ := h _ after _ _ e _ hshape rfl hboards hfind p hp 1 hfailure
  rw [List.map_eq_nil_iff.mp hdrifted] at hd
  cases hd

end Export
end DesignLayout
