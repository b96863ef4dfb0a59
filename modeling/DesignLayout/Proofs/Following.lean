import DesignLayout.Proofs.Exporting
import DesignLayout.Proofs.Probing
import DesignLayout.Proofs.RoundTrip

/-! Which nodes of a probed branch have a parameter.

A round finds out how a node follows its parent when it measured both, so for every node of its
branch but the uppermost one (`isSome_found?_iff`). A node that is itself the top of a round can
thus lose to that round the parameter that an earlier round around it has found. It does exactly
when no round around it comes later (`Export.parameter_lost_iff`). -/
namespace DesignLayout

variable {α δ : Type} [Scalar α]

namespace Measurements

/-- A probe finds a parameter for all nodes of a branch but the uppermost one. -/
theorem isSome_found?_iff {s grown : Scene α} (hf : s.IsForest) (hg : s.SameLinks grown)
    (th : Thresholds α) {root id : NodeId} (hroot : root < s.size) (hid : s.Within id root) :
    (found? th s grown root id).isSome ↔ id ≠ root := by
  obtain ⟨n, hn⟩ := Scene.node?_isSome (hid.lt_size hroot)
  obtain ⟨k, hk, -⟩ := hg.exists_node? hn
  unfold found?
  rw [hn]
  constructor
  · rintro hsome rfl
    cases hp : n.parent with
    | none => simp [hp] at hsome
    | some p =>
      have hlt := hf.parent_lt ⟨n, hn, hp⟩
      have hout : p ∉ s.subtree id := fun hin =>
        absurd (hf.le_of_within ((hf.mem_subtree hroot).mp hin)) (Nat.not_le.mpr hlt)
      simp [hp, hout] at hsome
  · intro hne
    obtain h | ⟨p, hchild, hwithin⟩ := Relation.ReflTransGen.cases_head hid
    · exact absurd h hne
    · have hwithin : s.Within p root := hwithin
      have hin := (hf.mem_subtree hroot).mpr hwithin
      obtain ⟨n', hn', hp⟩ := hchild
      obtain rfl := Option.some.inj (hn.symm.trans hn')
      have hlt : p < s.size := hwithin.lt_size hroot
      obtain ⟨q, hq⟩ := Scene.node?_isSome hlt
      obtain ⟨l, hl, -⟩ := hg.exists_node? hq
      simp [hp, hin, Scene.bounds?, hn, hk, hq, hl]

end Measurements

variable [Host δ α]

omit [Scalar α] in
/-- If a round has measured a node, there is a last one that has. -/
theorem Round.exists_isLast {rs : List (Round δ)} {id : NodeId} (h : ∃ r ∈ rs, r.Measures id) :
    ∃ r, IsLast rs id r := by
  induction rs with
  | nil =>
    obtain ⟨r, hr, -⟩ := h
    cases hr
  | cons first rest ih =>
    by_cases hrest : ∃ r ∈ rest, r.Measures id
    · obtain ⟨r, earlier, later, rfl, hr⟩ := ih hrest
      exact ⟨r, first :: earlier, later, rfl, hr⟩
    · obtain ⟨r, hr, hid⟩ := h
      rcases List.mem_cons.mp hr with rfl | hr
      · exact ⟨r, [], rest, rfl, hid, fun r' hr' hid' => hrest ⟨r', hr', hid'⟩⟩
      · exact absurd ⟨r, hr, hid⟩ hrest

namespace Measurements
variable {doc : δ} {roots : List NodeId} {id : NodeId}

/-- The last round that measured a node has found a parameter, unless the node is its top. -/
theorem isSome_parameter?_probeAll {th : Thresholds α} (hshape : Host.FixedShape doc)
    (hroots : ∀ root ∈ roots, root < (Host.scene doc).size) {r : Round δ}
    (hr : Round.IsLast (rounds th doc roots) id r) :
    ((probeAll th doc roots).2.parameter? id).isSome ↔ id ≠ r.root := by
  have hroot := hroots _ (root_mem_of_mem_rounds hr.mem)
  have hlinks := hshape.sameLinks (mem_rounds hr.mem).1
  have hid : r.Measures id := by
    obtain ⟨_, _, -, hid, -⟩ := hr
    exact hid
  obtain ⟨n, grown, -, hgrown, hrecord⟩ := Round.record?_of_measures hshape hr.mem hroot hid
  have hbefore := hlinks.isForest hshape.isForest
  have hlt : r.root < (Host.scene r.before).size := hlinks.size_eq ▸ hroot
  rw [parameter?, (record?_probeAll_iff hshape hroots).mpr ⟨r, hr, hrecord⟩]
  exact isSome_found?_iff hbefore hgrown th hlt ((hbefore.mem_subtree hlt).mp hid)

theorem exists_isLast_of_within (th : Thresholds α) (hshape : Host.FixedShape doc)
    (hroots : ∀ root ∈ roots, root < (Host.scene doc).size) {a : NodeId} (ha : a ∈ roots)
    (hid : (Host.scene doc).Within id a) : ∃ r, Round.IsLast (rounds th doc roots) id r := by
  rw [← map_root_rounds th doc roots] at ha
  obtain ⟨r, hr, rfl⟩ := List.mem_map.mp ha
  have hroot := hroots _ (root_mem_of_mem_rounds hr)
  exact Round.exists_isLast ⟨r, hr, (Round.measures_iff hshape hr hroot).mpr hid⟩

/-- A node is the top of the last round that measured it when it is probed, and nothing around it
is probed later. -/
theorem exists_isLast_root_iff (th : Thresholds α) (hshape : Host.FixedShape doc)
    (hroots : ∀ root ∈ roots, root < (Host.scene doc).size) :
    (∃ r, Round.IsLast (rounds th doc roots) id r ∧ r.root = id) ↔
      ∃ earlier later, roots = earlier ++ id :: later ∧
        ∀ b ∈ later, ¬ (Host.scene doc).Within id b := by
  have hmeasures {r : Round δ} (hr : r ∈ rounds th doc roots) :
      r.Measures id ↔ (Host.scene doc).Within id r.root :=
    Round.measures_iff hshape hr (hroots _ (root_mem_of_mem_rounds hr))
  constructor
  · rintro ⟨r, ⟨earlier, later, hrounds, -, hlater⟩, rfl⟩
    refine ⟨earlier.map (·.root), later.map (·.root), ?_, fun b hb hwithin => ?_⟩
    · rw [← map_root_rounds th doc roots, hrounds, List.map_append, List.map_cons]
    · obtain ⟨r', hr', rfl⟩ := List.mem_map.mp hb
      have hmem : r' ∈ rounds th doc roots := by
        rw [hrounds]
        exact List.mem_append_right _ (List.mem_cons_of_mem r hr')
      exact hlater r' hr' ((hmeasures hmem).mpr hwithin)
  · rintro ⟨earlier, later, hsplit, hlater⟩
    rw [← map_root_rounds th doc roots] at hsplit
    obtain ⟨earlier', rest, hrounds, -, hrest⟩ := List.map_eq_append_iff.mp hsplit
    obtain ⟨r, later', rfl, rfl, rfl⟩ := List.map_eq_cons_iff.mp hrest
    have hmem {r' : Round δ} (hr' : r' ∈ r :: later') : r' ∈ rounds th doc roots := by
      rw [hrounds]
      exact List.mem_append_right _ hr'
    refine ⟨r, ⟨earlier', later', hrounds, ?_, fun r' hr' hid => ?_⟩, rfl⟩
    · exact (hmeasures (hmem List.mem_cons_self)).mpr .refl
    · exact hlater _ (List.mem_map_of_mem hr')
        ((hmeasures (hmem (List.mem_cons_of_mem r hr'))).mp hid)

end Measurements

/-! ### A whole export -/

namespace Export

/-- For every design document whose tree keeps its shape, and every selection and context with a
probe: a node below a probed artboard has a parameter, unless the node is itself a probed artboard
and nothing around it is probed later. -/
theorem parameter_lost_iff {doc doc' : δ} {selection : List NodeId} {context : Context α}
    {e : Export α} (hshape : Host.FixedShape doc)
    (hresponsive : context.options.responsive = true)
    (h : ofSelection doc selection context = .ok (doc', e)) :
    ∃ r, Roots.find (Host.scene doc) selection context.options = .ok r ∧
      ∀ a ∈ r.artboards, ∀ n, (Host.scene doc).Within n a → n ≠ a →
        (e.measurements.parameter? n = none ↔
          ∃ earlier later, r.artboards = earlier ++ n :: later ∧
            ∀ b ∈ later, ¬ (Host.scene doc).Within n b) := by
  obtain ⟨r, hr, hmeasure, -⟩ := ofSelection_eq_ok h
  obtain ⟨hroots, -⟩ := Roots.artboards_of_find hr
  rw [measure, if_pos hresponsive] at hmeasure
  have hm : (Measurements.probeAll context.thresholds doc r.artboards).2 = e.measurements := by
    rw [hmeasure]
  refine ⟨r, hr, fun a ha n hn _ => ?_⟩
  obtain ⟨p, hp⟩ := Measurements.exists_isLast_of_within context.thresholds hshape hroots ha hn
  rw [← hm, ← Measurements.exists_isLast_root_iff context.thresholds hshape hroots]
  constructor
  · intro hnone
    refine ⟨p, hp, ?_⟩
    by_contra hne
    have hsome := (Measurements.isSome_parameter?_probeAll hshape hroots hp).mpr (Ne.symm hne)
    rw [hnone] at hsome
    cases hsome
  · rintro ⟨q, hq, hroot⟩
    rw [← Option.not_isSome_iff_eq_none, Measurements.isSome_parameter?_probeAll hshape hroots hq]
    exact fun hne => hne hroot.symm

/-- An inner artboard that is selected before the outer one is probed first, and keeps what the
later round has found. -/
theorem inner_board_first :
    Host.FixedShape nestedBoards ∧ wholeContext.options.responsive = true ∧
    ∃ after e, ofSelection nestedBoards [1, 0] wholeContext = .ok (after, e) ∧
      nestedBoards.scene.Within 1 0 ∧ e.measurements.parameter? 1 ≠ none := by
  have hshape : Host.FixedShape nestedBoards := ElasticScene.fixedShape_of_built built_nestedBoards
  have hfind : Roots.find (Host.scene nestedBoards) [1, 0] wholeContext.options =
      .ok ⟨[("Inner", 1), ("Outer", 0)], [1, 0]⟩ := by
    decide +kernel
  have hwithin : nestedBoards.scene.Within 1 0 := .single ⟨_, rfl, rfl⟩
  refine ⟨hshape, rfl, _, _, ofSelection_of_find hfind, hwithin, fun hnone => ?_⟩
  obtain ⟨r, hr, hlost⟩ := parameter_lost_iff hshape rfl (ofSelection_of_find hfind)
  obtain rfl := Except.ok.inj (hfind.symm.trans hr)
  obtain ⟨earlier, later, hsplit, hlater⟩ :=
    (hlost 0 (by decide) 1 hwithin (by decide)).mp hnone
  rcases List.cons_eq_append_iff.mp hsplit with ⟨-, hlast⟩ | ⟨front, -, hrest⟩
  · obtain rfl : later = [0] := (List.cons.inj hlast).2
    exact hlater 0 List.mem_cons_self hwithin
  · have hmem : 1 ∈ [0] := hrest ▸ List.mem_append_right front List.mem_cons_self
    exact absurd hmem (by decide)

/-- An inner artboard that is probed after the outer one loses what was found out about it. -/
theorem inner_board_lost :
    ¬ ∀ (t after : ElasticScene Float) selection (context : Context Float) e r,
      t.Built → t.AtRest → context.options.responsive = true →
      ofSelection t selection context = .ok (after, e) →
      Roots.find t.scene selection context.options = .ok r →
      ∀ a ∈ r.artboards, ∀ n, t.scene.Within n a → n ≠ a →
        (e.measurements.parameter? n).isSome := by
  intro h
  have hfind : Roots.find nestedBoards.scene [] wholeContext.options =
      .ok ⟨[("Outer", 0), ("Inner", 1)], [0, 1]⟩ := by
    decide +kernel
  have hlost : (ofSelection nestedBoards [] wholeContext).toOption.map
      (fun p => p.2.measurements.parameter? 1) = some none := by
    decide +kernel
  obtain ⟨⟨after, e⟩, hboards, hlost⟩ := eq_ok_of_map_toOption hlost
  have hsome := h nestedBoards after [] wholeContext e _ built_nestedBoards rfl rfl hboards hfind
    0 (by decide) 1 (.single ⟨_, rfl, rfl⟩) (by decide)
  rw [hlost] at hsome
  cases hsome

end Export
end DesignLayout
