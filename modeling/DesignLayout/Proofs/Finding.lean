import DesignLayout.Proofs.Exporting
import DesignLayout.Proofs.LikeExports

/-! Which nodes become roots.

A search that begins at a node finds the candidates below it that nothing on the way down comments
out (`Roots.mem_candidates`); from the top of the scene these are all candidates that are not hidden
(`Roots.mem_allCandidates`). The roots are the candidates that were found, one after the other, as
long as no two of them have one display name (`Roots.find_eq_of_nodup`). The artboard that is probed
for a root is its nearest one; where no artboard stands within another one, that is the only artboard
which the root stands in (`Scene.BoardsApart.enclosingArtboard?_iff`). -/
namespace DesignLayout

variable {α : Type} {s : Scene α}

namespace Scene

/-- The node is commented out, or stands below a node that is. -/
def Hidden (s : Scene α) (id : NodeId) : Prop :=
  ∃ a, s.Within id a ∧ s.CommentsOut a

/-- The node stands in the branch of `a`, and nothing from `a` down to it is commented out. -/
def Seen (s : Scene α) (a id : NodeId) : Prop :=
  s.Within id a ∧ ∀ m, s.Within id m → s.Within m a → ¬ s.CommentsOut m

theorem CommentsOut.lt_size {id : NodeId} (h : s.CommentsOut id) : id < s.size := by
  obtain ⟨n, hn, -⟩ := h
  exact lt_size_of_node? hn

/-- What is seen is not commented out itself. -/
theorem Seen.not_commentsOut {a id : NodeId} (h : s.Seen a id) : ¬ s.CommentsOut id :=
  h.2 id .refl h.1

/-- From a node in sight the nodes in sight are seen, and no others. -/
theorem seen_iff_of_not_hidden {a id : NodeId} (ha : ¬ s.Hidden a) :
    s.Seen a id ↔ s.Within id a ∧ ¬ s.Hidden id := by
  constructor
  · rintro ⟨hw, hseen⟩
    refine ⟨hw, ?_⟩
    rintro ⟨m, hm, hout⟩
    rcases hw.total hm with ham | hma
    · exact ha ⟨m, ham, hout⟩
    · exact hseen m hm hma hout
  · rintro ⟨hw, hid⟩
    exact ⟨hw, fun m hm _ hout => hid ⟨m, hm, hout⟩⟩

namespace IsForest
variable (hf : s.IsForest)
include hf

theorem within_antisymm {a b : NodeId} (hab : s.Within a b) (hba : s.Within b a) : a = b :=
  Nat.le_antisymm (hf.le_of_within hba) (hf.le_of_within hab)

/-- What is seen from a node is the node itself, and what is seen from its children. -/
theorem seen_iff {a id : NodeId} :
    s.Seen a id ↔ ¬ s.CommentsOut a ∧ (id = a ∨ ∃ c ∈ s.children a, s.Seen c id) := by
  constructor
  · rintro ⟨hw, hseen⟩
    refine ⟨hseen a hw .refl, ?_⟩
    rcases Relation.ReflTransGen.cases_tail hw with rfl | ⟨c, hc, hca⟩
    · exact .inl rfl
    · exact .inr ⟨c, hf.mem_children.mpr hca, hc, fun m hm hmc => hseen m hm (hmc.tail hca)⟩
  · rintro ⟨ha, rfl | ⟨c, hc, hw, hseen⟩⟩
    · refine ⟨.refl, fun m hm hma => ?_⟩
      rwa [hf.within_antisymm hma hm]
    · have hca := hf.mem_children.mp hc
      refine ⟨hw.tail hca, fun m hm hma => ?_⟩
      rcases hw.total hm with hcm | hmc
      · -- Between a child and its parent there is nothing else.
        rcases Relation.ReflTransGen.cases_head hcm with rfl | ⟨p, hp, hpm⟩
        · exact hseen c hm .refl
        · rw [← hca.unique hp] at hpm
          rwa [hf.within_antisymm hma hpm]
      · exact hseen m hm hmc

/-- From the top of the scene everything is seen that is not hidden. -/
theorem exists_top_seen_iff {id : NodeId} (hid : id < s.size) :
    (∃ r ∈ s.topLevel, s.Seen r id) ↔ ¬ s.Hidden id := by
  constructor
  · rintro ⟨r, hr, hw, hseen⟩ ⟨m, hm, hout⟩
    obtain ⟨r', hr', hm'⟩ := hf.exists_top m hout.lt_size
    obtain rfl := hf.top_unique hr hr' hw (hm.trans hm')
    exact hseen m hm hm' hout
  · intro h
    obtain ⟨r, hr, hw⟩ := hf.exists_top id hid
    exact ⟨r, hr, hw, fun m hm _ hout => h ⟨m, hm, hout⟩⟩

end IsForest
end Scene

/-! ### Candidates -/

namespace Roots
variable {o : Options}

/-- The node is a candidate, and the name is its display name. -/
def Eligible (s : Scene α) (o : Options) (p : String × NodeId) : Prop :=
  ∃ n, s.node? p.2 = some n ∧ isCandidate o n (s.label o.extended n) = true ∧
    p.1 = (s.label o.extended n).name

theorem candidatesAll_eq (s : Scene α) (o : Options) (bs : List (Branch α)) :
    candidatesAll s o bs = bs.flatMap (candidates s o) := by
  induction bs with
  | nil => rfl
  | cons b rest ih => rw [candidatesAll, ih, List.flatMap_cons]

theorem mem_candidatesAll_branches {ids : List NodeId} {p : String × NodeId} :
    p ∈ candidatesAll s o (s.branches ids) ↔
      ∃ c ∈ ids, ∃ b, s.branch? c = some b ∧ p ∈ candidates s o b := by
  simp only [candidatesAll_eq, Scene.branches, List.mem_flatMap, List.mem_filterMap]
  constructor
  · rintro ⟨b, ⟨c, hc, hb⟩, hp⟩
    exact ⟨c, hc, b, hb, hp⟩
  · rintro ⟨c, hc, b, hb, hp⟩
    exact ⟨b, ⟨c, hc, hb⟩, hp⟩

/-- So what a search of branches finds is known once it is known of each of them. -/
theorem mem_candidatesAll_iff (hf : s.IsForest) {ids : List NodeId} {p : String × NodeId}
    {P : NodeId → Prop} (hids : ∀ c ∈ ids, c < s.size)
    (h : ∀ c ∈ ids, ∀ b, s.branch? c = some b → (p ∈ candidates s o b ↔ P c)) :
    p ∈ candidatesAll s o (s.branches ids) ↔ ∃ c ∈ ids, P c := by
  rw [mem_candidatesAll_branches]
  refine exists_congr fun c => and_congr_right fun hc => ?_
  obtain ⟨b, hb⟩ := hf.exists_branch (hids c hc)
  rw [hb, ← h c hc b hb]
  exact ⟨fun ⟨_, hb', hp⟩ => Option.some.inj hb' ▸ hp, fun hp => ⟨b, rfl, hp⟩⟩

/-- A search from a node finds the candidates that are seen from it. -/
theorem mem_candidates (hf : s.IsForest) (a : NodeId) :
    ∀ b p, s.branch? a = some b →
      (p ∈ candidates s o b ↔ s.Seen a p.2 ∧ Eligible s o p) := by
  intro b p hb
  induction a, b, hb using hf.induction_branch with
  | step a n hn hb ih =>
    have hout : s.CommentsOut a ↔ n.commentedOut = true := by
      rw [Scene.commentsOut_iff, hn, Option.any_some]
    rw [candidates, Scene.has_commentOut_label, hf.seen_iff, hout]
    by_cases hcommented : n.commentedOut = true
    · rw [if_pos hcommented]
      exact iff_of_false List.not_mem_nil fun h => h.1.1 hcommented
    · have hown : p ∈ (if isCandidate o n (s.label o.extended n) = true
          then [((s.label o.extended n).name, a)] else []) ↔ p.2 = a ∧ Eligible s o p := by
        constructor
        · intro hp
          split at hp
          · rename_i hcandidate
            obtain rfl := List.mem_singleton.mp hp
            exact ⟨rfl, n, hn, hcandidate, rfl⟩
          · cases hp
        · rintro ⟨rfl, n', hn', hcandidate, hname⟩
          obtain rfl := Option.some.inj (hn.symm.trans hn')
          rw [if_pos hcandidate, ← hname]
          exact List.mem_singleton.mpr rfl
      have hbelow : p ∈ candidatesAll s o (s.branches (s.children a)) ↔
          ∃ c ∈ s.children a, s.Seen c p.2 ∧ Eligible s o p :=
        mem_candidatesAll_iff hf (fun _ => hf.lt_size_of_mem_children) ih
      rw [if_neg hcommented, List.mem_append, hown, hbelow]
      constructor
      · rintro (⟨hid, hp⟩ | ⟨c, hc, hseen, hp⟩)
        · exact ⟨⟨hcommented, .inl hid⟩, hp⟩
        · exact ⟨⟨hcommented, .inr ⟨c, hc, hseen⟩⟩, hp⟩
      · rintro ⟨⟨-, hid | ⟨c, hc, hseen⟩⟩, hp⟩
        · exact .inl ⟨hid, hp⟩
        · exact .inr ⟨c, hc, hseen, hp⟩

/-- The candidates of the whole scene. -/
def allCandidates (s : Scene α) (o : Options) : List (String × NodeId) :=
  candidatesAll s o (s.branches s.topLevel)

theorem mem_allCandidates (hf : s.IsForest) {p : String × NodeId} :
    p ∈ allCandidates s o ↔ ¬ s.Hidden p.2 ∧ Eligible s o p := by
  have hmem : p ∈ allCandidates s o ↔ ∃ c ∈ s.topLevel, s.Seen c p.2 ∧ Eligible s o p :=
    mem_candidatesAll_iff hf (fun _ => hf.lt_size_of_mem_topLevel)
      fun c _ b => mem_candidates hf c b p
  rw [hmem]
  constructor
  · rintro ⟨c, hc, hseen, hp⟩
    have hp' := hp
    obtain ⟨n, hn, -⟩ := hp'
    exact ⟨(hf.exists_top_seen_iff (Scene.lt_size_of_node? hn)).mp ⟨c, hc, hseen⟩, hp⟩
  · rintro ⟨hid, hp⟩
    have hp' := hp
    obtain ⟨n, hn, -⟩ := hp'
    obtain ⟨c, hc, hseen⟩ := (hf.exists_top_seen_iff (Scene.lt_size_of_node? hn)).mpr hid
    exact ⟨c, hc, hseen, hp⟩

mutual

theorem map_snd_candidates_sublist (s : Scene α) (o : Options) :
    ∀ b, ((candidates s o b).map (·.2)).Sublist b.preorder
  | .mk id n children => by
    have hbelow := map_snd_candidatesAll_sublist s o children
    rw [candidates, Branch.preorder]
    split
    · exact List.nil_sublist _
    · split
      · exact hbelow.cons_cons id
      · exact hbelow.cons id

theorem map_snd_candidatesAll_sublist (s : Scene α) (o : Options) :
    ∀ bs, ((candidatesAll s o bs).map (·.2)).Sublist (Branch.preorderAll bs)
  | [] => .slnil
  | b :: rest => by
    rw [candidatesAll, Branch.preorderAll, List.map_append]
    exact (map_snd_candidates_sublist s o b).append (map_snd_candidatesAll_sublist s o rest)

end

/-! ### The roots that are found -/

theorem put_of_notMem {name : String} {named : List (String × NodeId)}
    (h : name ∉ named.map (·.1)) (id : NodeId) : put name id named = named ++ [(name, id)] := by
  induction named with
  | nil => rfl
  | cons q rest ih =>
    obtain ⟨other, old⟩ := q
    rw [List.map_cons, List.mem_cons, not_or] at h
    rw [put, if_neg (Ne.symm h.1), ih h.2]
    rfl

/-- Names that are all different are put one behind the other. -/
theorem foldl_put_of_nodup {cs named : List (String × NodeId)}
    (h : ((named ++ cs).map (·.1)).Nodup) :
    cs.foldl (fun named c => put c.1 c.2 named) named = named ++ cs := by
  induction cs generalizing named with
  | nil => exact (List.append_nil named).symm
  | cons c rest ih =>
    have hc : c.1 ∉ named.map (·.1) := by
      rw [List.map_append, List.map_cons] at h
      exact fun hmem => (List.nodup_append.mp h).2.2 c.1 hmem c.1 List.mem_cons_self rfl
    rw [List.foldl_cons, put_of_notMem hc, ih (by simpa using h), List.append_assoc]
    rfl

/-- The roots that stand behind these candidates. -/
def ofCandidates (s : Scene α) (cs : List (String × NodeId)) : Roots :=
  { named := cs, artboards := (cs.filterMap (s.enclosingArtboard? ·.2)).eraseDups }

/-- Where no two candidates have one name, all of them become roots. -/
theorem find_eq_of_nodup {selection : List NodeId} {cs : List (String × NodeId)}
    (hcs : candidatesAll s o (s.branches
      (if selection.isEmpty then s.topLevel else selection)) = cs)
    (hnodup : (cs.map (·.1)).Nodup) :
    find s selection o =
      if cs.isEmpty then .error .nothingToExport else .ok (ofCandidates s cs) := by
  have hput : cs.foldl (fun named c => put c.1 c.2 named) [] = [] ++ cs :=
    foldl_put_of_nodup hnodup
  unfold find
  simp only [hcs, hput, List.nil_append]
  rfl

/-- Where no two candidates have one name, the roots of the whole scene are its candidates. -/
theorem eq_ofCandidates_of_find {found : Roots} (hnames : ((allCandidates s o).map (·.1)).Nodup)
    (h : find s [] o = .ok found) : found = ofCandidates s (allCandidates s o) := by
  have hfind : find s [] o =
      if (allCandidates s o).isEmpty then .error .nothingToExport
      else .ok (ofCandidates s (allCandidates s o)) := find_eq_of_nodup rfl hnames
  rw [hfind] at h
  by_cases hempty : (allCandidates s o).isEmpty = true
  · rw [if_pos hempty] at h
    cases h
  · rw [if_neg hempty] at h
    exact (Except.ok.inj h).symm

theorem mem_ids_find_iff (hf : s.IsForest) {found : Roots}
    (hnames : ((allCandidates s o).map (·.1)).Nodup) (h : find s [] o = .ok found) (id : NodeId) :
    id ∈ found.ids ↔ ¬ s.Hidden id ∧ ∃ name, Eligible s o (name, id) := by
  obtain rfl := eq_ofCandidates_of_find hnames h
  show id ∈ (allCandidates s o).map (·.2) ↔ _
  constructor
  · intro hid
    obtain ⟨⟨name, id⟩, hp, rfl⟩ := List.mem_map.mp hid
    obtain ⟨hsight, heligible⟩ := (mem_allCandidates hf).mp hp
    exact ⟨hsight, name, heligible⟩
  · rintro ⟨hsight, name, heligible⟩
    exact List.mem_map_of_mem ((mem_allCandidates hf).mpr ⟨hsight, heligible⟩)

/-- The nodes at which a search begins. -/
def searched (s : Scene α) (selection : List NodeId) : List NodeId :=
  if selection.isEmpty then s.topLevel else selection

/-- Every root is a candidate that is seen from a node at which the search began. -/
theorem exists_seen_of_find (hf : s.IsForest) {selection : List NodeId} {r : Roots}
    (h : find s selection o = .ok r) :
    ∀ p ∈ r.named, Eligible s o p ∧ ∃ a ∈ searched s selection, s.Seen a p.2 := by
  intro p hp
  rw [(eq_of_find h).1] at hp
  rcases mem_foldl_put hp with hp | hp
  · obtain ⟨a, ha, b, hb, hp⟩ := mem_candidatesAll_branches.mp hp
    obtain ⟨hseen, heligible⟩ := (mem_candidates hf a b p hb).mp hp
    exact ⟨heligible, a, ha, hseen⟩
  · cases hp

/-- Every root is a node of the scene. -/
theorem lt_size_of_find (hf : s.IsForest) {selection : List NodeId} {r : Roots}
    (h : find s selection o = .ok r) : ∀ id ∈ r.ids, id < s.size := by
  intro id hid
  obtain ⟨p, hp, rfl⟩ := List.mem_map.mp hid
  obtain ⟨⟨n, hn, -⟩, -⟩ := exists_seen_of_find hf h p hp
  exact Scene.lt_size_of_node? hn

end Roots

/-! ### The nearest artboard -/

namespace Scene

def IsArtboard (s : Scene α) (a : NodeId) : Prop :=
  ∃ n, s.node? a = some n ∧ n.kind = .artboard

/-- No artboard stands within another one. -/
def BoardsApart (s : Scene α) : Prop :=
  ∀ a b, s.IsArtboard a → s.IsArtboard b → s.Within a b → a = b

/-- Artboards at the top of the scene stand apart. -/
theorem boardsApart_of_parent_eq_none
    (h : ∀ n ∈ s.nodes, n.kind = .artboard → n.parent = none) : s.BoardsApart := by
  rintro a b ⟨n, hn, hkind⟩ - hw
  rcases Relation.ReflTransGen.cases_head hw with hab | ⟨p, ⟨k, hk, hp⟩, -⟩
  · exact hab
  · have htop := h n (Array.mem_of_getElem? hn) hkind
    rw [hn, Option.some.injEq] at hk
    rw [← hk, htop] at hp
    cases hp

/-- A node stands in one artboard at most. -/
theorem BoardsApart.unique (h : s.BoardsApart) {a b id : NodeId} (ha : s.IsArtboard a)
    (hb : s.IsArtboard b) (hida : s.Within id a) (hidb : s.Within id b) : a = b := by
  rcases hida.total hidb with hab | hba
  · exact h a b ha hb hab
  · exact (h b a hb ha hba).symm

/-- An artboard that is found is the node itself, or it is found from the parent. -/
theorem cases_artboardWithin? {levels : Nat} {id a : NodeId}
    (h : s.artboardWithin? (levels + 1) id = some a) :
    s.IsArtboard id ∧ a = id ∨
      ¬ s.IsArtboard id ∧ ∃ p, s.ChildOf id p ∧ s.artboardWithin? levels p = some a := by
  rw [artboardWithin?] at h
  cases hn : s.node? id with
  | none =>
    rw [hn] at h
    cases h
  | some n =>
    simp only [hn] at h
    split at h
    · exact .inl ⟨⟨n, hn, ‹_›⟩, (Option.some.inj h).symm⟩
    · obtain ⟨p, hp, ha⟩ := Option.bind_eq_some_iff.mp h
      refine .inr ⟨?_, p, ⟨n, hn, hp⟩, ha⟩
      rintro ⟨k, hk, hkind⟩
      rw [hn] at hk
      cases hk
      contradiction

theorem within_of_artboardWithin? {levels : Nat} {id a : NodeId}
    (h : s.artboardWithin? levels id = some a) : s.IsArtboard a ∧ s.Within id a := by
  induction levels generalizing id with
  | zero => cases h
  | succ levels ih =>
    rcases cases_artboardWithin? h with ⟨hboard, rfl⟩ | ⟨-, p, hp, ha⟩
    · exact ⟨hboard, .refl⟩
    · obtain ⟨hboard, hw⟩ := ih ha
      exact ⟨hboard, .head hp hw⟩

/-- The way up is never cut off before an artboard: the numbers get smaller. -/
theorem IsForest.exists_artboardWithin? (hf : s.IsForest) {a : NodeId} (ha : s.IsArtboard a)
    {levels : Nat} {id : Nat} (hw : s.Within id a) (hlevels : id < levels) :
    ∃ b, s.artboardWithin? levels id = some b := by
  induction levels generalizing id with
  | zero => exact absurd hlevels (Nat.not_lt_zero id)
  | succ levels ih =>
    rw [artboardWithin?]
    rcases Relation.ReflTransGen.cases_head hw with rfl | ⟨p, ⟨n, hn, hp⟩, hpa⟩
    · obtain ⟨n, hn, hkind⟩ := ha
      exact ⟨id, by simp [hn, hkind]⟩
    · by_cases hkind : n.kind = .artboard
      · exact ⟨id, by simp [hn, hkind]⟩
      · have hlt := hf.parent_lt ⟨n, hn, hp⟩
        obtain ⟨b, hb⟩ := ih hpa (Nat.lt_of_lt_of_le hlt (Nat.le_of_lt_succ hlevels))
        exact ⟨b, by simp [hn, hkind, hp, hb]⟩

theorem BoardsApart.enclosingArtboard?_iff (h : s.BoardsApart) (hf : s.IsForest) {id a : NodeId} :
    s.enclosingArtboard? id = some a ↔ s.IsArtboard a ∧ s.Within id a := by
  constructor
  · exact within_of_artboardWithin?
  · rintro ⟨ha, hw⟩
    have hsize : id < s.size := by
      obtain ⟨n, hn, -⟩ := ha
      exact hw.lt_size (lt_size_of_node? hn)
    obtain ⟨b, hb⟩ := hf.exists_artboardWithin? ha hw hsize
    obtain ⟨hboard, hwb⟩ := within_of_artboardWithin? hb
    rw [h.unique ha hboard hw hwb]
    exact hb

end Scene

/-! ### The roots that are compiled -/

namespace Scene

theorem node?_of_branchWithin? {levels : Nat} {id : NodeId} {b : Branch α}
    (h : s.branchWithin? levels id = some b) : s.node? id = some b.node := by
  cases levels with
  | zero => cases h
  | succ levels =>
    obtain ⟨n, hn, rfl⟩ := Option.map_eq_some_iff.mp h
    exact hn

theorem map_id_branch? (s : Scene α) (id : NodeId) :
    (s.branch? id).map (·.id) = (s.node? id).map fun _ => id := by
  unfold branch?
  cases hsize : s.size with
  | zero =>
    have hnone : s.node? id = none := node?_eq_none (by omega)
    rw [hnone]
    rfl
  | succ levels =>
    rw [branchWithin?, Option.map_map]
    rfl

theorem map_id_branches (s : Scene α) (ids : List NodeId) :
    (s.branches ids).map (·.id) = ids.filter fun id => (s.node? id).isSome := by
  induction ids with
  | nil => rfl
  | cons id rest ih =>
    have hid := s.map_id_branch? id
    cases hn : s.node? id with
    | none =>
      rw [hn] at hid
      rw [branches, List.filterMap_cons_none (Option.map_eq_none_iff.mp hid), ← branches, ih]
      simp [hn]
    | some n =>
      rw [hn] at hid
      obtain ⟨b, hb, hbid⟩ := Option.map_eq_some_iff.mp hid
      rw [branches, List.filterMap_cons_some hb, ← branches, List.map_cons, ih, hbid]
      simp [hn]

end Scene

namespace Compiler
variable [Scalar α] (c : Compiler α)

theorem map_node_roots (bs : List (Branch α)) (l : Ledger α) :
    ((c.roots bs).run l).1.map (·.node) = bs.map (·.id) := by
  induction bs generalizing l with
  | nil => rfl
  | cons b rest ih => exact congrArg (_ :: ·) (ih _)

/-- Every root was compiled from its branch, with whatever ledger there was. -/
theorem exists_of_mem_roots {bs : List (Branch α)} {l : Ledger α} {own : CompiledRoot α}
    (h : own ∈ ((c.roots bs).run l).1) : ∃ b ∈ bs, ∃ l', own = ((c.root b).run l').1 := by
  induction bs generalizing l with
  | nil => cases h
  | cons b rest ih =>
    rcases List.mem_cons.mp h with rfl | h
    · exact ⟨b, List.mem_cons_self, l, rfl⟩
    · obtain ⟨b', hb', l', howner⟩ := ih h
      exact ⟨b', List.mem_cons_of_mem b hb', l', howner⟩

end Compiler

namespace Export
variable [Scalar α] {context : Context α} {m : Measurements α} {r : Roots}

/-- Roots that are in the scene are all compiled, in their order. -/
theorem map_node_compile (h : ∀ id ∈ r.ids, id < s.size) :
    (compile s context m r).roots.map (·.node) = r.ids := by
  have hnodes : (compile s context m r).roots.map (·.node) =
      r.ids.filter fun id => (s.node? id).isSome := by
    rw [← Scene.map_id_branches]
    exact Compiler.map_node_roots _ _ _
  rw [hnodes, List.filter_eq_self]
  intro id hid
  obtain ⟨n, hn⟩ := Scene.node?_isSome (h id hid)
  rw [hn]
  rfl

/-- What is compiled for a node is compiled from its branch. -/
theorem exists_branch_of_mem_compile {own : CompiledRoot α}
    (h : own ∈ (compile s context m r).roots) :
    ∃ b l, s.branch? own.node = some b ∧
      own = ((Compiler.root ⟨s, context, m⟩ b).run l).1 := by
  obtain ⟨b, hb, l, hrun⟩ := Compiler.exists_of_mem_roots _ h
  obtain ⟨id, -, hbranch⟩ := List.mem_filterMap.mp hb
  have hid : own.node = id := by
    rw [hrun]
    exact Scene.id_of_branchWithin? hbranch
  rw [← hid] at hbranch
  exact ⟨b, l, hbranch, hrun⟩

end Export
end DesignLayout
