import DesignLayout.Proofs.Agreeing
import DesignLayout.Proofs.Cutting
import DesignLayout.Proofs.Probing

/-! A root that is exported alone, or together with others.

The roots of one export write into one ledger, and the records of all artboards that were probed are
merged. What a root is compiled to depends on the ledger only by how its pictures are called, and on
the records only by those of its own branch (`Compiler.unpictured_root`). A node stands in at most
one artboard, when these stand apart; so its record is the one that was taken down in that artboard,
whatever else was probed (`Measurements.record?_probeAll_iff_exists`). The artboards around the
nodes of a branch are probed for its root alone just as for the whole scene
(`Roots.exists_candidate_iff`), and so a root is compiled to the same either way
(`Export.alone_or_together`). -/
namespace DesignLayout

variable {α : Type}

/-! ### Elements without the names of their pictures -/

def ElementKind.unpictured : ElementKind α → ElementKind α
  | image _ => image ""
  | kind => kind

def Attributes.unpictured (a : Attributes α) : Attributes α :=
  { a with kind := a.kind.unpictured }

/-- The document, all its pictures being called nothing. -/
def Document.unpictured (d : Document α) : Document α :=
  { d with root := d.root.mapOwn Attributes.unpictured }

def CompiledRoot.unpictured (r : CompiledRoot α) : CompiledRoot α :=
  { r with document := r.document.unpictured }

theorem ElementKind.unpictured_unpictured (kind : ElementKind α) :
    kind.unpictured.unpictured = kind.unpictured := by
  cases kind <;> rfl

theorem Attributes.forgets_unpictured : Forgets (unpictured (α := α)) where
  name _ := rfl
  rename _ _ := rfl
  group _ := rfl
  repin a pivot := by
    show ({ a with kind := a.kind.unpictured.unpictured, pivot } : Attributes α) = _
    rw [ElementKind.unpictured_unpictured]
    rfl

theorem Document.unpictured_ofRoot [Scalar α] {n : Node α} {parent : Option (Node α)} {scale : α}
    {e e' : Element α}
    (h : e.mapOwn Attributes.unpictured = e'.mapOwn Attributes.unpictured) :
    (ofRoot n parent scale e).unpictured = (ofRoot n parent scale e').unpictured := by
  have hpivot : e.own.pivot = e'.own.pivot := by
    have hown := congrArg Element.own h
    rw [Element.own_mapOwn, Element.own_mapOwn] at hown
    show e.own.unpictured.pivot = e'.own.unpictured.pivot
    rw [hown]
  rw [ofRoot, ofRoot, hpivot]
  exact congrArg (fun root => { ofBase _ e with root }) h

namespace Compiler
open Compile Element

variable {c : Compiler α} {m : Measurements α}

/-- The same compiler, taking over from other measurements. -/
def measuredBy (c : Compiler α) (m : Measurements α) : Compiler α :=
  { c with measurements := m }

theorem takesAlike_measuredBy {id : NodeId} (h : m.parameter? id = c.measurements.parameter? id) :
    TakesAlike Attributes.unpictured c (c.measuredBy m) id := by
  intro e e' he
  have hsame : (c.measuredBy m).withParameter id e' = c.withParameter id e' := by
    unfold withParameter measuredBy
    rw [h]
  have hset (p : Parameter) (e : Element α) :
      (e.setOwn ({ · with
        pivot := p.pivot, stretchX := p.stretchX, stretchY := p.stretchY })).mapOwn
          Attributes.unpictured =
      (e.mapOwn Attributes.unpictured).setOwn ({ · with
        pivot := p.pivot, stretchX := p.stretchX, stretchY := p.stretchY }) := mapOwn_setOwn rfl
  rw [hsame]
  unfold withParameter
  split
  · split
    · rw [hset, hset, he]
    · exact he
  · exact he

variable [Scalar α] {t : Target α}

theorem agreement_measuredBy :
    Agreement (fun _ _ => True) Attributes.unpictured c (c.measuredBy m) t where
  forgets := Attributes.forgets_unpictured
  label := rfl
  omits := rfl
  node := rfl
  report _ _ _ _ := ⟨rfl, trivial⟩
  picture _ _ _ _ _ _ := ⟨rfl, trivial⟩

/-- Up to the names of its pictures a root is compiled to the same from any ledger and from all
measurements with the same parameters for its branch. -/
theorem unpictured_root {b : Branch α}
    (h : ∀ id ∈ b.preorder, m.parameter? id = c.measurements.parameter? id) (l l' : Ledger α) :
    ((c.root b).run l).1.unpictured = (((c.measuredBy m).root b).run l').1.unpictured := by
  have hbranch := agreeUpTo_branch (agreement_measuredBy (t := c.target b)) false b
    (fun id hid => takesAlike_measuredBy (h id hid)) l l' trivial
  have hroot : ((((c.branch (c.target b) false b).run l).1).getD
        (emptyRoot (c.label b.node).name)).mapOwn Attributes.unpictured =
      (((((c.measuredBy m).branch (c.target b) false b).run l').1).getD
        (emptyRoot (c.label b.node).name)).mapOwn Attributes.unpictured := by
    rw [← Option.getD_map (mapOwn Attributes.unpictured),
      ← Option.getD_map (mapOwn Attributes.unpictured), hbranch.1]
  exact congrArg (CompiledRoot.mk b.id _ _) (Document.unpictured_ofRoot hroot)

end Compiler

/-! ### Records -/

namespace Measurements
variable [Scalar α] {t : ElasticScene α}

/-- Only the nodes of a branch are measured when it is probed. -/
theorem within_of_record?_probe (hf : t.scene.IsForest) {th : Thresholds α} {a id : NodeId}
    {r : Record α} (h : (probe th t a).2.record? id = some r) : t.scene.Within id a := by
  cases hn : t.scene.node? a with
  | none =>
    have hmissing : probe th t a = (t, empty) := by
      simp only [probe, Host.scene, hn]
    rw [hmissing, record?_empty] at h
    cases h
  | some n =>
    rw [record?_probe hf th hn, taken?, swept?] at h
    by_cases hid : id ∈ t.scene.subtree a
    · exact hf.within_of_mem_subtree hid
    · rw [if_neg hid] at h
      cases h

variable (hf : t.scene.IsForest) (hrest : t.AtRest) (hc : t.scene.Comparable)
include hf hrest hc

/-- At rest every round begins and ends with the same document. -/
theorem rounds_eq (th : Thresholds α) (roots : List NodeId) :
    rounds th t roots = roots.map fun root => ⟨root, t, t⟩ := by
  induction roots with
  | nil => rfl
  | cons root rest ih =>
    rw [rounds, (probe_restores hf hrest hc th root).1, ih, List.map_cons]

/-- Of artboards that stand apart, only one can have measured a node: its record is the one that
this artboard has. -/
theorem record?_probeAll_iff_exists (hapart : t.scene.BoardsApart) (th : Thresholds α)
    {boards : List NodeId} (hboards : ∀ a ∈ boards, t.scene.IsArtboard a) {id : NodeId}
    {found : Record α} :
    (probeAll th t boards).2.record? id = some found ↔
      ∃ a ∈ boards, (probe th t a).2.record? id = some found := by
  have hrecord : (probeAll th t boards).2.record? id =
      boards.reverse.findSome? fun a => (probe th t a).2.record? id := by
    rw [record?_probeAll, rounds_eq hf hrest hc, ← List.map_reverse, List.findSome?_map]
    rfl
  rw [hrecord]
  constructor
  · intro h
    obtain ⟨a, ha, hfound⟩ := List.exists_of_findSome?_eq_some h
    exact ⟨a, List.mem_reverse.mp ha, hfound⟩
  · rintro ⟨a, ha, hfound⟩
    cases hfirst : boards.reverse.findSome? fun a => (probe th t a).2.record? id with
    | none =>
      have hnone := List.findSome?_eq_none_iff.mp hfirst a (List.mem_reverse.mpr ha)
      rw [hfound] at hnone
      cases hnone
    | some other =>
      obtain ⟨a', ha', hother⟩ := List.exists_of_findSome?_eq_some hfirst
      have hsame : a = a' := hapart.unique (hboards a ha) (hboards a' (List.mem_reverse.mp ha'))
        (within_of_record?_probe hf hfound) (within_of_record?_probe hf hother)
      rw [← hsame, hfound] at hother
      exact hother.symm

/-- So a node has the same parameter whichever other artboards were probed. -/
theorem parameter?_probeAll_congr (hapart : t.scene.BoardsApart) (th : Thresholds α)
    {boards boards' : List NodeId} (hboards : ∀ a ∈ boards, t.scene.IsArtboard a)
    (hboards' : ∀ a ∈ boards', t.scene.IsArtboard a) {id : NodeId}
    (h : ∀ a, t.scene.Within id a → (a ∈ boards ↔ a ∈ boards')) :
    (probeAll th t boards).2.parameter? id = (probeAll th t boards').2.parameter? id := by
  have hrecord : (probeAll th t boards).2.record? id = (probeAll th t boards').2.record? id := by
    apply Option.ext
    intro found
    rw [record?_probeAll_iff_exists hf hrest hc hapart th hboards,
      record?_probeAll_iff_exists hf hrest hc hapart th hboards']
    refine exists_congr fun a => and_congr_left fun hfound => h a ?_
    exact within_of_record?_probe hf hfound
  rw [parameter?, parameter?, hrecord]

end Measurements

/-! ### Searching from one root -/

namespace Roots
variable {s : Scene α} {o : Options} (hf : s.IsForest)
include hf

theorem mem_artboards_ofCandidates (hapart : s.BoardsApart) {cs : List (String × NodeId)}
    {a : NodeId} :
    a ∈ (ofCandidates s cs).artboards ↔ s.IsArtboard a ∧ ∃ p ∈ cs, s.Within p.2 a := by
  show a ∈ (cs.filterMap (s.enclosingArtboard? ·.2)).eraseDups ↔ _
  simp only [List.mem_eraseDups, List.mem_filterMap, hapart.enclosingArtboard?_iff hf]
  constructor
  · rintro ⟨p, hp, ha, hw⟩
    exact ⟨ha, p, hp, hw⟩
  · rintro ⟨ha, p, hp, hw⟩
    exact ⟨p, hp, ha, hw⟩

variable {root : NodeId} {b : Branch α} (hb : s.branch? root = some b) (hsight : ¬ s.Hidden root)
include hb hsight

/-- From a root in sight the candidates in sight are found that stand in its branch. -/
theorem mem_candidates_iff {p : String × NodeId} :
    p ∈ candidates s o b ↔ s.Within p.2 root ∧ p ∈ allCandidates s o := by
  rw [mem_candidates hf root b p hb, Scene.seen_iff_of_not_hidden hsight, mem_allCandidates hf,
    and_assoc]

/-- In every artboard around a node of the branch, some candidate of the branch stands as soon as
any candidate does. -/
theorem exists_candidate_iff {name : String} (hroot : (name, root) ∈ allCandidates s o)
    {id a : NodeId} (hid : s.Within id root) (ha : s.Within id a) :
    (∃ p ∈ candidates s o b, s.Within p.2 a) ↔ ∃ p ∈ allCandidates s o, s.Within p.2 a := by
  constructor
  · rintro ⟨p, hp, hw⟩
    exact ⟨p, ((mem_candidates_iff hf hb hsight).mp hp).2, hw⟩
  · rintro ⟨p, hp, hw⟩
    rcases hid.total ha with hroota | haroot
    · exact ⟨(name, root), (mem_candidates_iff hf hb hsight).mpr ⟨.refl, hroot⟩, hroota⟩
    · exact ⟨p, (mem_candidates_iff hf hb hsight).mpr ⟨hw.trans haroot, hp⟩, hw⟩

/-- When all candidates have names of their own, those of the branch have. -/
theorem nodup_candidates (hnames : ((allCandidates s o).map (·.1)).Nodup) :
    ((candidates s o b).map (·.1)).Nodup := by
  have hids : ((candidates s o b).map (·.2)).Nodup :=
    (map_snd_candidates_sublist s o b).nodup (hf.nodup_preorder root b hb)
  refine List.Nodup.map_on ?_ hids.of_map
  intro p hp q hq hname
  have hall {p : String × NodeId} (hp : p ∈ candidates s o b) : p ∈ allCandidates s o :=
    ((mem_candidates_iff hf hb hsight).mp hp).2
  exact List.inj_on_of_nodup_map hnames (hall hp) (hall hq) hname

/-- So a search from a root in sight that is a candidate itself finds the candidates of its
branch. -/
theorem find_alone (hnames : ((allCandidates s o).map (·.1)).Nodup) {name : String}
    (hroot : (name, root) ∈ allCandidates s o) :
    find s [root] o = .ok (ofCandidates s (candidates s o b)) := by
  have hsearched : candidatesAll s o (s.branches [root]) = candidates s o b := by
    rw [Scene.branches, List.filterMap_cons_some hb]
    exact List.append_nil _
  have hfound : find s [root] o =
      if (candidates s o b).isEmpty then .error .nothingToExport
      else .ok (ofCandidates s (candidates s o b)) :=
    find_eq_of_nodup hsearched (nodup_candidates hf hb hsight hnames)
  have hmem : (name, root) ∈ candidates s o b :=
    (mem_candidates_iff hf hb hsight).mpr ⟨.refl, hroot⟩
  rw [hfound, if_neg]
  rw [List.isEmpty_iff]
  exact List.ne_nil_of_mem hmem

end Roots

/-! ### A whole export -/

namespace Export
variable [Scalar α] {t : ElasticScene α}

/-- What an export of the whole scene measures for a root, an export of the root alone measures
too. -/
theorem parameter?_measure_alone (hf : t.scene.IsForest) (hrest : t.AtRest)
    (hc : t.scene.Comparable) (hapart : t.scene.BoardsApart) (context : Context α) {root : NodeId}
    {b : Branch α} (hb : t.scene.branch? root = some b) (hsight : ¬ t.scene.Hidden root)
    {name : String} (hroot : (name, root) ∈ Roots.allCandidates t.scene context.options)
    {id : NodeId} (hid : id ∈ b.preorder) :
    (measure t context (Roots.ofCandidates t.scene
        (Roots.candidates t.scene context.options b))).2.parameter? id =
      (measure t context (Roots.ofCandidates t.scene
        (Roots.allCandidates t.scene context.options))).2.parameter? id := by
  have hw := (hf.mem_preorder root b id hb).mp hid
  have hboards (cs : List (String × NodeId)) :
      ∀ a ∈ (Roots.ofCandidates t.scene cs).artboards, t.scene.IsArtboard a := by
    intro a ha
    exact ((Roots.mem_artboards_ofCandidates hf hapart).mp ha).1
  unfold measure
  by_cases hprobes : context.options.responsive = true
  · rw [if_pos hprobes, if_pos hprobes]
    refine Measurements.parameter?_probeAll_congr hf hrest hc hapart context.thresholds
      (hboards _) (hboards _) fun a ha => ?_
    rw [Roots.mem_artboards_ofCandidates hf hapart, Roots.mem_artboards_ofCandidates hf hapart,
      Roots.exists_candidate_iff hf hb hsight hroot hw ha]
  · rw [if_neg hprobes, if_neg hprobes]

/-- An export of a document at rest compiles the roots that are found from the same document. -/
theorem ofSelection_of_atRest (hf : t.scene.IsForest) (hrest : t.AtRest)
    (hc : t.scene.Comparable) {selection : List NodeId} {context : Context α} {r : Roots}
    (h : Roots.find t.scene selection context.options = .ok r) :
    ofSelection t selection context =
      .ok (t, compile t.scene context (measure t context r).2 r) := by
  have hexport : ofSelection t selection context =
      .ok ((measure t context r).1,
        compile (measure t context r).1.scene context (measure t context r).2 r) :=
    ofSelection_of_find h
  rw [(measure_restores hf hrest hc context r).1] at hexport
  exact hexport

theorem exists_own_of_find (hf : t.scene.IsForest) {selection : List NodeId} {context : Context α}
    {r : Roots} (h : Roots.find t.scene selection context.options = .ok r) (m : Measurements α)
    {root : NodeId} (hroot : root ∈ r.ids) :
    ∃ own ∈ (compile t.scene context m r).roots, own.node = root := by
  rw [← map_node_compile (m := m) (Roots.lt_size_of_find hf h)] at hroot
  exact List.mem_map.mp hroot

/-- Up to the names of its pictures, a root in sight that is a candidate is compiled to the same
whether the candidates of its branch are exported or those of the whole scene. -/
theorem unpictured_alone (hf : t.scene.IsForest) (hrest : t.AtRest) (hc : t.scene.Comparable)
    (hapart : t.scene.BoardsApart) {context : Context α} {root : NodeId} {b : Branch α}
    (hb : t.scene.branch? root = some b) (hsight : ¬ t.scene.Hidden root) {name : String}
    (hroot : (name, root) ∈ Roots.allCandidates t.scene context.options)
    {full alone : Roots}
    (hfull : full = .ofCandidates t.scene (Roots.allCandidates t.scene context.options))
    (halone : alone = .ofCandidates t.scene (Roots.candidates t.scene context.options b))
    {own own' : CompiledRoot α}
    (hown : own ∈ (compile t.scene context (measure t context full).2 full).roots)
    (hown' : own' ∈ (compile t.scene context (measure t context alone).2 alone).roots)
    (hid : own.node = root) (hid' : own'.node = root) : own.unpictured = own'.unpictured := by
  obtain ⟨c, l, hbranch, hrun⟩ := exists_branch_of_mem_compile hown
  obtain ⟨c', l', hbranch', hrun'⟩ := exists_branch_of_mem_compile hown'
  rw [hid, hb] at hbranch
  rw [hid', hb] at hbranch'
  obtain rfl := Option.some.inj hbranch
  obtain rfl := Option.some.inj hbranch'
  rw [hrun, hrun']
  refine Compiler.unpictured_root (fun id hid => ?_) l l'
  rw [hfull, halone]
  exact parameter?_measure_alone hf hrest hc hapart context hb hsight hroot hid

/-- For every document that is built and at rest, with no NaN in its bounds and no artboard within
another one, whose candidates have names of their own, and for every context: a root of the whole
scene can be exported alone as well, and up to the names of its pictures it is then compiled to the
same, document and all. -/
theorem alone_or_together {t : ElasticScene Float} (hbuilt : t.Built) (hrest : t.AtRest)
    (hnan : ∀ id n, t.scene.node? id = some n → n.bounds.HasNoNaN)
    (hapart : t.scene.BoardsApart) {context : Context Float}
    (hnames : ((Roots.allCandidates t.scene context.options).map (·.1)).Nodup) {found : Roots}
    (hfound : Roots.find t.scene [] context.options = .ok found) {root : NodeId}
    (hroot : root ∈ found.ids) :
    ∃ full alone, ofSelection t [] context = .ok (t, full) ∧
      ofSelection t [root] context = .ok (t, alone) ∧
      (∃ own ∈ full.roots, own.node = root) ∧ (∃ own ∈ alone.roots, own.node = root) ∧
      ∀ own ∈ full.roots, ∀ own' ∈ alone.roots, own.node = root → own'.node = root →
        own.unpictured = own'.unpictured := by
  have hf := hbuilt.isForest
  have hc : t.scene.Comparable := fun id n hn => (hnan id n hn).same_self
  have hfull := Roots.eq_ofCandidates_of_find hnames hfound
  obtain ⟨⟨name, root⟩, hmem, rfl⟩ : ∃ p ∈ Roots.allCandidates t.scene context.options,
      p.2 = root := by
    rw [hfull] at hroot
    exact List.mem_map.mp hroot
  obtain ⟨hsight, n, hn, -⟩ := (Roots.mem_allCandidates hf).mp hmem
  have hb := hf.branch?_of_node? hn
  have halone := Roots.find_alone hf hb hsight hnames hmem
  have hroot' := List.mem_map_of_mem (f := Prod.snd)
    ((Roots.mem_candidates_iff hf hb hsight).mpr ⟨.refl, hmem⟩)
  exact ⟨_, _, ofSelection_of_atRest hf hrest hc hfound, ofSelection_of_atRest hf hrest hc halone,
    exists_own_of_find hf hfound _ hroot, exists_own_of_find hf halone _ hroot',
    fun own hown own' hown' => unpictured_alone hf hrest hc hapart hb hsight hmem hfull rfl hown
      hown'⟩

/-- Two boards with an icon each, the second one within a card of its own; both icons stand in a
panel. -/
def cardBoards : ElasticScene Float :=
  let box (name : String) (kind : Kind) : Draft Float :=
    { name, kind, bounds := ⟨0.0, 0.0, 10.0, 10.0⟩, guid := name }
  ((((((ElasticScene.empty.insert none (box "Home" .artboard)).insert (some 0)
    (box "panel" .group)).insert (some 1) (box "icon" .ellipse)).insert none
    (box "Shop" .artboard)).insert (some 3) (box "card/" .group)).insert (some 4)
    (box "panel" .group)).insert (some 5) (box "icon" .rectangle)

theorem cardBoards_alone_or_together :
    ∃ full alone, ofSelection cardBoards [] wholeContext = .ok (cardBoards, full) ∧
      ofSelection cardBoards [4] wholeContext = .ok (cardBoards, alone) ∧
      full.manifest.files = ["panel - icon", "panel - icon_icon"] ∧
      alone.manifest.files = ["panel - icon"] ∧
      ∀ own ∈ full.roots, ∀ own' ∈ alone.roots, own.node = 4 → own'.node = 4 →
        own.unpictured = own'.unpictured := by
  have hbuilt : cardBoards.Built :=
    ((((((ElasticScene.Built.empty.insert none _ (by simp)).insert (some 0) _ (by decide)).insert
      (some 1) _ (by decide)).insert none _ (by simp)).insert (some 3) _ (by decide)).insert
      (some 4) _ (by decide)).insert (some 5) _ (by decide)
  have hnan : ∀ id n, cardBoards.scene.node? id = some n → n.bounds.HasNoNaN :=
    Scene.forall_bounds_insert (by decide) (by decide) <|
      Scene.forall_bounds_insert (by decide) (by decide) <|
      Scene.forall_bounds_insert (by decide) (by decide) <|
      Scene.forall_bounds_insert (by simp) (by decide) <|
      Scene.forall_bounds_insert (by decide) (by decide) <|
      Scene.forall_bounds_insert (by decide) (by decide) <|
      Scene.forall_bounds_insert (by simp) (by decide) Scene.forall_bounds_empty
  have hapart : cardBoards.scene.BoardsApart :=
    Scene.boardsApart_of_parent_eq_none (by decide +kernel)
  have hnames : ((Roots.allCandidates cardBoards.scene wholeContext.options).map (·.1)).Nodup := by
    decide +kernel
  have hids : (Roots.find cardBoards.scene [] wholeContext.options).toOption.map (·.ids) =
      some [0, 3, 4] := by
    decide +kernel
  have hfiles : (ofSelection cardBoards [] wholeContext).toOption.map (·.2.manifest.files) =
      some ["panel - icon", "panel - icon_icon"] := by
    decide +kernel
  have hfile : (ofSelection cardBoards [4] wholeContext).toOption.map (·.2.manifest.files) =
      some ["panel - icon"] := by
    decide +kernel
  obtain ⟨found, hfound, hids⟩ := eq_ok_of_map_toOption hids
  have hcard : 4 ∈ found.ids := by
    rw [hids]
    decide
  obtain ⟨full, alone, hfull, halone, -, -, hsame⟩ :=
    alone_or_together hbuilt rfl hnan hapart hnames hfound hcard
  rw [hfull] at hfiles
  rw [halone] at hfile
  exact ⟨full, alone, hfull, halone, Option.some.inj hfiles, Option.some.inj hfile, hsame⟩

end Export
end DesignLayout
