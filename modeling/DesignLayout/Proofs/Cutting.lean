import DesignLayout.Proofs.Commenting
import DesignLayout.Proofs.Finding
import DesignLayout.Proofs.Mirroring

/-! What is cut out of a document has a document of its own.

The compiler walks down from a root, and passes over what is commented out and over the sub-prefabs
(`Compiler.visited`). Whatever it comes to and is not commented out is seen from the root
(`Compiler.seen_of_mem_visited`); so the sub-prefabs that it cuts out of a document are among the
candidates that a search of the whole scene finds. Both walks read the same label of a node, and
moving nodes changes nothing about it. Where no two candidates have one name, every one that was cut
out is therefore a root itself (`Export.cut_is_root`), and a root of a known kind is never compiled to
nothing (`Compiler.exists_element`). -/
namespace DesignLayout

variable {α : Type}

/-! ### Finding in a scene that was moved -/

namespace Scene.Relaid
variable {s t : Scene α} (h : s.Relaid t)
include h

theorem commentsOut_iff (id : NodeId) : t.CommentsOut id ↔ s.CommentsOut id := by
  rcases h.cases_node? id with ⟨hs, ht⟩ | ⟨n, k, hs, ht, hmoved⟩
  · rw [Scene.commentsOut_iff, Scene.commentsOut_iff, hs, ht]
  · rw [Scene.commentsOut_iff, Scene.commentsOut_iff, hs, ht, Option.any_some, Option.any_some,
      Node.commentedOut, Node.commentedOut, ← hmoved]

theorem hidden_iff (id : NodeId) : t.Hidden id ↔ s.Hidden id := by
  refine exists_congr fun a => ?_
  rw [h.sameLinks.within_iff, h.commentsOut_iff]

theorem eligible_iff (o : Options) (p : String × NodeId) :
    Roots.Eligible t o p ↔ Roots.Eligible s o p := by
  unfold Roots.Eligible
  rcases h.cases_node? p.2 with ⟨hs, ht⟩ | ⟨n, k, hs, ht, hmoved⟩
  · simp [hs, ht]
  · have hcandidate (l : Label) : Roots.isCandidate o k l = Roots.isCandidate o n l := by
      rw [Roots.isCandidate, Roots.isCandidate, hmoved.kind, ← hmoved]
    simp only [hs, ht, Option.some.injEq, exists_eq_left', h.label hmoved, hcandidate]

end Scene.Relaid

/-! ### The walk of the compiler -/

namespace Compiler
open Element

section
variable (c : Compiler α)

mutual

/-- The branches that the compiler comes to in a branch, parents first: it goes on below a node
unless it passes the node over or draws it as a whole. -/
def visited (inner : Bool) : Branch α → List (Branch α)
  | .mk id n children =>
    .mk id n children ::
      if c.omits inner (c.label n) || drawsWhole n (c.label n) then [] else visitedAll children

def visitedAll : List (Branch α) → List (Branch α)
  | [] => []
  | b :: rest => visited true b ++ visitedAll rest

end

/-- The sub-prefab in force that the branch is, apart from what is commented out. -/
def cutsOut (b : Branch α) : Bool :=
  !(c.label b.node).directives.has .commentOut &&
    c.context.options.active (c.label b.node).directives .subPrefab

/-- The branches that the compiler cuts out of the document of a root. -/
def cut (root : Branch α) : List (Branch α) :=
  (c.visited false root).tail.filter c.cutsOut

end

variable {c : Compiler α}

theorem mem_visitedAll {bs : List (Branch α)} {x : Branch α} :
    x ∈ c.visitedAll bs ↔ ∃ b ∈ bs, x ∈ c.visited true b := by
  induction bs with
  | nil => simp [visitedAll]
  | cons b rest ih => simp [visitedAll, ih]

theorem commentsOut_iff_has {id : NodeId} {n : Node α} (hn : c.scene.node? id = some n) :
    c.scene.CommentsOut id ↔ (c.label n).directives.has .commentOut = true := by
  rw [Scene.commentsOut_iff, hn, Option.any_some, label, Scene.has_commentOut_label]

/-- What the compiler comes to is a branch of the scene, and is seen from where the compiler began
unless it is commented out itself. -/
theorem seen_of_mem_visited (hf : c.scene.IsForest) (a : NodeId) :
    ∀ inner b x, c.scene.branch? a = some b → x ∈ c.visited inner b →
      c.scene.branch? x.id = some x ∧ (¬ c.scene.CommentsOut x.id → c.scene.Seen a x.id) := by
  intro inner b x hb hx
  induction a, b, hb using hf.induction_branch generalizing inner x with
  | step a n hn hb ih =>
    rw [visited, List.mem_cons] at hx
    rcases hx with rfl | hx
    · exact ⟨hb, fun ha => hf.seen_iff.mpr ⟨ha, .inl rfl⟩⟩
    · split at hx
      · cases hx
      · rename_i hgoesOn
        rw [Bool.not_eq_true, Bool.or_eq_false_iff, omits, Bool.or_eq_false_iff] at hgoesOn
        have ha : ¬ c.scene.CommentsOut a := by
          rw [commentsOut_iff_has hn, hgoesOn.1.1]
          exact Bool.false_ne_true
        obtain ⟨child, hchild, hx⟩ := mem_visitedAll.mp hx
        obtain ⟨m, hm, hmb⟩ := List.mem_filterMap.mp hchild
        obtain ⟨hxb, hseen⟩ := ih m hm child hmb true x hx
        exact ⟨hxb, fun hout => hf.seen_iff.mpr ⟨ha, .inr ⟨m, hm, hseen hout⟩⟩⟩

/-- A sub-prefab in sight that is in force is a root, unless only marked nodes are exported. -/
theorem mem_ids_of_cutsOut {s : Scene α} (hf : s.IsForest)
    (hrelaid : s.Relaid c.scene) (hmarked : c.context.options.onlyMarked = false)
    (hnames : ((Roots.allCandidates s c.context.options).map (·.1)).Nodup) {found : Roots}
    (hfound : Roots.find s [] c.context.options = .ok found) {x : Branch α}
    (hx : c.scene.branch? x.id = some x) (hsight : ¬ c.scene.Hidden x.id)
    (hcut : c.cutsOut x = true) : x.id ∈ found.ids := by
  rw [Roots.mem_ids_find_iff hf hnames hfound]
  refine ⟨fun hid => hsight ((hrelaid.hidden_iff x.id).mpr hid), (c.label x.node).name, ?_⟩
  rw [← hrelaid.eligible_iff]
  rw [cutsOut, Bool.and_eq_true] at hcut
  refine ⟨x.node, Scene.node?_of_branchWithin? hx, ?_, rfl⟩
  have hactive : c.context.options.active (c.label x.node).directives .subPrefab = true := hcut.2
  rw [label] at hactive
  simp [Roots.isCandidate, hmarked, hactive]

/-- So whatever is cut out of the document of a node in sight is a root. -/
theorem mem_ids_of_mem_cut {s : Scene α} (hf : s.IsForest) (hrelaid : s.Relaid c.scene)
    (hmarked : c.context.options.onlyMarked = false)
    (hnames : ((Roots.allCandidates s c.context.options).map (·.1)).Nodup) {found : Roots}
    (hfound : Roots.find s [] c.context.options = .ok found) {root : NodeId} {b x : Branch α}
    (hb : c.scene.branch? root = some b) (hsight : ¬ c.scene.Hidden root) (hx : x ∈ c.cut b) :
    x.id ∈ found.ids := by
  obtain ⟨hx, hcut⟩ := List.mem_filter.mp hx
  obtain ⟨hxb, hseen⟩ := seen_of_mem_visited (hrelaid.sameLinks.isForest hf) root false b x hb
    (List.mem_of_mem_tail hx)
  have hout : ¬ c.scene.CommentsOut x.id := by
    rw [cutsOut, Bool.and_eq_true, Bool.not_eq_true'] at hcut
    rw [commentsOut_iff_has (Scene.node?_of_branchWithin? hxb), hcut.1]
    exact Bool.false_ne_true
  have hxsight := ((Scene.seen_iff_of_not_hidden hsight).mp (hseen hout)).2
  exact mem_ids_of_cutsOut hf hrelaid hmarked hnames hfound hxb hxsight hcut

/-- A root is not passed over unless it is commented out itself. -/
theorem omits_eq_false_of_not_commentsOut {root : NodeId} {b : Branch α}
    (hb : c.scene.branch? root = some b) (hout : ¬ c.scene.CommentsOut root) :
    c.omits false (c.label b.node) = false := by
  rw [commentsOut_iff_has (Scene.node?_of_branchWithin? hb), Bool.not_eq_true] at hout
  rw [omits, Bool.false_and, Bool.or_false, hout]

theorem omits_eq_false_of_not_hidden {root : NodeId} {b : Branch α}
    (hb : c.scene.branch? root = some b) (hsight : ¬ c.scene.Hidden root) :
    c.omits false (c.label b.node) = false :=
  omits_eq_false_of_not_commentsOut hb fun hout => hsight ⟨root, .refl, hout⟩

variable [Scalar α]

/-- What is cut out of a document gives nothing there, whatever stands in it. -/
theorem branch_eq_of_cutsOut {x : Branch α} (h : c.cutsOut x = true) (t : Target α) :
    c.branch t true x = pure none := by
  obtain ⟨id, n, children⟩ := x
  simp only [cutsOut, Branch.node_mk, Bool.and_eq_true] at h
  have homits : c.omits true (c.label n) = true := by
    simp [omits, h.2]
  rw [branch]
  simp only [homits, if_true]

/-- What is made of a node of a known kind is an element, and no empty root. -/
theorem Made.exists_element {t : Target α} {n : Node α} {l : Label} {es : List (Element α)}
    {e? : Option (Element α)} (h : c.Made t n l es e?) (hkind : n.kind.isUnknown = false) :
    ∃ e, e? = some e ∧ e.own.kind ≠ .root false := by
  cases h with
  | board => exact ⟨_, rfl, by simp⟩
  | @whole _ kind hdrawn =>
    refine ⟨_, rfl, ?_⟩
    rintro rfl
    cases hdrawn
  | shape => exact ⟨_, rfl, by simp [framed]⟩
  | @box _ _ kind hbox =>
    refine ⟨_, rfl, ?_⟩
    rintro rfl
    cases hbox
  | viewport => exact ⟨_, rfl, by simp [framed]⟩
  | overGrid => exact ⟨_, rfl, by simp [framed]⟩
  | unknown hunknown => exact absurd hunknown (by simp [hkind])

theorem exists_element {b : Branch α} {inner : Bool}
    (homits : c.omits inner (c.label b.node) = false) (hkind : b.node.kind.isUnknown = false)
    (t : Target α) (l : Ledger α) :
    ∃ e, ((c.branch t inner b).run l).1 = some e ∧ e.own.kind ≠ .root false := by
  obtain ⟨id, n, children⟩ := b
  have hbelow : (c.branchesBackward t children).Yields fun _ => True := fun _ => trivial
  obtain ⟨es, -, hmade⟩ :=
    made_node (c := c) (t := t) (n := n) (l := c.label n) hbelow id l
  obtain ⟨e, he, hroot⟩ := hmade.exists_element hkind
  have hown : (c.withParameter id e).own.kind = e.own.kind := by
    rcases c.withParameter_eq id e with heq | ⟨p, -, heq⟩ <;> rw [heq]
    rw [own_setOwn]
  refine ⟨c.withParameter id e, ?_, by rwa [hown]⟩
  have homits : c.omits inner (c.label n) = false := homits
  rw [branch]
  simp only [homits, Bool.false_eq_true, if_false, Compile.run_bind, Compile.run_pure, he]
  rfl

end Compiler

/-! ### A whole export -/

namespace Export
variable [Scalar α] {t t' : ElasticScene α} {context : Context α} {e : Export α}

/-- Of a scene that is built, every root that is found is compiled, in the order in which it was
found. -/
theorem nodes_of_ofSelection (hbuilt : t.Built) {selection : List NodeId}
    (h : ofSelection t selection context = .ok (t', e)) :
    ∃ found, Roots.find t.scene selection context.options = .ok found ∧
      t.scene.Relaid t'.scene ∧ e.roots.map (·.node) = found.ids ∧
      e = compile t'.scene context e.measurements found := by
  obtain ⟨found, hfound, hmeasure, he⟩ := ofSelection_eq_ok h
  have hrelaid : t.scene.Relaid t'.scene := by
    have := relaid_measure t context found
    rwa [hmeasure] at this
  refine ⟨found, hfound, hrelaid, ?_, he⟩
  rw [he]
  refine map_node_compile fun id hid => ?_
  show id < t'.scene.size
  rw [hrelaid.size_eq]
  exact Roots.lt_size_of_find hbuilt.isForest hfound id hid

/-- For every document that is built: when nothing is selected, unmarked nodes are exported too, and
all candidates have names of their own, then the roots that are found are all compiled, in the order
in which they were found. Every sub-prefab that is cut out of one of the documents gives nothing
there, and is a root that is compiled itself; and every root of a known kind gives an element of its
own, in place of the empty root. -/
theorem cut_is_root (hbuilt : t.Built) (hmarked : context.options.onlyMarked = false)
    (hnames : ((Roots.allCandidates t.scene context.options).map (·.1)).Nodup)
    (h : ofSelection t [] context = .ok (t', e)) :
    let c : Compiler α := ⟨t'.scene, context, e.measurements⟩
    ∃ found, Roots.find t.scene [] context.options = .ok found ∧
      e.roots.map (·.node) = found.ids ∧
      ∀ own ∈ e.roots, ∃ b l, c.scene.branch? own.node = some b ∧ own = ((c.root b).run l).1 ∧
        (∀ x ∈ c.cut b, (∀ target, c.branch target true x = pure none) ∧
          ∃ other ∈ e.roots, other.node = x.id) ∧
        (b.node.kind.isUnknown = false →
          ∃ element, ((c.branch (c.target b) false b).run l).1 = some element ∧
            own.document.root = element ∧ element.own.kind ≠ .root false) := by
  intro c
  obtain ⟨found, hfound, hrelaid, hnodes, he⟩ := nodes_of_ofSelection hbuilt h
  have hf := hbuilt.isForest
  refine ⟨found, hfound, hnodes, fun own hown => ?_⟩
  obtain ⟨b, l, hbranch, hrun⟩ := exists_branch_of_mem_compile (he ▸ hown)
  have hroot : own.node ∈ found.ids := hnodes ▸ List.mem_map_of_mem hown
  have hsight : ¬ c.scene.Hidden own.node := by
    rw [hrelaid.hidden_iff]
    exact ((Roots.mem_ids_find_iff hf hnames hfound own.node).mp hroot).1
  refine ⟨b, l, hbranch, hrun, fun x hx => ⟨fun target => ?_, ?_⟩, fun hkind => ?_⟩
  · exact Compiler.branch_eq_of_cutsOut (List.mem_filter.mp hx).2 target
  · have hmem :=
      Compiler.mem_ids_of_mem_cut hf hrelaid hmarked hnames hfound hbranch hsight hx
    rw [← hnodes] at hmem
    exact List.mem_map.mp hmem
  · have homits := Compiler.omits_eq_false_of_not_hidden hbranch hsight
    obtain ⟨element, helement, hkind⟩ := Compiler.exists_element homits hkind (c.target b) l
    refine ⟨element, helement, ?_, hkind⟩
    rw [hrun]
    show ((c.branch (c.target b) false b).run l).1.getD _ = element
    rw [helement]
    rfl

theorem mixedBoard_part_is_root :
    ∃ t' e, ofSelection Compiler.mixedBoard [] wholeContext = .ok (t', e) ∧
      e.roots.map (·.node) = [0, 7, 11] ∧
      ∃ b, t'.scene.branch? 0 = some b ∧
        (Compiler.cut ⟨t'.scene, wholeContext, e.measurements⟩ b).map (·.id) = [7] ∧
        ∀ x ∈ Compiler.cut ⟨t'.scene, wholeContext, e.measurements⟩ b,
          ∃ other ∈ e.roots, other.node = x.id := by
  have hexport : ((ofSelection Compiler.mixedBoard [] wholeContext).toOption.map fun p =>
      (p.2.roots.map (·.node), (p.1.scene.branch? 0).map fun b =>
        (Compiler.cut ⟨p.1.scene, wholeContext, p.2.measurements⟩ b).map (·.id))) =
      some ([0, 7, 11], some [7]) := by
    decide +kernel
  have hnames : ((Roots.allCandidates Compiler.mixedBoard.scene wholeContext.options).map
      (·.1)).Nodup := by
    decide +kernel
  obtain ⟨⟨t', e⟩, hok, hresult⟩ := eq_ok_of_map_toOption hexport
  obtain ⟨hroots, hcut⟩ := Prod.mk.inj hresult
  obtain ⟨-, -, -, hall⟩ := cut_is_root Compiler.built_mixedBoard rfl hnames hok
  obtain ⟨own, hown, hid⟩ : ∃ own ∈ e.roots, own.node = 0 := by
    have hmem : 0 ∈ e.roots.map (·.node) := hroots ▸ List.mem_cons_self
    exact List.mem_map.mp hmem
  obtain ⟨b, -, hb, -, hisRoot, -⟩ := hall own hown
  rw [hid] at hb
  have hcut : ((t'.scene.branch? 0).map fun b =>
      (Compiler.cut ⟨t'.scene, wholeContext, e.measurements⟩ b).map (·.id)) = some [7] := hcut
  rw [hb, Option.map_some, Option.some.injEq] at hcut
  exact ⟨t', e, hok, hroots, b, hb, hcut, fun x hx => (hisRoot x hx).2⟩

end Export
end DesignLayout
