import DesignLayout.Proofs.Exporting
import DesignLayout.Proofs.Likeness
import DesignLayout.Proofs.Measuring

/-! Exports of scenes that look alike.

Every stage of an export that goes over the scene looks at live nodes alone, passes over what is
commented out, and reads the frame of the first cell of a repeated grid. So for scenes that are
alike the probe takes the same measurements (`probeAll_alike`), the same roots are found
(`find_alike`), and the same elements are compiled (`roots_alike`). -/
namespace DesignLayout

variable {α : Type} {v : View} {s s' : Scene α}

namespace Measurements

/-- The same records for all live nodes. -/
def Alike (v : View) (m m' : Measurements α) : Prop :=
  ∀ id, v.live id → m'.record? id = m.record? id

variable {m m' : Measurements α}

theorem Alike.sweep (h : m.Alike v m') (hs : s.Alike v s') (root : NodeId)
    (set : Bounds α → Record α → Record α) :
    (m.sweep s root set).Alike v (m'.sweep s' root set) := by
  intro id hid
  unfold Measurements.sweep record?
  rw [hs.sameLinks.subtree_eq]
  have hrecords : ∀ id, v.live id → m'.records[id]? = m.records[id]? := h
  generalize m.records = records, m'.records = records' at hrecords ⊢
  dsimp only
  induction s.subtree root generalizing records records' with
  | nil => exact hrecords id hid
  | cons k rest ih =>
    rw [List.foldl_cons, List.foldl_cons]
    apply ih
    intro j hj
    rcases hs.cases_node? k with ⟨hk, hk'⟩ | ⟨n, n', hk, hk', hn⟩ <;> rw [hk, hk']
    · exact hrecords j hj
    · simp only [Std.TreeMap.getElem?_insert]
      by_cases hkj : k = j
      · subst hkj
        rw [hn.live hj, hrecords _ hj]
      · simp [hkj, hrecords j hj]

theorem Alike.merge {found found' : Measurements α} (h : m.Alike v m') (hf : found.Alike v found') :
    (m.merge found).Alike v (m'.merge found') := by
  intro id hid
  rw [record?_merge, record?_merge, h id hid, hf id hid]

variable [Scalar α]

theorem Alike.derive? (h : m.Alike v m') (hs : s.Alike v s') (th : Thresholds α) {id : NodeId}
    (hid : v.live id) : m'.derive? th s' id = m.derive? th s id := by
  unfold Measurements.derive?
  rw [h id hid]
  rcases hs.cases_node? id with ⟨hn, hn'⟩ | ⟨n, n', hn, hn', halike⟩ <;> rw [hn, hn']
  · cases m.record? id <;> rfl
  · obtain rfl := halike.live hid
    cases hp : n'.parent with
    | none => simp [hp]
    | some p => simp [hp, h p (halike.up hid p hp)]

theorem Alike.withParameters (h : m.Alike v m') (hs : s.Alike v s') (th : Thresholds α) :
    (m.withParameters th s).Alike v (m'.withParameters th s') := by
  intro id hid
  rw [record?_withParameters, record?_withParameters, h id hid, h.derive? hs th hid]

theorem probe_alike {t t' : ElasticScene α} (h : t.Alike v t') (hv : v.Fits t.scene)
    (th : Thresholds α) {root : NodeId} (hroot : v.live root) :
    (probe th t root).1.Alike v (probe th t' root).1 ∧
      (probe th t root).2.Alike v (probe th t' root).2 := by
  unfold probe
  simp only [Host.scene]
  rcases h.scene.cases_node? root with ⟨hn, hn'⟩ | ⟨n, n', hn, hn', halike⟩ <;> rw [hn, hn']
  · exact ⟨h, fun _ _ => rfl⟩
  · obtain rfl := halike.live hroot
    have hgrown := h.resize hv hroot (n'.bounds.width + th.growWidth)
      (n'.bounds.height + th.growHeight)
    have hvgrown := hv.of_sameLinks (t.relaid_resize root (n'.bounds.width + th.growWidth)
      (n'.bounds.height + th.growHeight)).sameLinks
    have hback := hgrown.resize hvgrown hroot n'.bounds.width n'.bounds.height
    refine ⟨hback, Alike.withParameters ?_ hback.scene th⟩
    have hempty : (empty : Measurements α).Alike v empty := fun _ _ => rfl
    exact ((hempty.sweep h.scene root _).sweep hgrown.scene root _).sweep hback.scene root _

theorem foldl_probeNext_alike {t t' : ElasticScene α} (h : t.Alike v t') (hv : v.Fits t.scene)
    (th : Thresholds α) {roots : List NodeId} (hroots : ∀ root ∈ roots, v.live root)
    (hm : m.Alike v m') :
    (roots.foldl (probeNext th) (t, m)).1.Alike v (roots.foldl (probeNext th) (t', m')).1 ∧
      (roots.foldl (probeNext th) (t, m)).2.Alike v (roots.foldl (probeNext th) (t', m')).2 := by
  induction roots generalizing t t' m m' with
  | nil => exact ⟨h, hm⟩
  | cons root rest ih =>
    obtain ⟨hroot, hrest⟩ := List.forall_mem_cons.mp hroots
    obtain ⟨hdoc, hfound⟩ := probe_alike h hv th hroot
    exact ih hdoc (hv.of_sameLinks (relaid_probe th t root).sameLinks) hrest (hm.merge hfound)

/-- Probing live nodes one after the other keeps documents alike, and measures the same of them. -/
theorem probeAll_alike {t t' : ElasticScene α} (h : t.Alike v t') (hv : v.Fits t.scene)
    (th : Thresholds α) {roots : List NodeId} (hroots : ∀ root ∈ roots, v.live root) :
    (probeAll th t roots).1.Alike v (probeAll th t' roots).1 ∧
      (probeAll th t roots).2.Alike v (probeAll th t' roots).2 :=
  foldl_probeNext_alike h hv th hroots fun _ _ => rfl

end Measurements

/-- Of the roles that a group can have, a scroller's is in force. -/
structure Options.Scrolls (o : Options) (ds : Directives) : Prop where
  scroller : o.active ds .scroller = true
  noOther : ∀ d ∈ [.image, .button, .slider, .scrollbar, .toggle, .list], o.active ds d = false

/-! ### Roots -/

namespace Scene

/-- Where a node stands. -/
def place? (s : Scene α) (id : NodeId) : Option (α × α) :=
  (s.node? id).map fun n => (n.bounds.x, n.bounds.y)

/-- A repeated grid that is to scroll, no other role being in force. -/
def ScrollsOverGrid (s : Scene α) (o : Options) (id : NodeId) : Prop :=
  ∃ n, s.node? id = some n ∧ n.kind = .repeatGrid ∧ n.grid.isSome = true ∧
    o.Scrolls (s.label o.extended n).directives

theorem Alike.label (h : s.Alike v s') {id : NodeId} {n n' : Node α} (hn : Node.Alike v id n n')
    (hid : v.live id) (extended : Bool) : s'.label extended n = s.label extended n := by
  rw [Scene.label, Scene.label, inGrid, inGrid, parentKind?, parentKind?, h.parentOf? hn hid]

/-- The nearest artboard above a live node is the same one in both scenes, and live. -/
theorem Alike.artboardWithin? (h : s.Alike v s') (levels : Nat) {id : NodeId} (hid : v.live id) :
    s'.artboardWithin? levels id = s.artboardWithin? levels id ∧
      ∀ a ∈ s.artboardWithin? levels id, v.live a := by
  induction levels generalizing id with
  | zero => exact ⟨rfl, fun a ha => absurd ha (Option.not_mem_none a)⟩
  | succ levels ih =>
    rw [Scene.artboardWithin?, Scene.artboardWithin?]
    rcases h.cases_node? id with ⟨hs, hs'⟩ | ⟨n, n', hs, hs', hn⟩ <;> rw [hs, hs']
    · exact ⟨rfl, fun a ha => absurd ha (Option.not_mem_none a)⟩
    · obtain rfl := hn.live hid
      dsimp only
      split
      · refine ⟨rfl, fun a ha => ?_⟩
        obtain rfl := Option.some.inj ha
        exact hid
      · cases hp : n'.parent with
        | none => exact ⟨rfl, fun a ha => absurd ha (Option.not_mem_none a)⟩
        | some p => exact ih (hn.up hid p hp)

theorem Alike.enclosingArtboard? (h : s.Alike v s') {id : NodeId} (hid : v.live id) :
    s'.enclosingArtboard? id = s.enclosingArtboard? id ∧
      ∀ a ∈ s.enclosingArtboard? id, v.live a := by
  rw [Scene.enclosingArtboard?, Scene.enclosingArtboard?, h.size_eq]
  exact h.artboardWithin? s.size hid

end Scene

namespace Roots
variable {o : Options}

mutual

theorem candidates_alike (h : s.Alike v s') (hv : v.Fits s) (o : Options) :
    ∀ {b b' : Branch α}, Branch.Alike v s b b' → v.live b.id ∨ v.out b.id →
      candidates s' o b' = candidates s o b ∧ ∀ p ∈ candidates s o b, v.live p.2
  | .mk id n bs, .mk _ n' bs', ⟨rfl, hs, hn, hbs⟩, hid => by
    rw [candidates, candidates]
    rw [Scene.has_commentOut_label, Scene.has_commentOut_label]
    rcases hid with hlive | hout
    · obtain rfl := hn.live hlive
      obtain ⟨heq, hall⟩ := candidatesAll_alike h hv o hbs hlive
      rw [h.label hn hlive, heq]
      refine ⟨rfl, ?_⟩
      split
      · simp
      · intro p hp
        rcases List.mem_append.mp hp with hp | hp
        · split at hp
          · rw [List.mem_singleton.mp hp]
            exact hlive
          · cases hp
        · exact hall p hp
    · obtain ⟨hc, hc'⟩ := hn.out hout
      rw [hc, hc']
      simp

theorem candidatesAll_alike (h : s.Alike v s') (hv : v.Fits s) (o : Options) :
    ∀ {p : NodeId} {bs bs' : List (Branch α)}, Branch.AlikeBelow v s p bs bs' → v.live p →
      candidatesAll s' o bs' = candidatesAll s o bs ∧ ∀ p ∈ candidatesAll s o bs, v.live p.2
  | _, [], [], _, _ => ⟨rfl, fun _ hp => nomatch hp⟩
  | _, b :: bs, b' :: bs', ⟨hc, hb, hbs⟩, hlive => by
    obtain ⟨heq, hall⟩ := candidates_alike h hv o hb (hv.down hc hlive)
    obtain ⟨heqs, halls⟩ := candidatesAll_alike h hv o hbs hlive
    rw [candidatesAll, candidatesAll, heq, heqs]
    exact ⟨rfl, fun p hp => (List.mem_append.mp hp).elim (hall p) (halls p)⟩

end

theorem mem_put {name : String} {id : NodeId} {named : List (String × NodeId)}
    {p : String × NodeId} (h : p ∈ put name id named) : p = (name, id) ∨ p ∈ named := by
  induction named with
  | nil => exact .inl (List.mem_singleton.mp h)
  | cons q rest ih =>
    obtain ⟨other, old⟩ := q
    rw [put] at h
    split at h
    · rcases List.mem_cons.mp h with rfl | h
      · exact .inl rfl
      · exact .inr (List.mem_cons_of_mem _ h)
    · rcases List.mem_cons.mp h with rfl | h
      · exact .inr List.mem_cons_self
      · exact (ih h).imp_right (List.mem_cons_of_mem _)

/-- Whatever got a name is a candidate. -/
theorem mem_foldl_put {cs named : List (String × NodeId)} {p : String × NodeId}
    (h : p ∈ cs.foldl (fun named c => put c.1 c.2 named) named) : p ∈ cs ∨ p ∈ named := by
  induction cs generalizing named with
  | nil => exact .inr h
  | cons c rest ih =>
    rw [List.foldl_cons] at h
    rcases ih h with h | h
    · exact .inl (List.mem_cons_of_mem _ h)
    · rcases mem_put h with rfl | h
      · exact .inl List.mem_cons_self
      · exact .inr h

theorem candidatesAll_branches_alike (h : s.Alike v s') (hv : v.Fits s) (o : Options)
    {bs bs' : List (Branch α)}
    (hbs : List.Forall₂ (fun b b' => Branch.Alike v s b b' ∧ (v.live b.id ∨ v.out b.id)) bs bs') :
    candidatesAll s' o bs' = candidatesAll s o bs ∧ ∀ p ∈ candidatesAll s o bs, v.live p.2 := by
  induction hbs with
  | nil => exact ⟨rfl, fun p hp => nomatch hp⟩
  | cons hb _ ih =>
    obtain ⟨heq, hlive⟩ := candidates_alike h hv o hb.1 hb.2
    rw [candidatesAll, candidatesAll, heq, ih.1]
    exact ⟨rfl, fun p hp => (List.mem_append.mp hp).elim (hlive p) (ih.2 p)⟩

/-- The whole of either scene is searched to the same effect, and whatever is found is live. -/
theorem find_alike (h : s.Alike v s') (hv : v.Fits s) (o : Options) :
    find s' [] o = find s [] o ∧
      ∀ r, find s [] o = .ok r → (∀ id ∈ r.ids, v.live id) ∧ ∀ a ∈ r.artboards, v.live a := by
  have hall := candidatesAll_branches_alike h hv o (h.branches fun id hid => hv.top hid)
  have hnamed : ∀ p ∈ (candidatesAll s o (s.branches s.topLevel)).foldl
      (fun named c => put c.1 c.2 named) [], v.live p.2 := by
    intro p hp
    rcases mem_foldl_put hp with hp | hp
    · exact hall.2 p hp
    · cases hp
  unfold find
  simp only [List.isEmpty_nil, if_true, h.topLevel, hall.1]
  generalize (candidatesAll s o (s.branches s.topLevel)).foldl
    (fun named c => put c.1 c.2 named) [] = named at hnamed ⊢
  have hboards : named.filterMap (s'.enclosingArtboard? ·.2) =
      named.filterMap (s.enclosingArtboard? ·.2) :=
    List.filterMap_congr fun p hp => (h.enclosingArtboard? (hnamed p hp)).1
  rw [hboards]
  refine ⟨rfl, fun r hr => ?_⟩
  split at hr
  · cases hr
  · obtain rfl := Except.ok.inj hr
    constructor
    · intro id hid
      obtain ⟨p, hp, rfl⟩ := List.mem_map.mp hid
      exact hnamed p hp
    · intro a ha
      obtain ⟨p, hp, ha⟩ := List.mem_filterMap.mp (List.mem_eraseDups.mp ha)
      exact (h.enclosingArtboard? (hnamed p hp)).2 a ha

end Roots

/-! ### Compiled elements -/

namespace Compiler
variable [Scalar α] {c c' : Compiler α}

/-- What two compilers must have in common to compile the same elements. -/
structure Alike (v : View) (c c' : Compiler α) : Prop where
  context : c'.context = c.context
  scene : c.scene.Alike v c'.scene
  measurements : c.measurements.Alike v c'.measurements
  grid : ∀ {id cell}, v.live id → c.scene.ScrollsOverGrid c.context.options id →
    cell ∈ (c.scene.children id).head? → v.out cell → c'.scene.place? cell = c.scene.place? cell

section
variable {n : Node α} {t : Target α} {below : Compile α (List (Element α))}

theorem picture_congr (hctx : c'.context = c.context)
    (hp : c'.scene.parentOf? n = c.scene.parentOf? n) (id : NodeId) (name : String) :
    c'.picture t id n name = c.picture t id n name := by
  simp only [picture, frame, hctx, hp]

theorem scroller_congr (hctx : c'.context = c.context)
    (hcell : n.kind = .repeatGrid → n.grid.isSome = true → c'.cellOffset n = c.cellOffset n)
    (name : String) : c'.scroller t n name below = c.scroller t n name below := by
  unfold scroller
  simp only [frame, hctx]
  refine bind_congr fun elements => ?_
  split
  · rfl
  · cases hk : n.kind <;> cases hg : n.grid <;> try rfl
    rw [hcell hk (by rw [hg]; rfl)]

omit [Scalar α] in
theorem scrolls_of_containerKind? {o : Options} {ds : Directives}
    (himage : ¬ o.active ds .image = true)
    (hkind : (containerKind? o ds : Option (ElementKind α)) = none)
    (hscroller : o.active ds .scroller = true) : o.Scrolls ds := by
  refine ⟨hscroller, fun d hd => ?_⟩
  unfold containerKind? at hkind
  simp only [Bool.not_eq_true] at himage
  split_ifs at hkind
  simp only [List.mem_cons, List.not_mem_nil, or_false] at hd
  rcases hd with rfl | rfl | rfl | rfl | rfl | rfl <;> simp_all

theorem node_congr (hctx : c'.context = c.context)
    (hp : c'.scene.parentOf? n = c.scene.parentOf? n) {l : Label}
    (hcell : n.kind = .repeatGrid → n.grid.isSome = true →
      c.context.options.Scrolls l.directives → c'.cellOffset n = c.cellOffset n)
    (id : NodeId) : c'.node t id n l below = c.node t id n l below := by
  have hpicture := picture_congr (t := t) hctx hp id l.name
  have htext : c'.text t id n l = c.text t id n l := by
    simp only [text, writtenText?, textContent, frame, hctx, hpicture]
  have hgroup : c'.group t id n l below = c.group t id n l below := by
    unfold group
    simp only [container, hctx, hpicture]
    split
    · rfl
    · rename_i himage
      split
      · rfl
      · rfl
      · rename_i hkind
        split
        · rename_i hactive
          have hscrolls := scrolls_of_containerKind? himage hkind hactive
          exact scroller_congr hctx (fun hk hg => hcell hk hg hscrolls) l.name
        · rfl
  unfold node
  rw [hpicture, htext, hgroup]

end

/-- A grid's first cell is live, or commented out and at the same place in both scenes. -/
theorem cellOffset_alike (h : Alike v c c') (hv : v.Fits c.scene) {id : NodeId} {n : Node α}
    (hn : c.scene.node? id = some n) (hid : v.live id)
    (hgrid : c.scene.ScrollsOverGrid c.context.options id) : c'.cellOffset n = c.cellOffset n := by
  have hchildren := Scene.children_of_node? hn
  unfold cellOffset
  cases hhead : n.children.head? with
  | none => rfl
  | some cell =>
    have hcell : cell ∈ (c.scene.children id).head? := hchildren ▸ hhead
    rw [Option.bind_some, Option.bind_some]
    rcases h.scene.cases_node? cell with ⟨hs, hs'⟩ | ⟨k, k', hs, hs', hk⟩ <;> rw [hs, hs']
    rcases hv.down (List.mem_of_mem_head? hcell) hid with hlive | hout
    · rw [hk.live hlive]
    · have hplace := h.grid hid hgrid hcell hout
      rw [Scene.place?, Scene.place?, hs, hs'] at hplace
      obtain ⟨hx, hy⟩ := Prod.mk.inj (Option.some.inj hplace)
      dsimp only
      rw [hx, hy]

omit [Scalar α] in
theorem withParameter_alike (h : Alike v c c') {id : NodeId} (hid : v.live id) :
    c'.withParameter id = c.withParameter id := by
  funext e
  unfold withParameter Measurements.parameter?
  rw [h.context, h.measurements id hid]

omit [Scalar α] in
theorem label_alike (h : Alike v c c') {id : NodeId} {n n' : Node α} (hn : Node.Alike v id n n')
    (hid : v.live id) : c'.label n = c.label n := by
  rw [label, label, h.context, h.scene.label hn hid]

omit [Scalar α] in
theorem omits_of_commentedOut (c : Compiler α) (inner : Bool) {n : Node α}
    (h : n.commentedOut = true) : c.omits inner (c.label n) = true := by
  rw [omits, label, Scene.has_commentOut_label, h]
  rfl

mutual

theorem branch_alike (h : Alike v c c') (hv : v.Fits c.scene) (t : Target α) :
    ∀ (inner : Bool) {b b' : Branch α}, Branch.Alike v c.scene b b' → v.live b.id ∨ v.out b.id →
      c'.branch t inner b' = c.branch t inner b
  | inner, .mk id n bs, .mk _ n' bs', ⟨rfl, hs, hn, hbs⟩, hid => by
    rw [branch, branch]
    rcases hid with hlive | hout
    · obtain rfl := hn.live hlive
      have hparameter : c'.withParameter id = c.withParameter id := withParameter_alike h hlive
      rw [label_alike h hn hlive, hparameter, branchesBackward_alike h hv t hbs hlive,
        node_congr h.context (h.scene.parentOf? hn hlive), omits, omits, h.context]
      intro hkind hgrid hscrolls
      exact cellOffset_alike h hv hs hlive ⟨n', hs, hkind, hgrid, hscrolls⟩
    · obtain ⟨hc, hc'⟩ := hn.out hout
      rw [omits_of_commentedOut c' inner hc', omits_of_commentedOut c inner hc]
      rfl

theorem branchesBackward_alike (h : Alike v c c') (hv : v.Fits c.scene) (t : Target α) :
    ∀ {p : NodeId} {bs bs' : List (Branch α)}, Branch.AlikeBelow v c.scene p bs bs' → v.live p →
      c'.branchesBackward t bs' = c.branchesBackward t bs
  | _, [], [], _, _ => rfl
  | _, b :: bs, b' :: bs', ⟨hc, hb, hbs⟩, hlive => by
    rw [branchesBackward, branchesBackward, branchesBackward_alike h hv t hbs hlive,
      branch_alike h hv t true hb (hv.down hc hlive)]

end

theorem root_alike (h : Alike v c c') (hv : v.Fits c.scene) {b b' : Branch α}
    (hb : Branch.Alike v c.scene b b') (hid : v.live b.id) : c'.root b' = c.root b := by
  obtain ⟨hsame, hn⟩ := Branch.alike_node hb
  have hnode := hn.live hid
  unfold root
  dsimp only
  rw [hnode, hsame, label_alike h hn hid, h.scene.parentOf? hn hid, h.context,
    branch_alike h hv _ false hb (.inl hid)]

theorem roots_alike (h : Alike v c c') (hv : v.Fits c.scene) {bs bs' : List (Branch α)}
    (hbs : List.Forall₂ (fun b b' => Branch.Alike v c.scene b b' ∧ v.live b.id) bs bs') :
    c'.roots bs' = c.roots bs := by
  induction hbs with
  | nil => rfl
  | cons hb _ ih => rw [roots, roots, root_alike h hv hb.1 hb.2, ih]

end Compiler
end DesignLayout
