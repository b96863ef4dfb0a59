import DesignLayout.Proofs.Collecting

/-! Selecting a root by its display name.

A name is looked up among the raw labels of the whole document before it is looked up among the
display names, and the first node counts (`Scene.CalledBy`); roots are named by their display names,
and the last node counts. So the node that the name of a root selects need not be that root. What is
in sight from a node stands in the same order as in the whole document
(`Scene.IsForest.seenFrom_sublist`), so a root keeps its name when fewer nodes are searched
(`Roots.LastNamed.of_sublist`), and it is found again exactly when the selected node is the root or
stands above it (`Roots.select_root_iff`). -/
namespace DesignLayout

variable {α : Type} {s : Scene α}

namespace Scene

/-- The first element of a list of which it holds. -/
def IsFirst {β : Type} (P : β → Prop) (xs : List β) (x : β) : Prop :=
  P x ∧ ∃ before after, xs = before ++ x :: after ∧ ∀ y ∈ before, ¬ P y

def HasLabel (s : Scene α) (name : String) (id : NodeId) : Prop :=
  ∃ n, s.node? id = some n ∧ n.name = name

def HasDisplayName (s : Scene α) (extended : Bool) (name : String) (id : NodeId) : Prop :=
  ∃ n, s.node? id = some n ∧ (s.label extended n).name = name

/-- The node that a name stands for: the first one in the document with this raw label, or, when no
node has it, the first one with this display name. -/
def CalledBy (s : Scene α) (extended : Bool) (name : String) (id : NodeId) : Prop :=
  IsFirst (s.HasLabel name) s.preorder id ∨
    (∀ k ∈ s.preorder, ¬ s.HasLabel name k) ∧
      IsFirst (s.HasDisplayName extended name) s.preorder id

theorem find?_eq_some_iff_isFirst {β : Type} {p : β → Bool} {P : β → Prop}
    (h : ∀ x, p x = true ↔ P x) {xs : List β} {x : β} :
    xs.find? p = some x ↔ IsFirst P xs x := by
  rw [List.find?_eq_some_iff_append, IsFirst, h]
  simp only [Bool.not_eq_true', ← Bool.not_eq_true, h]

theorem named?_eq_some_iff {extended : Bool} {name : String} {id : NodeId} :
    s.named? extended name = some id ↔ s.CalledBy extended name id := by
  have hlabel (k : NodeId) :
      (s.node? k).any (·.name == name) = true ↔ s.HasLabel name k := by
    simp only [any_node?_iff, beq_iff_eq, HasLabel]
  have hdisplay (k : NodeId) :
      ((s.node? k).any fun n => (s.label extended n).name == name) = true ↔
        s.HasDisplayName extended name k := by
    simp only [any_node?_iff, beq_iff_eq, HasDisplayName]
  rw [named?, CalledBy, Option.or_eq_some_iff, find?_eq_some_iff_isFirst hlabel,
    find?_eq_some_iff_isFirst hdisplay, List.find?_eq_none]
  simp only [hlabel]

/-- A name that some node displays stands for a node. -/
theorem exists_named? {extended : Bool} {name : String} {id : NodeId} (hid : id ∈ s.preorder)
    (hname : s.HasDisplayName extended name id) : ∃ m, s.named? extended name = some m := by
  rw [← Option.isSome_iff_exists, named?, Option.isSome_or, Bool.or_eq_true]
  right
  rw [List.find?_isSome]
  obtain ⟨n, hn, rfl⟩ := hname
  exact ⟨id, hid, any_node?_iff.mpr ⟨n, hn, beq_self_eq_true _⟩⟩

theorem select_singleton {extended : Bool} {name : String} {m : NodeId}
    (h : s.named? extended name = some m) : s.select extended [name] = .ok [m] := by
  simp [select, h]

namespace IsForest
variable (hf : s.IsForest)
include hf

theorem mem_preorder_of_lt_size {id : NodeId} (hid : id < s.size) : id ∈ s.preorder := by
  obtain ⟨r, hr, hw⟩ := hf.exists_top id hid
  exact List.mem_flatMap.mpr ⟨r, hr, (hf.mem_subtree (hf.lt_size_of_mem_topLevel hr)).mpr hw⟩

/-- What is in sight from a node below is in sight from the node, in the same order. -/
theorem seenFrom_sublist_of_within {a m : NodeId} (ha : a < s.size) (hseen : s.Seen a m) :
    (s.seenFrom m).Sublist (s.seenFrom a) := by
  induction a using hf.induction_below with
  | step a ih =>
    obtain ⟨hout, hcase⟩ := hf.seen_iff.mp hseen
    rcases hcase with rfl | ⟨c, hc, hcseen⟩
    · exact List.Sublist.refl _
    · have hbelow := ih c hc (hf.lt_size_of_mem_children hc) hcseen
      rw [hf.seenFrom_eq ha, if_neg hout]
      refine (hbelow.trans ?_).cons a
      exact List.sublist_flatten_of_mem (List.mem_map_of_mem hc)

/-- What is in sight from a node in sight is in sight from the top, in the same order. -/
theorem seenFrom_sublist {m : NodeId} (hm : m < s.size) (hsight : ¬ s.Hidden m) :
    (s.seenFrom m).Sublist (s.topLevel.flatMap s.seenFrom) := by
  obtain ⟨r, hr, hseen⟩ := (hf.exists_top_seen_iff hm).mpr hsight
  refine (hf.seenFrom_sublist_of_within (hf.lt_size_of_mem_topLevel hr) hseen).trans ?_
  exact List.sublist_flatten_of_mem (List.mem_map_of_mem hr)

/-- From the top no node comes into sight twice. -/
theorem nodup_seenFrom_topLevel : (s.topLevel.flatMap s.seenFrom).Nodup := by
  rw [List.nodup_flatMap]
  refine ⟨fun r hr => ?_, ?_⟩
  · exact (hf.nodup_subtree (hf.lt_size_of_mem_topLevel hr)).filter _
  · refine hf.topLevel_ascending.imp_of_mem fun {r r'} hr hr' hlt m hm hm' => ?_
    have hw := ((hf.mem_seenFrom (hf.lt_size_of_mem_topLevel hr)).mp hm).1
    have hw' := ((hf.mem_seenFrom (hf.lt_size_of_mem_topLevel hr')).mp hm').1
    exact Nat.ne_of_lt hlt (hf.top_unique hr hr' hw hw')

end IsForest
end Scene

namespace Roots
variable {o : Options}

/-- The last one of its name is the last one among fewer elements too. -/
theorem LastNamed.of_sublist {β : Type} {name : β → String} {xs ys : List β} {x : β}
    (h : LastNamed name xs x) (hnodup : xs.Nodup) (hsub : ys.Sublist xs) (hx : x ∈ ys) :
    LastNamed name ys x := by
  obtain ⟨before, after, rfl, hafter⟩ := h
  obtain ⟨as, bs, rfl⟩ := List.append_of_mem hx
  refine ⟨as, bs, rfl, fun y hy => hafter y ?_⟩
  -- In the longer list `x` comes only once, so what stands behind it stands behind it there too.
  have hpair : [x, y].Sublist (before ++ x :: after) :=
    (((List.singleton_sublist.mpr hy).cons_cons x).trans
      (List.sublist_append_right as _)).trans hsub
  obtain ⟨front, back, heq, hfront, hback⟩ := List.sublist_append_iff.mp hpair
  cases front with
  | nil =>
    rw [List.nil_append] at heq
    rw [← heq] at hback
    exact List.singleton_sublist.mp (List.cons_sublist_cons.mp hback)
  | cons z front =>
    obtain ⟨rfl, -⟩ := List.cons.inj heq
    have hbefore : x ∈ before := hfront.subset List.mem_cons_self
    exact absurd rfl ((List.nodup_append.mp hnodup).2.2 x hbefore x List.mem_cons_self)

/-- A root of the whole scene is found again from every node that it stands in. -/
theorem mem_planned_of_within (hf : s.IsForest) {name : String} {m n : NodeId}
    (hroot : (name, n) ∈ planned s [] o) (hw : s.Within n m) : (name, n) ∈ planned s [m] o := by
  obtain ⟨hname, hlast⟩ := mem_planned_iff.mp hroot
  obtain ⟨hvisited, hexport⟩ := List.mem_filter.mp hlast.mem
  obtain ⟨k, hk⟩ := exists_node?_of_toExport (of_decide_eq_true hexport)
  have hn : n < s.size := Scene.lt_size_of_node? hk
  have hm : m < s.size := Nat.lt_of_le_of_lt (hf.le_of_within hw) hn
  have hsight : ¬ s.Hidden n := by
    obtain ⟨r, hr, hseen⟩ := List.mem_flatMap.mp hvisited
    rw [hf.mem_seenFrom (hf.lt_size_of_mem_topLevel hr)] at hseen
    exact (hf.exists_top_seen_iff hn).mp ⟨r, hr, hseen⟩
  have hsightm : ¬ s.Hidden m := fun ⟨a, ha, hout⟩ => hsight ⟨a, hw.trans ha, hout⟩
  have hmem : n ∈ s.seenFrom m :=
    (hf.mem_seenFrom hm).mpr ((Scene.seen_iff_of_not_hidden hsightm).mpr ⟨hw, hsight⟩)
  have hone : collected s [m] o = (s.seenFrom m).filter fun id => decide (ToExport s o id) := by
    show ([m].flatMap s.seenFrom).filter _ = _
    rw [List.flatMap_singleton]
  refine mem_planned_iff.mpr ⟨hname, ?_⟩
  rw [hone]
  exact hlast.of_sublist (hf.nodup_seenFrom_topLevel.filter _)
    ((hf.seenFrom_sublist hm hsightm).filter _) (List.mem_filter.mpr ⟨hmem, hexport⟩)

/-- For every scene that is built and all options: the name of a root of the whole scene selects one
node, and a search from that node finds the root again, under its name, exactly when the root is
this node or stands below it. -/
theorem select_root_iff [Scalar α] {t : ElasticScene α} (hbuilt : t.Built) {o : Options}
    {found : Roots} (hfound : find t.scene [] o = .ok found) {name : String} {n : NodeId}
    (hroot : (name, n) ∈ found.named) :
    ∃ m, t.scene.CalledBy o.extended name m ∧
      t.scene.select o.extended [name] = .ok [m] ∧
      ((∃ again, find t.scene [m] o = .ok again ∧ (name, n) ∈ again.named) ↔
        t.scene.Within n m) := by
  have hf := hbuilt.isForest
  obtain ⟨⟨k, hk, -, hname⟩, -⟩ := exists_seen_of_find hf hfound _ hroot
  obtain ⟨m, hm⟩ := Scene.exists_named? (hf.mem_preorder_of_lt_size (Scene.lt_size_of_node? hk))
    ⟨k, hk, hname.symm⟩
  refine ⟨m, Scene.named?_eq_some_iff.mp hm, Scene.select_singleton hm, ?_, fun hw => ?_⟩
  · rintro ⟨again, hagain, hmem⟩
    obtain ⟨-, a, ha, hseen⟩ := exists_seen_of_find hf hagain _ hmem
    obtain rfl : a = m := List.mem_singleton.mp ha
    exact hseen.1
  · rw [named_of_find hf hfound] at hroot
    exact (exists_find_iff hf).mpr (mem_planned_of_within hf hroot hw)

/-- A screen with a popup, and in front of the popup a picture whose raw label is the display name
of the popup. -/
def lobby : ElasticScene Float :=
  let box (name : String) (kind : Kind) : Draft Float :=
    { name, kind, bounds := ⟨0.0, 0.0, 10.0, 10.0⟩, marked := true }
  ((ElasticScene.empty.insert none (box "Screen" .artboard)).insert (some 0)
    (box "Popup" .rectangle)).insert (some 0) (box "Popup/" .group)

theorem built_lobby : lobby.Built :=
  ((ElasticScene.Built.empty.insert none _ (by simp)).insert (some 0) _ (by decide)).insert (some 0)
    _ (by decide)

theorem find_lobby : find lobby.scene [] {} = .ok ⟨[("Screen", 0), ("Popup", 2)], [0]⟩ := by
  decide +kernel

/-- The screen is the node that its name selects, and is found again. -/
theorem lobby_screen_selected :
    lobby.scene.select true ["Screen"] = .ok [0] ∧
      ∃ again, find lobby.scene [0] {} = .ok again ∧ ("Screen", 0) ∈ again.named := by
  have hselect : lobby.scene.select true ["Screen"] = .ok [0] := by decide +kernel
  have hroot : ("Screen", 0) ∈ [("Screen", 0), ("Popup", 2)] := List.mem_cons_self
  obtain ⟨m, -, hm, hiff⟩ := select_root_iff built_lobby find_lobby hroot
  rw [hselect] at hm
  obtain rfl : 0 = m := by simpa using hm
  exact ⟨hselect, hiff.mpr .refl⟩

/-- The name of the popup selects the picture, and from there nothing is found. -/
theorem lobby_popup_not_selected :
    ¬ ∀ (t : ElasticScene Float) (o : Options) found name n, t.Built →
      find t.scene [] o = .ok found → (name, n) ∈ found.named →
      ∃ ids again, t.scene.select o.extended [name] = .ok ids ∧
        find t.scene ids o = .ok again ∧ (name, n) ∈ again.named := by
  intro h
  obtain ⟨ids, again, hselect, hfind, -⟩ :=
    h lobby {} _ "Popup" 2 built_lobby find_lobby (by decide)
  have hpicture : lobby.scene.select true ["Popup"] = .ok [1] := by decide +kernel
  have hnothing : find lobby.scene [1] {} = .error .nothingToExport := by decide +kernel
  rw [hpicture] at hselect
  obtain rfl := Except.ok.inj hselect
  rw [hnothing] at hfind
  cases hfind

end Roots
end DesignLayout
