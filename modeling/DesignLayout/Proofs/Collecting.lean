import DesignLayout.Proofs.Walking

/-! What a search for roots collects.

A search goes through the nodes in sight, in document order, from each node at which it begins
(`Scene.seenFrom`), and picks out those that are to be exported (`Roots.collected`). A later node
with the same display name takes over the place of an earlier one (`Roots.mem_put_iff`). Along the
list of what was collected, the names so come in the order of their first nodes, each with its last
node (`Roots.names_putAll`, `Roots.mem_putAll_iff`). `Roots.find_collected` puts the roots
together. -/
namespace DesignLayout

/-! ### First occurrences -/

/-- The elements of a list, each once, in the order in which they come up first. -/
structure FirstOccurrences {β : Type} [DecidableEq β] (xs ys : List β) : Prop where
  mem_iff : ∀ y, y ∈ ys ↔ y ∈ xs
  nodup : ys.Nodup
  ascending : ys.Pairwise fun y z => xs.idxOf y < xs.idxOf z

namespace FirstOccurrences
variable {β : Type} [DecidableEq β] {xs ys : List β}

theorem nil : FirstOccurrences ([] : List β) [] :=
  ⟨fun _ => Iff.rfl, .nil, .nil⟩

/-- One more element at the end is put at the end, unless it is there already. -/
theorem concat (h : FirstOccurrences xs ys) (x : β) :
    FirstOccurrences (xs ++ [x]) (if x ∈ ys then ys else ys ++ [x]) := by
  -- The elements so far keep their first places, which are all in front of the new one.
  have hold (y : β) (hy : y ∈ ys) : (xs ++ [x]).idxOf y = xs.idxOf y :=
    List.idxOf_append_of_mem ((h.mem_iff y).mp hy)
  have hascending : ys.Pairwise fun y z => (xs ++ [x]).idxOf y < (xs ++ [x]).idxOf z := by
    refine h.ascending.imp_of_mem fun {y z} hy hz hlt => ?_
    rwa [hold y hy, hold z hz]
  by_cases hx : x ∈ ys
  · rw [if_pos hx]
    refine ⟨fun y => ?_, h.nodup, hascending⟩
    rw [List.mem_append, List.mem_singleton, ← h.mem_iff]
    constructor
    · exact .inl
    · rintro (hy | rfl)
      · exact hy
      · exact hx
  · rw [if_neg hx]
    refine ⟨fun y => ?_, ?_, List.pairwise_append.mpr ⟨hascending, List.pairwise_singleton .., ?_⟩⟩
    · rw [List.mem_append, List.mem_append, h.mem_iff]
    · rw [List.nodup_append]
      refine ⟨h.nodup, List.nodup_singleton x, fun y hy z hz heq => hx ?_⟩
      rwa [← List.mem_singleton.mp hz, ← heq]
    · intro y hy z hz
      have hnew : x ∉ xs := fun hmem => hx ((h.mem_iff x).mpr hmem)
      have hlt : xs.idxOf y < xs.length := List.idxOf_lt_length_of_mem ((h.mem_iff y).mp hy)
      rw [List.mem_singleton.mp hz, hold y hy, List.idxOf_append_of_notMem hnew]
      omega

/-- To erase duplicates is to keep first occurrences. -/
theorem eraseDups (xs : List β) : FirstOccurrences xs xs.eraseDups := by
  induction xs using List.reverseRecOn with
  | nil => exact nil
  | append_singleton xs x ih =>
    have hlast : (xs ++ [x]).eraseDups =
        if x ∈ xs.eraseDups then xs.eraseDups else xs.eraseDups ++ [x] := by
      rw [List.eraseDups_append]
      by_cases hx : x ∈ xs <;> simp [List.removeAll, List.eraseDups_cons, hx]
    rw [hlast]
    exact ih.concat x

/-- The first occurrences in two lists with the same elements are the same up to order. -/
theorem perm {xs' ys' : List β} (h : FirstOccurrences xs ys) (h' : FirstOccurrences xs' ys')
    (hmem : ∀ x, x ∈ xs' ↔ x ∈ xs) : ys'.Perm ys := by
  rw [List.perm_ext_iff_of_nodup h'.nodup h.nodup]
  intro y
  rw [h'.mem_iff, hmem, h.mem_iff]

end FirstOccurrences

variable {α : Type} {s : Scene α}

/-! ### The nodes in sight -/

namespace Scene

theorem Seen.trans {a b id : NodeId} (hab : s.Seen a b) (hbid : s.Seen b id) : s.Seen a id := by
  refine ⟨hbid.1.trans hab.1, fun m hm hma => ?_⟩
  rcases hm.total hbid.1 with hmb | hbm
  · exact hbid.2 m hm hmb
  · exact hab.2 m hbm hma

/-- Whether nothing in the branch of `a` comments the node out. -/
def clear (s : Scene α) (a id : NodeId) : Bool :=
  decide (∀ m ∈ s.subtree a, s.CommentsOut m → id ∉ s.subtree m)

/-- The subtree of a node without the subtrees of what is commented out. -/
def seenFrom (s : Scene α) (a : NodeId) : List NodeId :=
  (s.subtree a).filter (s.clear a)

namespace IsForest
variable (hf : s.IsForest)
include hf

theorem clear_iff {a id : NodeId} (ha : a < s.size) (hid : s.Within id a) :
    s.clear a id = true ↔ s.Seen a id := by
  rw [clear, decide_eq_true_iff, Seen, and_iff_right hid]
  constructor
  · intro h m hidm hma hout
    exact h m ((hf.mem_subtree ha).mpr hma) hout ((hf.mem_subtree hout.lt_size).mpr hidm)
  · intro h m hm hout hidm
    exact h m ((hf.mem_subtree hout.lt_size).mp hidm) ((hf.mem_subtree ha).mp hm) hout

theorem mem_seenFrom {a id : NodeId} (ha : a < s.size) : id ∈ s.seenFrom a ↔ s.Seen a id := by
  rw [seenFrom, List.mem_filter, hf.mem_subtree ha]
  constructor
  · rintro ⟨hw, hclear⟩
    exact (hf.clear_iff ha hw).mp hclear
  · exact fun hseen => ⟨hseen.1, (hf.clear_iff ha hseen.1).mpr hseen⟩

/-- Below one of its children a node sees what that child sees. -/
theorem seen_iff_of_within_child {a c id : NodeId} (hc : c ∈ s.children a) (hid : s.Within id c) :
    s.Seen a id ↔ ¬ s.CommentsOut a ∧ s.Seen c id := by
  have hca := hf.mem_children.mp hc
  rw [hf.seen_iff]
  refine and_congr_right fun _ => ?_
  constructor
  · rintro (rfl | ⟨d, hd, hseen⟩)
    · -- Nothing stands below its own child.
      have := hf.le_of_within hid
      have := hf.parent_lt hca
      omega
    · by_cases hcd : c = d
      · rwa [hcd]
      · exact absurd hseen.1 (hf.not_within_siblings hca (hf.mem_children.mp hd) hcd hid)
  · exact fun hseen => .inr ⟨c, hc, hseen⟩

/-- From a node that is commented out nothing is in sight, and from any other one the node itself is
and what is in sight from its children. -/
theorem seenFrom_eq {a : NodeId} (ha : a < s.size) :
    s.seenFrom a =
      if s.CommentsOut a then [] else a :: (s.children a).flatMap s.seenFrom := by
  by_cases hout : s.CommentsOut a
  · rw [if_pos hout, List.eq_nil_iff_forall_not_mem]
    intro id hid
    exact (hf.seen_iff.mp ((hf.mem_seenFrom ha).mp hid)).1 hout
  · have hself : s.clear a a = true :=
      (hf.clear_iff ha .refl).mpr (hf.seen_iff.mpr ⟨hout, .inl rfl⟩)
    have hchild (c : NodeId) (hc : c ∈ s.children a) :
        (s.subtree c).filter (s.clear a) = s.seenFrom c := by
      refine List.filter_congr fun id hid => ?_
      have hcsize := hf.lt_size_of_mem_children hc
      have hidc := (hf.mem_subtree hcsize).mp hid
      rw [Bool.eq_iff_iff, hf.clear_iff ha (hidc.tail (hf.mem_children.mp hc)),
        hf.clear_iff hcsize hidc, hf.seen_iff_of_within_child hc hidc, and_iff_right hout]
    rw [if_neg hout, seenFrom, hf.subtree_eq_cons ha, List.filter_cons_of_pos hself,
      List.filter_flatMap]
    exact congrArg (a :: ·) (List.flatMap_congr hchild)

end IsForest
end Scene

/-! ### What is collected -/

namespace Scene

/-- The display name of a node. -/
def displayName (s : Scene α) (extended : Bool) (id : NodeId) : String :=
  ((s.node? id).map fun n => (s.label extended n).name).getD ""

theorem displayName_of_node? {extended : Bool} {id : NodeId} {n : Node α}
    (h : s.node? id = some n) : s.displayName extended id = (s.label extended n).name := by
  rw [displayName, h]
  rfl

end Scene

namespace Roots
variable {o : Options}

/-- The node is an artboard or has an active sub-prefab option, and where only marked nodes are
exported it is marked. -/
def ToExport (s : Scene α) (o : Options) (id : NodeId) : Prop :=
  ∃ n, s.node? id = some n ∧
    (n.kind = .artboard ∨ o.active (s.label o.extended n).directives .subPrefab = true) ∧
    (o.onlyMarked = true → n.marked = true)

theorem toExport_iff {id : NodeId} :
    ToExport s o id ↔
      (s.node? id).any (fun n => isCandidate o n (s.label o.extended n)) = true := by
  cases hn : s.node? id with
  | none => simp [ToExport, hn]
  | some n => cases hmarked : o.onlyMarked <;> simp [ToExport, hn, isCandidate, hmarked]

instance (s : Scene α) (o : Options) (id : NodeId) : Decidable (ToExport s o id) :=
  decidable_of_iff _ toExport_iff.symm

/-- The nodes that a search comes by: those in sight from each node at which it begins. -/
def visited (s : Scene α) (selection : List NodeId) : List NodeId :=
  (searched s selection).flatMap s.seenFrom

/-- The nodes to export that a search comes by. -/
def collected (s : Scene α) (selection : List NodeId) (o : Options) : List NodeId :=
  (visited s selection).filter fun id => decide (ToExport s o id)

/-- A node with its display name. -/
def withDisplayName (s : Scene α) (o : Options) (id : NodeId) : String × NodeId :=
  (s.displayName o.extended id, id)

theorem exists_node?_of_toExport {id : NodeId} (h : ToExport s o id) :
    ∃ n, s.node? id = some n := by
  obtain ⟨n, hn, -⟩ := h
  exact ⟨n, hn⟩

/-- Below a node that is not there, there is nothing to export. -/
theorem filter_seenFrom_eq_nil (hf : s.IsForest) {a : NodeId} (ha : s.node? a = none) :
    ((s.seenFrom a).filter fun id => decide (ToExport s o id)) = [] := by
  rw [List.filter_eq_nil_iff]
  intro id hid hexport
  obtain ⟨n, hn⟩ := exists_node?_of_toExport (of_decide_eq_true hexport)
  have hle := hf.le_of_within (hf.within_of_mem_subtree (List.mem_of_mem_filter hid))
  have hlt := Scene.lt_size_of_node? hn
  obtain ⟨k, hk⟩ := Scene.node?_isSome (Nat.lt_of_le_of_lt hle hlt)
  rw [ha] at hk
  cases hk

/-- What is found in branches, one after the other, when it is known what is found in each. -/
theorem candidatesAll_branches_eq (hf : s.IsForest) {ids : List NodeId}
    (h : ∀ c ∈ ids, ∀ b, s.branch? c = some b → candidates s o b =
      ((s.seenFrom c).filter fun id => decide (ToExport s o id)).map (withDisplayName s o)) :
    candidatesAll s o (s.branches ids) =
      ((ids.flatMap s.seenFrom).filter fun id => decide (ToExport s o id)).map
        (withDisplayName s o) := by
  induction ids with
  | nil => rfl
  | cons c rest ih =>
    have hrest := ih fun d hd => h d (List.mem_cons_of_mem c hd)
    rw [List.flatMap_cons, List.filter_append, List.map_append, ← hrest]
    cases hc : s.node? c with
    | none =>
      have hb : s.branch? c = none := by rw [hf.branch?_eq, hc, Option.map_none]
      rw [filter_seenFrom_eq_nil hf hc, Scene.branches, List.filterMap_cons_none hb]
      rfl
    | some n =>
      rw [hf.branches_cons hc, candidatesAll, h c List.mem_cons_self _ (hf.branch?_of_node? hc)]

/-- The candidates of a branch are the nodes to export that are in sight. -/
theorem candidates_eq (hf : s.IsForest) (a : NodeId) :
    ∀ b, s.branch? a = some b → candidates s o b =
      ((s.seenFrom a).filter fun id => decide (ToExport s o id)).map (withDisplayName s o) := by
  intro b hb
  induction a, b, hb using hf.induction_branch with
  | step a n hn hb ih =>
    have hout : s.CommentsOut a ↔ n.commentedOut = true := by
      rw [Scene.commentsOut_iff, hn, Option.any_some]
    rw [candidates, Scene.has_commentOut_label, hf.seenFrom_eq (Scene.lt_size_of_node? hn)]
    by_cases hcommented : n.commentedOut = true
    · rw [if_pos hcommented, if_pos (hout.mpr hcommented)]
      rfl
    · have hiff : ToExport s o a ↔ isCandidate o n (s.label o.extended n) = true := by
        rw [toExport_iff, hn, Option.any_some]
      have hown : (if isCandidate o n (s.label o.extended n) = true
          then [((s.label o.extended n).name, a)] else []) =
          ([a].filter fun id => decide (ToExport s o id)).map (withDisplayName s o) := by
        by_cases hcandidate : isCandidate o n (s.label o.extended n) = true <;>
          simp [hiff, hcandidate, withDisplayName, Scene.displayName_of_node? hn]
      rw [if_neg hcommented, if_neg (hout.not.mpr hcommented), hown,
        candidatesAll_branches_eq hf ih, ← List.map_append, ← List.filter_append,
        List.singleton_append]

/-- A search finds what is collected, with the display names. -/
theorem candidatesAll_searched (hf : s.IsForest) (selection : List NodeId) :
    candidatesAll s o (s.branches (searched s selection)) =
      (collected s selection o).map (withDisplayName s o) :=
  candidatesAll_branches_eq hf fun c _ => candidates_eq hf c

/-! ### The last one of a name -/

/-- The list of named nodes that comes up when they are put one after the other. -/
def putAll (cs : List (String × NodeId)) : List (String × NodeId) :=
  cs.foldl (fun named c => put c.1 c.2 named) []

theorem putAll_concat (cs : List (String × NodeId)) (c : String × NodeId) :
    putAll (cs ++ [c]) = put c.1 c.2 (putAll cs) := by
  rw [putAll, List.foldl_append]
  rfl

theorem names_put (name : String) (id : NodeId) (named : List (String × NodeId)) :
    (put name id named).map (·.1) =
      if name ∈ named.map (·.1) then named.map (·.1) else named.map (·.1) ++ [name] := by
  induction named with
  | nil => rfl
  | cons q rest ih =>
    obtain ⟨other, old⟩ := q
    rw [put]
    by_cases hother : other = name
    · simp [hother]
    · rw [if_neg hother, List.map_cons, ih, List.map_cons]
      by_cases hmem : name ∈ rest.map (·.1)
      · rw [if_pos hmem, if_pos (List.mem_cons_of_mem other hmem)]
      · rw [if_neg hmem, if_neg (by simp [hmem, Ne.symm hother])]
        rfl

theorem mem_put_iff {name : String} {id : NodeId} {named : List (String × NodeId)}
    (h : (named.map (·.1)).Nodup) {p : String × NodeId} :
    p ∈ put name id named ↔ p = (name, id) ∨ p ∈ named ∧ p.1 ≠ name := by
  induction named with
  | nil => simp [put]
  | cons q rest ih =>
    obtain ⟨other, old⟩ := q
    obtain ⟨hnew, hrest⟩ : other ∉ rest.map (·.1) ∧ (rest.map (·.1)).Nodup :=
      List.nodup_cons.mp h
    rw [put]
    by_cases hother : other = name
    · -- The place of the name: nothing behind it has the name as well.
      have hne (p : String × NodeId) (hp : p ∈ rest) : p.1 ≠ name := by
        intro hpname
        apply hnew
        rw [hother, ← hpname]
        exact List.mem_map_of_mem hp
      rw [if_pos hother, List.mem_cons, List.mem_cons]
      constructor
      · rintro (hp | hp)
        · exact .inl hp
        · exact .inr ⟨.inr hp, hne p hp⟩
      · rintro (hp | ⟨rfl | hp, hpname⟩)
        · exact .inl hp
        · exact absurd hother hpname
        · exact .inr hp
    · rw [if_neg hother, List.mem_cons, List.mem_cons, ih hrest]
      constructor
      · rintro (rfl | hp | ⟨hp, hpname⟩)
        · exact .inr ⟨.inl rfl, hother⟩
        · exact .inl hp
        · exact .inr ⟨.inr hp, hpname⟩
      · rintro (hp | ⟨hp | hp, hpname⟩)
        · exact .inr (.inl hp)
        · exact .inl hp
        · exact .inr (.inr ⟨hp, hpname⟩)

/-- The names come in the order of their first nodes. -/
theorem names_putAll (cs : List (String × NodeId)) :
    FirstOccurrences (cs.map (·.1)) ((putAll cs).map (·.1)) := by
  induction cs using List.reverseRecOn with
  | nil => exact .nil
  | append_singleton cs c ih =>
    rw [putAll_concat, names_put, List.map_append]
    exact ih.concat c.1

/-- It is in the list, and nothing behind it has the same name. -/
def LastNamed {β : Type} (name : β → String) (xs : List β) (x : β) : Prop :=
  ∃ before after, xs = before ++ x :: after ∧ ∀ y ∈ after, name y ≠ name x

theorem LastNamed.mem {β : Type} {name : β → String} {xs : List β} {x : β}
    (h : LastNamed name xs x) : x ∈ xs := by
  obtain ⟨before, after, rfl, -⟩ := h
  exact List.mem_append_right before List.mem_cons_self

theorem lastNamed_concat {β : Type} {name : β → String} {xs : List β} {x y : β} :
    LastNamed name (xs ++ [y]) x ↔ x = y ∨ LastNamed name xs x ∧ name x ≠ name y := by
  constructor
  · rintro ⟨before, after, heq, hafter⟩
    rcases List.eq_nil_or_concat' after with rfl | ⟨rest, z, rfl⟩
    · obtain ⟨-, hxy⟩ := List.append_inj' heq rfl
      exact .inl (List.singleton_inj.mp hxy).symm
    · rw [← List.cons_append, ← List.append_assoc] at heq
      obtain ⟨rfl, hyz⟩ := List.append_inj' heq rfl
      obtain rfl := List.singleton_inj.mp hyz
      refine .inr ⟨⟨before, rest, rfl, fun w hw => hafter w (List.mem_append_left _ hw)⟩, ?_⟩
      exact (hafter y (List.mem_append_right _ List.mem_cons_self)).symm
  · rintro (rfl | ⟨⟨before, after, rfl, hafter⟩, hxy⟩)
    · exact ⟨xs, [], rfl, nofun⟩
    · refine ⟨before, after ++ [y], by simp, fun w hw => ?_⟩
      rcases List.mem_append.mp hw with hw | hw
      · exact hafter w hw
      · rw [List.mem_singleton.mp hw]
        exact hxy.symm

/-- Each name has its last node. -/
theorem mem_putAll_iff {cs : List (String × NodeId)} {p : String × NodeId} :
    p ∈ putAll cs ↔ LastNamed (·.1) cs p := by
  induction cs using List.reverseRecOn with
  | nil =>
    refine iff_of_false List.not_mem_nil ?_
    intro h
    exact List.not_mem_nil h.mem
  | append_singleton cs c ih =>
    rw [putAll_concat, mem_put_iff (names_putAll cs).nodup, lastNamed_concat, ih]

/-! ### The roots -/

/-- The roots that these nodes come to. -/
structure Planned (s : Scene α) (extended : Bool) (ids : List NodeId) (found : Roots) : Prop where
  names : FirstOccurrences (ids.map (s.displayName extended)) (found.named.map (·.1))
  last : ∀ name id, (name, id) ∈ found.named ↔
    s.displayName extended id = name ∧ LastNamed (s.displayName extended) ids id
  ids_nodup : found.ids.Nodup
  artboards : FirstOccurrences (found.ids.filterMap s.enclosingArtboard?) found.artboards
  nearest : ∀ id ∈ found.ids, ∀ a, s.enclosingArtboard? id = some a ↔
    s.IsArtboard a ∧ s.Within id a ∧ ∀ b, s.IsArtboard b → s.Within id b → s.Within a b

/-- The last one of a name among nodes with their names. -/
theorem lastNamed_withDisplayName {ids : List NodeId} {p : String × NodeId} :
    LastNamed (·.1) (ids.map (withDisplayName s o)) p ↔
      s.displayName o.extended p.2 = p.1 ∧ LastNamed (s.displayName o.extended) ids p.2 := by
  constructor
  · rintro ⟨before, after, heq, hafter⟩
    obtain ⟨ids₁, rest, rfl, rfl, hrest⟩ := List.map_eq_append_iff.mp heq
    obtain ⟨id, ids₂, rfl, rfl, rfl⟩ := List.map_eq_cons_iff.mp hrest
    exact ⟨rfl, ids₁, ids₂, rfl, fun m hm => hafter _ (List.mem_map_of_mem hm)⟩
  · rintro ⟨hname, before, after, hids, hafter⟩
    have hp : withDisplayName s o p.2 = p := by rw [withDisplayName, hname]
    refine ⟨before.map (withDisplayName s o), after.map (withDisplayName s o), ?_, ?_⟩
    · rw [hids, List.map_append, List.map_cons, hp]
    intro q hq
    obtain ⟨m, hm, rfl⟩ := List.mem_map.mp hq
    show (withDisplayName s o m).1 ≠ p.1
    rw [← hname]
    exact hafter m hm

/-- What the nodes that were collected come to when each takes its name. -/
def planned (s : Scene α) (selection : List NodeId) (o : Options) : List (String × NodeId) :=
  putAll ((collected s selection o).map (withDisplayName s o))

theorem names_planned (s : Scene α) (selection : List NodeId) (o : Options) :
    FirstOccurrences ((collected s selection o).map (s.displayName o.extended))
      ((planned s selection o).map (·.1)) := by
  have h := names_putAll ((collected s selection o).map (withDisplayName s o))
  rwa [List.map_map] at h

theorem mem_planned_iff {selection : List NodeId} {name : String} {id : NodeId} :
    (name, id) ∈ planned s selection o ↔ s.displayName o.extended id = name ∧
      LastNamed (s.displayName o.extended) (collected s selection o) id :=
  mem_putAll_iff.trans lastNamed_withDisplayName

theorem planned_eq_nil_iff {selection : List NodeId} :
    planned s selection o = [] ↔ collected s selection o = [] := by
  rw [← List.map_eq_nil_iff (f := (·.1)), ← List.map_eq_nil_iff (f := s.displayName o.extended),
    List.eq_nil_iff_forall_not_mem, List.eq_nil_iff_forall_not_mem]
  exact forall_congr' fun name => ((names_planned s selection o).mem_iff name).not

theorem find_eq (hf : s.IsForest) (selection : List NodeId) :
    find s selection o =
      if collected s selection o = [] then .error .nothingToExport
      else .ok { named := planned s selection o
                 artboards := ((planned s selection o).filterMap
                   (s.enclosingArtboard? ·.2)).eraseDups } := by
  have hnamed : (candidatesAll s o (s.branches (searched s selection))).foldl
      (fun named c => put c.1 c.2 named) [] = planned s selection o := by
    rw [candidatesAll_searched hf]
    rfl
  unfold searched at hnamed
  unfold find
  simp only [hnamed]
  by_cases hnil : collected s selection o = []
  · rw [if_pos hnil, if_pos (List.isEmpty_iff.mpr (planned_eq_nil_iff.mpr hnil))]
  · rw [if_neg hnil, if_neg (List.isEmpty_iff.not.mpr (planned_eq_nil_iff.not.mpr hnil))]

theorem named_of_find (hf : s.IsForest) {selection : List NodeId} {found : Roots}
    (h : find s selection o = .ok found) : found.named = planned s selection o := by
  rw [find_eq hf] at h
  split at h
  · cases h
  · obtain rfl := Except.ok.inj h
    rfl

/-- What is planned is found. -/
theorem exists_find_iff (hf : s.IsForest) {selection : List NodeId} {p : String × NodeId} :
    (∃ found, find s selection o = .ok found ∧ p ∈ found.named) ↔ p ∈ planned s selection o := by
  constructor
  · rintro ⟨found, hfind, hp⟩
    rwa [← named_of_find hf hfind]
  · intro hp
    have hnil : collected s selection o ≠ [] := by
      rw [← planned_eq_nil_iff.ne]
      exact List.ne_nil_of_mem hp
    have hfind := find_eq (o := o) hf selection
    rw [if_neg hnil] at hfind
    exact ⟨_, hfind, hp⟩

theorem planned_of_find (hf : s.IsForest) {selection : List NodeId} {found : Roots}
    (h : find s selection o = .ok found) :
    Planned s o.extended (collected s selection o) found := by
  have hsize := lt_size_of_find hf h
  rw [find_eq hf] at h
  split at h
  · cases h
  · obtain rfl := Except.ok.inj h
    have hnames := names_planned s selection o
    have hids : (planned s selection o).map (·.1) =
        ((planned s selection o).map (·.2)).map (s.displayName o.extended) := by
      rw [List.map_map]
      refine List.map_congr_left fun p hp => ?_
      exact (mem_planned_iff.mp hp).1.symm
    refine ⟨hnames, fun name id => mem_planned_iff, ?_, ?_, ?_⟩
    · -- Nodes with different names are different.
      have hnodup := hnames.nodup
      rw [hids] at hnodup
      exact hnodup.of_map
    · have hboards : (planned s selection o).filterMap (s.enclosingArtboard? ·.2) =
          ((planned s selection o).map (·.2)).filterMap s.enclosingArtboard? :=
        (List.filterMap_map ..).symm
      show FirstOccurrences _ ((planned s selection o).filterMap _).eraseDups
      rw [hboards]
      exact .eraseDups _
    · exact fun id hid a => (hf.climbedUp (hsize id hid)).nearest a

/-! ### Selecting more -/

theorem searched_eq {selection : List NodeId} {a : NodeId} (h : a ∈ selection) :
    searched s selection = selection := by
  rw [searched, if_neg]
  rw [List.isEmpty_iff]
  exact List.ne_nil_of_mem h

/-- What is in sight from a node that a searched one sees is in sight anyway. -/
theorem mem_seenFrom_of_seen (hf : s.IsForest) {a id m : NodeId} (h : a = id ∨ s.Seen a id)
    (hm : m ∈ s.seenFrom id) : m ∈ s.seenFrom a := by
  rcases h with rfl | hseen
  · exact hm
  · rcases Relation.ReflTransGen.cases_head hseen.1 with rfl | ⟨p, hp, -⟩
    · exact hm
    · have hid := hp.lt_size
      have ha := Nat.lt_of_le_of_lt (hf.le_of_within hseen.1) hid
      rw [hf.mem_seenFrom hid] at hm
      exact (hf.mem_seenFrom ha).mpr (hseen.trans hm)

/-- To select a node that is seen from a selected one collects no other nodes. -/
theorem mem_collected_insert (hf : s.IsForest) {before after : List NodeId} {a id : NodeId}
    (ha : a ∈ before ++ after) (h : a = id ∨ s.Seen a id) (m : NodeId) :
    m ∈ collected s (before ++ id :: after) o ↔ m ∈ collected s (before ++ after) o := by
  have hid : id ∈ before ++ id :: after := List.mem_append_right before List.mem_cons_self
  rw [collected, collected, List.mem_filter, List.mem_filter, visited, visited, searched_eq ha,
    searched_eq hid]
  refine and_congr_left fun _ => ?_
  simp only [List.mem_flatMap, List.mem_append, List.mem_cons]
  constructor
  · rintro ⟨c, hc | rfl | hc, hm⟩
    · exact ⟨c, .inl hc, hm⟩
    · exact ⟨a, List.mem_append.mp ha, mem_seenFrom_of_seen hf h hm⟩
    · exact ⟨c, .inr hc, hm⟩
  · rintro ⟨c, hc | hc, hm⟩
    · exact ⟨c, .inl hc, hm⟩
    · exact ⟨c, .inr (.inr hc), hm⟩

/-- So it adds no name. -/
theorem find_insert (hf : s.IsForest) {before after : List NodeId} {a id : NodeId}
    (ha : a ∈ before ++ after) (h : a = id ∨ s.Seen a id) {found : Roots}
    (hfound : find s (before ++ after) o = .ok found) :
    ∃ again, find s (before ++ id :: after) o = .ok again ∧
      (again.named.map (·.1)).Perm (found.named.map (·.1)) := by
  have hmem := mem_collected_insert (o := o) hf ha h
  have hnonempty : collected s (before ++ id :: after) o ≠ [] := by
    intro hnil
    rw [List.eq_nil_iff_forall_not_mem] at hnil
    rw [find_eq hf, if_pos (List.eq_nil_iff_forall_not_mem.mpr fun m => (hmem m).not.mp (hnil m))]
      at hfound
    cases hfound
  have hagain := find_eq (o := o) hf (before ++ id :: after)
  rw [if_neg hnonempty] at hagain
  refine ⟨_, hagain, ?_⟩
  refine (planned_of_find hf hfound).names.perm (planned_of_find hf hagain).names fun name => ?_
  simp only [List.mem_map, hmem]

variable [Scalar α] {t : ElasticScene α}

/-- For every scene that is built, every selection and all options: there is nothing to export
exactly when nothing is collected, and otherwise the roots are planned from what is collected. To
select a node once more, or one that a selected node sees, adds no root. -/
theorem find_collected (hbuilt : t.Built) (selection : List NodeId) (o : Options) :
    (∀ e, find t.scene selection o = .error e ↔
      e = .nothingToExport ∧ collected t.scene selection o = []) ∧
    (∀ found, find t.scene selection o = .ok found →
      Planned t.scene o.extended (collected t.scene selection o) found) ∧
    ∀ before after a id found, selection = before ++ after → a ∈ selection →
      a = id ∨ t.scene.Seen a id → find t.scene selection o = .ok found →
      ∃ again, find t.scene (before ++ id :: after) o = .ok again ∧
        (again.named.map (·.1)).Perm (found.named.map (·.1)) := by
  have hf := hbuilt.isForest
  refine ⟨fun e => ?_, fun found h => planned_of_find hf h, ?_⟩
  · rw [find_eq hf]
    by_cases hnil : collected t.scene selection o = []
    · rw [if_pos hnil, Except.error.injEq, eq_comm, and_iff_left hnil]
    · rw [if_neg hnil]
      exact iff_of_false nofun fun h => hnil h.2
  · rintro before after a id found rfl ha h hfound
    exact find_insert hf ha h hfound

/-- A screen with a popup and, commented out, an older one; and a popup at the top with a board in
it that is not marked. -/
def shelf : ElasticScene Float :=
  let box (name : String) (kind : Kind) (marked : Bool) : Draft Float :=
    { name, kind, bounds := ⟨0.0, 0.0, 10.0, 10.0⟩, marked }
  (((((ElasticScene.empty.insert none (box "Screen" .artboard true)).insert (some 0)
    (box "Popup/" .group true)).insert (some 0) (box "#Old" .group false)).insert (some 2)
    (box "Popup/" .group true)).insert none (box "Popup/" .group true)).insert (some 4)
    (box "Draft" .artboard false)

/-- The popup in the screen is selected together with the screen, and then once more behind it: it
is a root once, under the name that the popup at the top takes over from it as long as that one
comes later. -/
theorem shelf_find_collected :
    find shelf.scene [1, 0, 4] {} = .ok ⟨[("Popup", 4), ("Screen", 0)], [0]⟩ ∧
      Planned shelf.scene true [1, 0, 1, 4] ⟨[("Popup", 4), ("Screen", 0)], [0]⟩ ∧
      find shelf.scene [2] {} = .error .nothingToExport ∧
      ∃ again, find shelf.scene [1, 0, 4, 1] {} = .ok again ∧
        (again.named.map (·.1)).Perm ["Popup", "Screen"] := by
  have hbuilt : shelf.Built :=
    (((((ElasticScene.Built.empty.insert none _ (by simp)).insert (some 0) _ (by decide)).insert
      (some 0) _ (by decide)).insert (some 2) _ (by decide)).insert none _ (by simp)).insert
      (some 4) _ (by decide)
  have hfind : find shelf.scene [1, 0, 4] {} = .ok ⟨[("Popup", 4), ("Screen", 0)], [0]⟩ := by
    decide +kernel
  have hcollected : collected shelf.scene [1, 0, 4] {} = [1, 0, 1, 4] := by decide +kernel
  have hnone : collected shelf.scene [2] {} = [] := by decide +kernel
  have hseen : shelf.scene.Seen 0 1 := by
    have hsight : 1 ∈ shelf.scene.seenFrom 0 := by decide +kernel
    exact (hbuilt.isForest.mem_seenFrom (by decide)).mp hsight
  obtain ⟨-, hplanned, hinsert⟩ := find_collected hbuilt [1, 0, 4] {}
  have hplan := hplanned _ hfind
  rw [hcollected] at hplan
  exact ⟨hfind, hplan, ((find_collected hbuilt [2] {}).1 _).mpr ⟨rfl, hnone⟩,
    hinsert [1, 0, 4] [] 0 1 _ rfl (by decide) (.inr hseen) hfind⟩

end Roots
end DesignLayout
