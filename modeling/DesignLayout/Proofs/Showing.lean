import DesignLayout.Proofs.Checking
import DesignLayout.Proofs.Walking

/-! How a scene shows the entries that were put into it.

What an entry adds to a scene does not depend on what is there: its nodes come behind the others,
and the parent gets it as its last child (`Scene.Gains`, `Snapshot.gains_placed`). A scene that has
the nodes of an entry has a branch in the shape of the entry (`Snapshot.shows_of_hasFrom`). -/
namespace DesignLayout

/-! ### What an entry adds to a scene -/

namespace Scene
variable {α : Type} {s u v : Scene α} {parent : Option NodeId} {first : Nat} {heads : List NodeId}
  {ns : List (Node α)}

/-- From this number on the nodes are these. -/
def HasFrom (s : Scene α) (first : Nat) (ns : List (Node α)) : Prop :=
  ∀ i n, ns[i]? = some n → s.node? (first + i) = some n

theorem hasFrom_cons {n : Node α} :
    s.HasFrom first (n :: ns) ↔ s.node? first = some n ∧ s.HasFrom (first + 1) ns := by
  constructor
  · intro h
    refine ⟨h 0 n rfl, fun i k hk => ?_⟩
    rw [Nat.add_right_comm]
    exact h (i + 1) k hk
  · rintro ⟨hn, hns⟩ i k hk
    cases i with
    | zero =>
      obtain rfl := Option.some.inj hk
      exact hn
    | succ i =>
      have := hns i k hk
      rwa [Nat.add_right_comm] at this

theorem hasFrom_append {ms : List (Node α)} :
    s.HasFrom first (ns ++ ms) ↔ s.HasFrom first ns ∧ s.HasFrom (first + ns.length) ms := by
  induction ns generalizing first with
  | nil => simp [HasFrom]
  | cons n ns ih =>
    rw [List.cons_append, hasFrom_cons, hasFrom_cons, ih, and_assoc, List.length_cons,
      Nat.add_right_comm, Nat.add_assoc]

/-- The second scene has these nodes behind those of the first one; the nodes `heads` among them
stand under the parent, behind its other children, or at the top. -/
structure Gains (s u : Scene α) (parent : Option NodeId) (heads : List NodeId)
    (ns : List (Node α)) : Prop where
  size : u.size = s.size + ns.length
  old : ∀ m < s.size, u.node? m = (s.node? m).map fun n =>
    if parent = some m then { n with children := n.children ++ heads } else n
  new : u.HasFrom s.size ns
  topLevel : u.topLevel = if parent = none then s.topLevel ++ heads else s.topLevel

namespace Gains

theorem refl (s : Scene α) (parent : Option NodeId) : s.Gains s parent [] [] where
  size := rfl
  old m _ := by simp
  new := by simp [HasFrom]
  topLevel := by simp

theorem trans (hp : ∀ p ∈ parent, p < s.size) {heads' : List NodeId} {ns' : List (Node α)}
    (h : s.Gains u parent heads ns) (h' : u.Gains v parent heads' ns') :
    s.Gains v parent (heads ++ heads') (ns ++ ns') where
  size := by rw [h'.size, h.size, List.length_append, Nat.add_assoc]
  old m hm := by
    have hmu : m < u.size := by rw [h.size]; omega
    rw [h'.old m hmu, h.old m hm, Option.map_map]
    refine Option.map_congr fun n _ => ?_
    by_cases hpm : parent = some m <;> simp [hpm]
  new := by
    -- What comes later is put under the parent, which is none of the nodes that came first.
    refine hasFrom_append.mpr ⟨fun i n hn => ?_, h.size ▸ h'.new⟩
    have hi : i < ns.length := (List.getElem?_eq_some_iff.mp hn).1
    have hne : parent ≠ some (s.size + i) := fun hpi =>
      absurd (hp _ hpi) (Nat.not_lt.mpr (Nat.le_add_right _ _))
    have hlt : s.size + i < u.size := h.size ▸ Nat.add_lt_add_left hi s.size
    rw [h'.old _ hlt, h.new i n hn]
    simp [hne]
  topLevel := by
    rw [h'.topLevel, h.topLevel]
    split <;> simp

/-- A node is inserted, and then nodes are put under it. -/
theorem below (hp : ∀ p ∈ parent, p < s.size) {d : Draft α}
    (h : (s.insert parent d).Gains v (some s.size) heads ns) :
    s.Gains v parent [s.size] ({ d.toNode s.size parent with children := heads } :: ns) where
  size := by rw [h.size, size_insert, List.length_cons]; omega
  old m hm := by
    have hne : m ≠ s.size := Nat.ne_of_lt hm
    rw [h.old m (by rw [size_insert]; omega), node?_insert s d hp, if_neg hne, Option.map_map]
    refine Option.map_congr fun n _ => ?_
    simp [Ne.symm hne]
  new := by
    refine hasFrom_cons.mpr ⟨?_, by simpa using h.new⟩
    rw [h.old s.size (by rw [size_insert]; omega), node?_insert s d hp, if_pos rfl,
      Option.map_some, if_pos rfl]
    rfl
  topLevel := by
    rw [h.topLevel, topLevel_insert]
    rfl

end Gains
end Scene

namespace Snapshot
variable {α : Type}

namespace Entry

/-- The numbers of the entries themselves when their records are numbered from `first` on. -/
def heads (first : NodeId) : List (Entry α) → List NodeId
  | [] => []
  | e :: rest => first :: heads (first + e.records.length) rest

mutual

/-- The nodes of an entry whose records are numbered from `first` on. -/
def nodes (parent : Option NodeId) (first : NodeId) : Entry α → List (Node α)
  | .mk own children =>
    { own.toNode first parent with children := heads (first + 1) children } ::
      nodesAll (some first) (first + 1) children

def nodesAll (parent : Option NodeId) (first : NodeId) : List (Entry α) → List (Node α)
  | [] => []
  | e :: rest => nodes parent first e ++ nodesAll parent (first + e.records.length) rest

end

mutual

theorem length_nodes (parent : Option NodeId) (first : NodeId) :
    ∀ e : Entry α, (e.nodes parent first).length = e.records.length
  | .mk own children => by
    rw [nodes, records, List.length_cons, List.length_cons,
      length_nodesAll (some first) (first + 1) children]

theorem length_nodesAll (parent : Option NodeId) (first : NodeId) :
    ∀ es : List (Entry α), (nodesAll parent first es).length = (recordsAll es).length
  | [] => rfl
  | e :: rest => by
    rw [nodesAll, recordsAll, List.length_append, List.length_append, length_nodes parent first e,
      length_nodesAll parent (first + e.records.length) rest]

end
end Entry

mutual

/-- An entry that is inserted adds its nodes. -/
theorem gains_placed (s : Scene α) (parent : Option NodeId) :
    ∀ e : Entry α, (∀ p ∈ parent, p < s.size) →
      s.Gains (s.insertAll (e.placed parent s.size)) parent [s.size] (e.nodes parent s.size)
  | .mk own children, hp => by
    have hbelow := gains_placedAll (s.insert parent own) (some s.size) children
      (fun p hps => by cases hps; rw [Scene.size_insert]; exact Nat.lt_succ_self _)
    rw [Scene.size_insert] at hbelow
    exact hbelow.below hp

theorem gains_placedAll (s : Scene α) (parent : Option NodeId) :
    ∀ es : List (Entry α), (∀ p ∈ parent, p < s.size) →
      s.Gains (s.insertAll (Entry.placedAll parent s.size es)) parent (Entry.heads s.size es)
        (Entry.nodesAll parent s.size es)
  | [], _ => .refl s parent
  | e :: rest, hp => by
    have hfirst := gains_placed s parent e hp
    have hsize := hfirst.size
    rw [Entry.length_nodes] at hsize
    have hrest := gains_placedAll (s.insertAll (e.placed parent s.size)) parent rest
      (fun p hpp => by rw [hsize]; exact Nat.lt_add_right _ (hp p hpp))
    rw [hsize] at hrest
    rw [Entry.placedAll, Scene.insertAll, List.foldl_append]
    exact hfirst.trans hp hrest

end

/-! ### What the scene shows -/

/-- The node has what the record with this number says; what the record leaves out it gets by
default. -/
structure Shown (id : NodeId) (d : Draft α) (n : Node α) : Prop where
  guid : n.guid = d.guid.getD (generatedGuid id d.name)
  name : n.name = d.name
  kind : n.kind = d.kind
  bounds : n.bounds = d.bounds
  drawBounds : n.drawBounds = d.drawBounds.getD d.bounds
  marked : n.marked = d.marked
  constraints : n.constraints = d.constraints
  text : n.text = d.text
  grid : n.grid = d.grid

theorem shown_toNode (id : NodeId) (d : Draft α) (parent : Option NodeId)
    (children : List NodeId) : Shown id d { d.toNode id parent with children } :=
  ⟨rfl, rfl, rfl, rfl, rfl, rfl, rfl, rfl, rfl⟩

mutual

/-- The branch has the shape of the entry: its node shows the entry's record, stands under this
parent and lists the nodes of the branches below it, and these have the shapes of the entry's
children. -/
inductive Shows : Option NodeId → Branch α → Entry α → Prop
  | mk {parent : Option NodeId} {id : NodeId} {n : Node α} {bs : List (Branch α)} {own : Draft α}
    {children : List (Entry α)} (hshown : Shown id own n) (hparent : n.parent = parent)
    (hchildren : n.children = bs.map (·.id)) (hbelow : ShowsAll (some id) bs children) :
    Shows parent (.mk id n bs) (.mk own children)

inductive ShowsAll : Option NodeId → List (Branch α) → List (Entry α) → Prop
  | nil {parent : Option NodeId} : ShowsAll parent [] []
  | cons {parent : Option NodeId} {b : Branch α} {bs : List (Branch α)} {e : Entry α}
    {es : List (Entry α)} (hfirst : Shows parent b e) (hrest : ShowsAll parent bs es) :
    ShowsAll parent (b :: bs) (e :: es)

end

mutual

/-- A scene that has the nodes of an entry has a branch that shows it, with the numbers in order. -/
theorem shows_of_hasFrom {s : Scene α} (hf : s.IsForest) (parent : Option NodeId)
    (first : NodeId) :
    ∀ e : Entry α, s.HasFrom first (e.nodes parent first) →
      ∃ b, s.branch? first = some b ∧ Shows parent b e ∧
        b.preorder = List.range' first e.records.length
  | .mk own children, h => by
    obtain ⟨hn, hbelow⟩ := Scene.hasFrom_cons.mp h
    obtain ⟨hshows, hpreorder⟩ := showsAll_of_hasFrom hf (some first) (first + 1) children hbelow
    have hids : (s.branches (s.children first)).map (·.id) = s.children first :=
      Scene.map_id_branches_of_lt fun _ => hf.lt_size_of_mem_children
    rw [Scene.children_of_node? hn] at hids
    have hentry := Shows.mk (shown_toNode first own parent _) rfl hids.symm hshows
    refine ⟨_, hf.branch?_of_node? hn, hentry, ?_⟩
    rw [Branch.preorder, Entry.records, List.length_cons, List.range'_succ, hpreorder]

theorem showsAll_of_hasFrom {s : Scene α} (hf : s.IsForest) (parent : Option NodeId)
    (first : NodeId) :
    ∀ es : List (Entry α), s.HasFrom first (Entry.nodesAll parent first es) →
      ShowsAll parent (s.branches (Entry.heads first es)) es ∧
        Branch.preorderAll (s.branches (Entry.heads first es)) =
          List.range' first (Entry.recordsAll es).length
  | [], _ => ⟨.nil, rfl⟩
  | e :: rest, h => by
    obtain ⟨he, hrest⟩ := Scene.hasFrom_append.mp h
    rw [Entry.length_nodes] at hrest
    obtain ⟨b, hb, hshows, hpreorder⟩ := shows_of_hasFrom hf parent first e he
    obtain ⟨hshowsAll, hpreorderAll⟩ :=
      showsAll_of_hasFrom hf parent (first + e.records.length) rest hrest
    rw [Entry.heads, Scene.branches, List.filterMap_cons_some hb, ← Scene.branches]
    refine ⟨.cons hshows hshowsAll, ?_⟩
    rw [Branch.preorderAll, hpreorder, hpreorderAll, Entry.recordsAll, List.length_append,
      List.range'_append_1]

end

mutual

/-- Of the nodes of an entry the `k`-th one shows the `k`-th record. -/
theorem shown_nodes (parent : Option NodeId) (first : Nat) {k : Nat} {d : Draft α} :
    ∀ e : Entry α, e.records[k]? = some d →
      ∃ n, (e.nodes parent first)[k]? = some n ∧ Shown (first + k) d n
  | .mk own children, h => by
    cases k with
    | zero =>
      obtain rfl := Option.some.inj h
      exact ⟨_, rfl, shown_toNode first own parent _⟩
    | succ k =>
      obtain ⟨n, hn, hshown⟩ := shown_nodesAll (some first) (first + 1) children h
      rw [Nat.add_right_comm] at hshown
      exact ⟨n, hn, hshown⟩

theorem shown_nodesAll (parent : Option NodeId) (first : Nat) {k : Nat} {d : Draft α} :
    ∀ es : List (Entry α), (Entry.recordsAll es)[k]? = some d →
      ∃ n, (Entry.nodesAll parent first es)[k]? = some n ∧ Shown (first + k) d n
  | [], h => nomatch h
  | e :: rest, h => by
    rw [Entry.recordsAll] at h
    rw [Entry.nodesAll]
    by_cases hk : k < e.records.length
    · rw [List.getElem?_append_left hk] at h
      rw [List.getElem?_append_left (by rwa [Entry.length_nodes])]
      exact shown_nodes parent first e h
    · have hle := Nat.le_of_not_lt hk
      rw [List.getElem?_append_right hle] at h
      rw [List.getElem?_append_right (by rwa [Entry.length_nodes]), Entry.length_nodes]
      obtain ⟨n, hn, hshown⟩ := shown_nodesAll parent (first + e.records.length) rest h
      refine ⟨n, hn, ?_⟩
      rwa [Nat.add_assoc, Nat.add_sub_cancel' hle] at hshown

end

end Snapshot
end DesignLayout
