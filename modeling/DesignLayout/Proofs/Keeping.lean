import DesignLayout.Proofs.Pictures

/-! What a compilation keeps of its ledger.

A compilation writes into the ledger in two ways only: it asks for pictures of nodes of the branch,
and it reports. What both of them keep of a ledger is kept by the compilation of every branch
(`keeps_branch`) and of every list of roots (`keeps_roots`). -/
namespace DesignLayout

variable {α : Type}

namespace Branch

mutual

/-- The nodes of a branch with their numbers, parents first. -/
def nodes : Branch α → List (NodeId × Node α)
  | mk id n children => (id, n) :: nodesAll children

def nodesAll : List (Branch α) → List (NodeId × Node α)
  | [] => []
  | b :: rest => nodes b ++ nodesAll rest

end

theorem mem_nodesAll {bs : List (Branch α)} {p : NodeId × Node α} :
    p ∈ nodesAll bs ↔ ∃ b ∈ bs, p ∈ b.nodes := by
  induction bs with
  | nil => simp [nodesAll]
  | cons b rest ih => simp [nodesAll, ih]

/-- The nodes of a branch are nodes of the scene. -/
theorem node?_of_mem_nodes {s : Scene α} {levels : Nat} {a : NodeId} {b : Branch α}
    (hb : s.branchWithin? levels a = some b) {p : NodeId × Node α} (hp : p ∈ b.nodes) :
    s.node? p.1 = some p.2 := by
  induction levels generalizing a b with
  | zero => cases hb
  | succ levels ih =>
    obtain ⟨n, hn, rfl⟩ := Option.map_eq_some_iff.mp hb
    rw [nodes, List.mem_cons] at hp
    rcases hp with rfl | hp
    · exact hn
    · obtain ⟨child, hchild, hp⟩ := mem_nodesAll.mp hp
      obtain ⟨c, -, hc⟩ := List.mem_filterMap.mp hchild
      exact ih hc hp

end Branch

namespace Compile
variable {β γ : Type} {I : Ledger α → Prop}

/-- What holds of the ledger before the computation holds of it afterwards. -/
def Keeps (I : Ledger α → Prop) (x : Compile α β) : Prop :=
  ∀ l, I l → I (x.run l).2

theorem Keeps.pure (b : β) : Keeps I (Pure.pure b : Compile α β) :=
  fun _ h => h

theorem Keeps.bind {x : Compile α β} {f : β → Compile α γ} (hx : Keeps I x)
    (hf : ∀ b, Keeps I (f b)) : Keeps I (x >>= f) :=
  fun l h => hf (x.run l).1 (x.run l).2 (hx l h)

theorem Keeps.map (f : β → γ) {x : Compile α β} (hx : Keeps I x) : Keeps I (f <$> x) :=
  hx

end Compile

namespace Compiler
open Compile

variable [Scalar α] {I : Ledger α → Prop} {c : Compiler α} {t : Target α}

/-- The target of the export root that a branch is compiled for. -/
def target (c : Compiler α) (b : Branch α) : Target α :=
  ⟨b.node, Text.folderName (c.label b.node).name⟩

section
variable {below : Compile α (List (Element α))} {id : NodeId} {n : Node α}
  (hpicture : ∀ name, (c.picture t id n name).Keeps I)
  (hreport : ∀ d, (report d : Compile α Unit).Keeps I)
include hreport

theorem keeps_scroller (hbelow : below.Keeps I) (name : String) :
    (c.scroller t n name below).Keeps I := by
  refine hbelow.bind fun elements => ?_
  dsimp only
  split
  · exact .pure _
  · split
    · exact .pure _
    · exact (hreport _).bind fun _ => .pure _

include hpicture

theorem keeps_group (hbelow : below.Keeps I) (l : Label) :
    (c.group t id n l below).Keeps I := by
  have hcontainer (kind : ElementKind α) : (c.container kind n l.name below).Keeps I :=
    hbelow.bind fun _ => .pure _
  unfold group
  dsimp only
  split
  · exact hpicture l.name
  · split
    · refine (hcontainer _).bind fun e => ?_
      split
      · exact (hreport _).bind fun _ => .pure _
      · exact .pure _
    · exact hcontainer _
    · split
      · exact keeps_scroller hreport hbelow l.name
      · exact hcontainer _

theorem keeps_node (hbelow : below.Keeps I) (l : Label) :
    (c.node t id n l below).Keeps I := by
  have hgroup := keeps_group hpicture hreport hbelow l
  have hshape : Keeps I (do
      let picture ← c.picture t id n l.name
      let elements ← below
      return some (if elements.isEmpty then picture else .mk picture.own (some elements))) :=
    (hpicture l.name).bind fun _ => hbelow.bind fun _ => .pure _
  unfold node
  split
  · exact hbelow.bind fun _ => .pure _
  · exact (hpicture l.name).map some
  · exact hgroup.map some
  · exact hgroup.map some
  · exact hgroup.map some
  · exact hshape
  · exact hshape
  · exact hshape
  · exact hshape
  · refine Keeps.map some ?_
    unfold text
    split
    · exact hpicture l.name
    · exact .pure _
  · exact (hreport _).bind fun _ => hbelow.bind fun _ => .pure _

end

mutual

theorem keeps_branch (hreport : ∀ d, (report d : Compile α Unit).Keeps I) (inner : Bool) :
    ∀ b : Branch α, (∀ p ∈ b.nodes, ∀ name, (c.picture t p.1 p.2 name).Keeps I) →
      (c.branch t inner b).Keeps I
  | .mk id n children, hpicture => by
    have hbelow := keeps_branchesBackward hreport children fun p hp =>
      hpicture p (List.mem_cons_of_mem _ hp)
    unfold branch
    dsimp only
    split
    · exact .pure _
    · exact (keeps_node (hpicture (id, n) List.mem_cons_self) hreport hbelow _).bind
        fun _ => .pure _

theorem keeps_branchesBackward (hreport : ∀ d, (report d : Compile α Unit).Keeps I) :
    ∀ bs : List (Branch α),
      (∀ p ∈ Branch.nodesAll bs, ∀ name, (c.picture t p.1 p.2 name).Keeps I) →
      (c.branchesBackward t bs).Keeps I
  | [], _ => .pure _
  | b :: rest, hpicture => by
    have hlater := keeps_branchesBackward hreport rest fun p hp =>
      hpicture p (List.mem_append_right _ hp)
    have hown := keeps_branch hreport true b fun p hp => hpicture p (List.mem_append_left _ hp)
    rw [branchesBackward]
    exact hlater.bind fun _ => hown.bind fun _ => .pure _

end

theorem keeps_roots {bs : List (Branch α)}
    (hpicture : ∀ b ∈ bs, ∀ p ∈ b.nodes, ∀ name, (c.picture (c.target b) p.1 p.2 name).Keeps I)
    (hreport : ∀ d, (report d : Compile α Unit).Keeps I) : (c.roots bs).Keeps I := by
  induction bs with
  | nil => exact .pure _
  | cons b rest ih =>
    have hroot : (c.root b).Keeps I :=
      (keeps_branch hreport false b (hpicture b List.mem_cons_self)).bind fun _ => .pure _
    rw [roots]
    exact hroot.bind fun _ =>
      (ih fun b hb => hpicture b (List.mem_cons_of_mem _ hb)).bind fun _ => .pure _

end Compiler
end DesignLayout
