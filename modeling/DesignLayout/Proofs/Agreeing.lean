import DesignLayout.Proofs.Keeping
import DesignLayout.Proofs.Mapping

/-! Compilations that differ only in what a change of attributes takes away.

Two computations agree when from related ledgers they come to related ledgers, with results that a
change `f` makes equal (`Compile.AgreeUpTo`). The compiler never decides anything by what `f` takes
away, as long as `f` keeps the names: if pictures and reports agree, then the element of a node
agrees as soon as the elements below it do (`Compiler.agreeUpTo_node`). So a branch is compiled to
the same by two compilers that make the same of every node and take over from the probe what is
alike (`Compiler.agreeUpTo_branch`). -/
namespace DesignLayout

variable {α : Type}

/-- The change keeps names, and what it takes away does not come back with a pivot. -/
structure Attributes.Forgets (f : Attributes α → Attributes α) : Prop extends KeepsNames f where
  repin : ∀ a pivot, f { f a with pivot } = f { a with pivot }

namespace Compile
variable {β γ β' γ' : Type} {R : Ledger α → Ledger α → Prop}

/-- From related ledgers the computations come to related ledgers, with results that are alike
under `f`. -/
def AgreeUpTo (R : Ledger α → Ledger α → Prop) (f : β → γ) (x y : Compile α β) : Prop :=
  ∀ l l', R l l' → f (x.run l).1 = f (y.run l').1 ∧ R (x.run l).2 (y.run l').2

namespace AgreeUpTo

theorem pure {f : β → γ} {b b' : β} (h : f b = f b') :
    AgreeUpTo R f (Pure.pure b : Compile α β) (Pure.pure b') :=
  fun _ _ hl => ⟨h, hl⟩

theorem bind {f : β → γ} {g : β' → γ'} {x y : Compile α β} {k k' : β → Compile α β'}
    (h : AgreeUpTo R f x y) (hk : ∀ b b', f b = f b' → AgreeUpTo R g (k b) (k' b')) :
    AgreeUpTo R g (x >>= k) (y >>= k') := by
  intro l l' hl
  obtain ⟨hresult, hledger⟩ := h l l' hl
  rw [run_bind, run_bind]
  exact hk _ _ hresult _ _ hledger

theorem some {f : β → γ} {x y : Compile α β} (h : AgreeUpTo R f x y) :
    AgreeUpTo R (Option.map f) (Option.some <$> x) (Option.some <$> y) :=
  fun l l' hl => ⟨congrArg Option.some (h l l' hl).1, (h l l' hl).2⟩

end AgreeUpTo
end Compile

namespace Element

variable {f : Attributes α → Attributes α} {e e' : Element α} {es es' : List (Element α)}

section
variable (hf : Attributes.KeepsNames f)
include hf

theorem hasArea_eq_of_mapOwn (h : es.map (mapOwn f) = es'.map (mapOwn f)) :
    Compiler.hasArea es = Compiler.hasArea es' := by
  have hmap (es : List (Element α)) :
      Compiler.hasArea es = Compiler.hasArea (es.map (mapOwn f)) := by
    simp [Compiler.hasArea, Function.comp_def, GridMetrics.name_mapOwn hf]
  rw [hmap, h, ← hmap]

theorem child?_isNone_eq_of_mapOwn (h : e.mapOwn f = e'.mapOwn f) (name : String) :
    (e.child? name).isNone = (e'.child? name).isNone := by
  have hmap (e : Element α) : (e.child? name).isNone = ((e.mapOwn f).child? name).isNone := by
    simp only [child?, children_mapOwn, List.find?_map, Option.isNone_map, Function.comp_def,
      GridMetrics.name_mapOwn hf]
  rw [hmap, h, ← hmap]

end

theorem isEmpty_eq_of_mapOwn (h : es.map (mapOwn f) = es'.map (mapOwn f)) :
    es.isEmpty = es'.isEmpty := by
  have hmap (es : List (Element α)) : es.isEmpty = (es.map (mapOwn f)).isEmpty := by simp
  rw [hmap, h, ← hmap]

variable (hf : Attributes.Forgets f)
include hf

theorem mapOwn_setPivot (pivot : Option Pivot) (e : Element α) :
    (e.setPivot pivot).mapOwn f = (e.mapOwn f).setOwn fun a => f { a with pivot } := by
  obtain ⟨own, es⟩ := e
  simp [setPivot, setOwn, hf.repin]

/-- What is left of an item that was pinned depends only on what was left of it before. -/
theorem mapOwn_pinned (item : Element α) :
    (GridMetrics.pinned item).mapOwn f =
      .mk (item.mapOwn f).own ((item.mapOwn f).elements.map
        (·.map (·.setOwn fun a => f { a with pivot := some .leftTop }))) := by
  obtain ⟨own, _ | es⟩ := item <;> simp [GridMetrics.pinned, mapOwn_setPivot hf]

end Element

namespace GridMetrics
open Element

variable [Scalar α] {f : Attributes α → Attributes α} {cells cells' : List (Element α)}

/-- Cells that are alike give scrollers of one layout, over items that are alike. -/
theorem scroller_alike (hf : Attributes.Forgets f)
    (h : cells.map (mapOwn f) = cells'.map (mapOwn f)) (g : GridMetrics α) (offset : α × α)
    (width scale : α) :
    (g.scroller offset width scale cells).1 = (g.scroller offset width scale cells').1 ∧
      (g.scroller offset width scale cells).2.map (mapOwn f) =
        (g.scroller offset width scale cells').2.map (mapOwn f) := by
  have htemplate : ((g.template cells).1, (g.template cells).2.map (mapOwn f)) =
      ((g.template cells').1, (g.template cells').2.map (mapOwn f)) := by
    rw [← template_mapOwn hf.toKeepsNames, ← template_mapOwn hf.toKeepsNames, h]
  obtain ⟨hscroll, hitems⟩ := Prod.mk.inj htemplate
  constructor
  · exact congrArg (g.scrollerLayout · offset width scale) hscroll
  · show ((g.template cells).2.map pinned).map (mapOwn f) =
      ((g.template cells').2.map pinned).map (mapOwn f)
    have hpinned (items : List (Element α)) : (items.map pinned).map (mapOwn f) =
        (items.map (mapOwn f)).map fun item => .mk item.own (item.elements.map
          (·.map (·.setOwn fun a => f { a with pivot := some .leftTop }))) := by
      rw [List.map_map, List.map_map]
      exact List.map_congr_left fun item _ => mapOwn_pinned hf item
    rw [hpinned, hpinned, hitems]

end GridMetrics

/-! ### One node -/

namespace Compiler
open Compile Element

variable [Scalar α] {R : Ledger α → Ledger α → Prop} {f : Attributes α → Attributes α}
  {c : Compiler α} {t : Target α}

section
variable {below below' : Compile α (List (Element α))}
  (hbelow : AgreeUpTo R (List.map (mapOwn f)) below below')
include hbelow

theorem agreeUpTo_container (kind : ElementKind α) (n : Node α) (name : String) :
    AgreeUpTo R (mapOwn f) (c.container kind n name below) (c.container kind n name below') :=
  hbelow.bind fun _ _ h => .pure (by simp [h])

variable (hf : Attributes.Forgets f)
  (hreport : ∀ d, AgreeUpTo R (fun u => u) (report d : Compile α Unit) (report d))
include hf hreport

theorem agreeUpTo_scroller (n : Node α) (name : String) :
    AgreeUpTo R (mapOwn f) (c.scroller t n name below) (c.scroller t n name below') := by
  refine hbelow.bind fun es es' h => ?_
  dsimp only
  rw [hasArea_eq_of_mapOwn hf.toKeepsNames h]
  split
  · exact .pure (by simp [h])
  · split
    · rename_i grid _ _
      obtain ⟨hlayout, hitems⟩ := grid.scroller_alike hf h (c.cellOffset n) (c.frame t n).w
        c.context.scale
      refine .pure ?_
      simp [hlayout, hitems]
    · exact (hreport _).bind fun _ _ _ => .pure (by simp [h])

variable (hpicture : ∀ id n name,
  AgreeUpTo R (mapOwn f) (c.picture t id n name) (c.picture t id n name))
include hpicture

theorem agreeUpTo_group (id : NodeId) (n : Node α) (l : Label) :
    AgreeUpTo R (mapOwn f) (c.group t id n l below) (c.group t id n l below') := by
  have hcontainer (kind : ElementKind α) := agreeUpTo_container (c := c) hbelow kind n l.name
  unfold group
  dsimp only
  split
  · exact hpicture id n l.name
  · split
    · refine (hcontainer _).bind fun e e' h => ?_
      rw [child?_isNone_eq_of_mapOwn hf.toKeepsNames h]
      split
      · exact (hreport _).bind fun _ _ _ => .pure h
      · exact .pure h
    · exact hcontainer _
    · split
      · exact agreeUpTo_scroller hbelow hf hreport n l.name
      · exact hcontainer _

/-- The element of a node agrees as soon as the elements below it do. -/
theorem agreeUpTo_node (id : NodeId) (n : Node α) (l : Label) :
    AgreeUpTo R (Option.map (mapOwn f)) (c.node t id n l below) (c.node t id n l below') := by
  have hgroup := (agreeUpTo_group (t := t) hbelow hf hreport hpicture id n l).some
  have hshape : AgreeUpTo R (Option.map (mapOwn f))
      (do
        let picture ← c.picture t id n l.name
        let elements ← below
        return some (if elements.isEmpty then picture else .mk picture.own (some elements)))
      (do
        let picture ← c.picture t id n l.name
        let elements ← below'
        return some (if elements.isEmpty then picture else .mk picture.own (some elements))) := by
    refine (hpicture id n l.name).bind fun picture picture' hpicture => ?_
    refine hbelow.bind fun es es' h => .pure ?_
    have hown : f picture.own = f picture'.own := by
      have := congrArg own hpicture
      rwa [own_mapOwn, own_mapOwn] at this
    rw [isEmpty_eq_of_mapOwn h]
    split <;> simp [h, hown, hpicture]
  unfold node
  split
  · exact hbelow.bind fun es es' h => .pure (by simp [h])
  · exact (hpicture id n l.name).some
  · exact hgroup
  · exact hgroup
  · exact hgroup
  · exact hshape
  · exact hshape
  · exact hshape
  · exact hshape
  · refine AgreeUpTo.some ?_
    unfold text
    split
    · exact hpicture id n l.name
    · exact .pure rfl
  · refine (hreport _).bind fun _ _ _ => hbelow.bind fun es es' h => .pure ?_
    rw [isEmpty_eq_of_mapOwn h]
    split <;> simp [h]

end

/-! ### A branch -/

/-- The compilers make the same of every node for the target, and their pictures and reports
agree. -/
structure Agreement (R : Ledger α → Ledger α → Prop) (f : Attributes α → Attributes α)
    (c c' : Compiler α) (t : Target α) : Prop where
  forgets : Attributes.Forgets f
  label : c'.label = c.label
  omits : c'.omits = c.omits
  node : c'.node t = c.node t
  report d : AgreeUpTo R (fun u => u) (report d : Compile α Unit) (report d)
  picture id n name : AgreeUpTo R (mapOwn f) (c.picture t id n name) (c.picture t id n name)

/-- What both compilers take over from the probe for the node leaves alike what is alike. -/
def TakesAlike (f : Attributes α → Attributes α) (c c' : Compiler α) (id : NodeId) : Prop :=
  ∀ e e', e.mapOwn f = e'.mapOwn f →
    (c.withParameter id e).mapOwn f = (c'.withParameter id e').mapOwn f

variable {c' : Compiler α}

mutual

/-- A branch is compiled to what is alike, when all that is taken over from the probe is alike. -/
theorem agreeUpTo_branch (h : Agreement R f c c' t) (inner : Bool) :
    ∀ b, (∀ id ∈ b.preorder, TakesAlike f c c' id) →
      AgreeUpTo R (Option.map (mapOwn f)) (c.branch t inner b) (c'.branch t inner b)
  | .mk id n children, htakes => by
    have hbelow := agreeUpTo_branchesBackward h children fun m hm =>
      htakes m (List.mem_cons_of_mem _ hm)
    have hnode := agreeUpTo_node hbelow h.forgets h.report h.picture id n (c.label n)
    unfold branch
    dsimp only
    rw [h.label, h.omits, h.node]
    split
    · exact .pure rfl
    · refine hnode.bind fun e? e?' h => .pure ?_
      cases e? with
      | none =>
        cases e?' with
        | none => rfl
        | some e' => cases h
      | some e =>
        cases e?' with
        | none => cases h
        | some e' =>
          exact congrArg some (htakes id List.mem_cons_self e e' (Option.some.inj h))

theorem agreeUpTo_branchesBackward (h : Agreement R f c c' t) :
    ∀ bs, (∀ id ∈ Branch.preorderAll bs, TakesAlike f c c' id) →
      AgreeUpTo R (List.map (mapOwn f)) (c.branchesBackward t bs) (c'.branchesBackward t bs)
  | [], _ => .pure rfl
  | b :: rest, htakes => by
    have hlater := agreeUpTo_branchesBackward h rest fun m hm =>
      htakes m (List.mem_append_right _ hm)
    have hown := agreeUpTo_branch h true b fun m hm => htakes m (List.mem_append_left _ hm)
    rw [branchesBackward, branchesBackward]
    refine hlater.bind fun later later' hlater => hown.bind fun own own' hown => .pure ?_
    have htoList (e? : Option (Element α)) :
        e?.toList.map (mapOwn f) = (e?.map (mapOwn f)).toList := by
      cases e? <;> rfl
    rw [List.map_append, List.map_append, hlater, htoList, htoList, hown]

end

end Compiler
end DesignLayout
