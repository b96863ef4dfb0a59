import DesignLayout.Compiler.GridScroller
import Mathlib.Data.List.Flatten

/-! The elements of a document, one after the other.

`Element.preorder` lists an element and all that is within it, an element before the elements that
it holds. What an element is made of shows in its kind: renaming and anchoring keep the kinds
(`kinds_setOwn`), and the scroller of a repeated grid holds no picture that its cells do not hold,
in the same order (`pictures_template`). -/
namespace DesignLayout

variable {α : Type}

/-- The picture that an element shows. -/
def ElementKind.picture? : ElementKind α → Option String
  | image file => some file
  | _ => none

/-- A scroller that was made from a repeated grid: only these have padding. -/
def ElementKind.isGridScroller : ElementKind α → Bool
  | scroller layout => layout.paddingLeft.isSome
  | _ => false

namespace Element

mutual

/-- The element and all elements within it. -/
def preorder : Element α → List (Element α)
  | mk own none => [mk own none]
  | mk own (some elements) => mk own (some elements) :: preorderAll elements

def preorderAll : List (Element α) → List (Element α)
  | [] => []
  | e :: rest => preorder e ++ preorderAll rest

end

theorem preorderAll_eq (es : List (Element α)) : preorderAll es = es.flatMap preorder := by
  induction es with
  | nil => rfl
  | cons e rest ih => rw [preorderAll, ih, List.flatMap_cons]

theorem preorder_eq (e : Element α) : e.preorder = e :: e.children.flatMap preorder := by
  rcases e with ⟨own, _ | es⟩
  · rfl
  · rw [preorder, preorderAll_eq]
    rfl

theorem mem_preorder {x e : Element α} :
    x ∈ e.preorder ↔ x = e ∨ ∃ c ∈ e.children, x ∈ c.preorder := by
  rw [preorder_eq, List.mem_cons, List.mem_flatMap]

theorem mem_preorder_self (e : Element α) : e ∈ e.preorder :=
  mem_preorder.mpr (.inl rfl)

mutual

/-- What holds of an element as soon as it holds of the elements directly within it holds of every
element. -/
theorem induction_within {motive : Element α → Prop}
    (step : ∀ e, (∀ c ∈ e.children, motive c) → motive e) : ∀ e, motive e
  | mk _ none => step _ nofun
  | mk _ (some es) => step _ (forall_mem_within step es)

theorem forall_mem_within {motive : Element α → Prop}
    (step : ∀ e, (∀ c ∈ e.children, motive c) → motive e) :
    ∀ es : List (Element α), ∀ e ∈ es, motive e
  | [] => nofun
  | first :: rest => by
    have hfirst := induction_within step first
    have hrest := forall_mem_within step rest
    intro e he
    rcases List.mem_cons.mp he with rfl | he
    · exact hfirst
    · exact hrest e he

end

theorem mem_preorder_trans {x s e : Element α} (hx : x ∈ s.preorder) (hs : s ∈ e.preorder) :
    x ∈ e.preorder := by
  induction e using induction_within with
  | step e ih =>
    rcases mem_preorder.mp hs with rfl | ⟨c, hc, hs⟩
    · exact hx
    · exact mem_preorder.mpr (.inr ⟨c, hc, ih c hc hs⟩)

def kinds (e : Element α) : List (ElementKind α) :=
  e.preorder.map (·.own.kind)

def kindsAll (es : List (Element α)) : List (ElementKind α) :=
  (preorderAll es).map (·.own.kind)

/-- The pictures that the element and the elements within it show. -/
def pictures (e : Element α) : List String :=
  e.kinds.filterMap ElementKind.picture?

@[simp] theorem kindsAll_nil : kindsAll ([] : List (Element α)) = [] := rfl

@[simp] theorem kindsAll_cons (e : Element α) (rest : List (Element α)) :
    kindsAll (e :: rest) = e.kinds ++ kindsAll rest := by
  rw [kindsAll, preorderAll, List.map_append]
  rfl

theorem kindsAll_eq (es : List (Element α)) : kindsAll es = es.flatMap kinds := by
  induction es with
  | nil => rfl
  | cons e rest ih => rw [kindsAll_cons, ih, List.flatMap_cons]

@[simp] theorem kindsAll_append (es es' : List (Element α)) :
    kindsAll (es ++ es') = kindsAll es ++ kindsAll es' := by
  simp only [kindsAll_eq, List.flatMap_append]

@[simp] theorem kinds_mk (own : Attributes α) (es : Option (List (Element α))) :
    (mk own es).kinds = own.kind :: kindsAll (es.getD []) := by
  cases es <;> rfl

theorem kinds_eq (e : Element α) : e.kinds = e.own.kind :: kindsAll e.children := by
  cases e
  rw [kinds_mk]
  rfl

theorem kinds_setOwn {f : Attributes α → Attributes α} {e : Element α}
    (h : (f e.own).kind = e.own.kind) : (e.setOwn f).kinds = e.kinds := by
  cases e
  rw [setOwn, kinds_mk, kinds_mk]
  exact congrArg (· :: _) h

@[simp] theorem kinds_rename (name : String) (e : Element α) : (e.rename name).kinds = e.kinds :=
  kinds_setOwn rfl

@[simp] theorem kinds_setPivot (p : Option Pivot) (e : Element α) :
    (e.setPivot p).kinds = e.kinds :=
  kinds_setOwn rfl

theorem kindsAll_map {f : Element α → Element α} (h : ∀ e, (f e).kinds = e.kinds)
    (es : List (Element α)) : kindsAll (es.map f) = kindsAll es := by
  simp only [kindsAll_eq, List.flatMap_map, h]

theorem kindsAll_mapIdx {f : Nat → Element α → Element α} (h : ∀ i e, (f i e).kinds = e.kinds)
    (es : List (Element α)) : kindsAll (es.mapIdx f) = kindsAll es := by
  induction es generalizing f with
  | nil => rfl
  | cons e rest ih =>
    rw [List.mapIdx_cons, kindsAll_cons, kindsAll_cons, h, ih fun i e => h (i + 1) e]

theorem kindsAll_sublist {es es' : List (Element α)} (h : es.Sublist es') :
    (kindsAll es).Sublist (kindsAll es') := by
  rw [kindsAll_eq, kindsAll_eq]
  exact h.flatMap kinds

theorem kindsAll_children_sublist (e : Element α) : (kindsAll e.children).Sublist e.kinds := by
  rw [kinds_eq]
  exact List.sublist_cons_self ..

end Element

/-! ### Scrollers of repeated grids -/

namespace GridMetrics
open Element

@[simp] theorem kinds_pinned (item : Element α) : (pinned item).kinds = item.kinds := by
  cases item with
  | mk own elements =>
    cases elements with
    | none => rfl
    | some es =>
      rw [pinned, kinds_mk, kinds_mk]
      exact congrArg (own.kind :: ·) (kindsAll_map (kinds_setPivot _) es)

theorem kindsAll_columnTemplate (cells : List (Element α)) :
    (kindsAll (columnTemplate cells)).Sublist (kindsAll cells) := by
  unfold columnTemplate
  split
  · exact .refl _
  · rename_i first rest
    have hfirst : first.kinds.Sublist (kindsAll (first :: rest)) := by
      rw [kindsAll_cons]
      exact List.sublist_append_left ..
    split
    · simp
    · exact (kindsAll_sublist List.filter_sublist).trans
        ((kindsAll_children_sublist first).trans hfirst)

theorem kindsAll_row (columns : Nat) (cells : List (Element α)) :
    (kindsAll (row columns cells)).Sublist (kindsAll cells) := by
  rw [row, kindsAll_mapIdx fun i e => kinds_rename _ e]
  exact kindsAll_sublist (List.take_sublist ..)

/-- What a grid scrolls over shows pictures of its cells alone, and in their order. -/
theorem pictures_template (g : GridMetrics α) (cells : List (Element α)) :
    ((kindsAll (g.template cells).2).filterMap ElementKind.picture?).Sublist
      ((kindsAll cells).filterMap ElementKind.picture?) := by
  unfold template
  split
  · exact (kindsAll_columnTemplate cells).filterMap _
  · split
    · exact (kindsAll_sublist (List.take_sublist ..)).filterMap _
    · rw [rowTemplate, kindsAll_cons, kinds_mk, kindsAll_nil, List.append_nil]
      exact (kindsAll_row g.columns cells).filterMap _

end GridMetrics
end DesignLayout
