import DesignLayout.Compiler.GridScroller
import Mathlib.Tactic.SplitIfs

/-! Elements whose attributes are all changed alike.

`Element.mapOwn` changes the attributes of an element and of all that is within it. As long as names
stay what they are, a repeated grid makes the same of the changed cells (`template_mapOwn`): which
cells it scrolls over is decided by their names and by their order. -/
namespace DesignLayout

variable {α : Type}

namespace Element

mutual

def mapOwn (f : Attributes α → Attributes α) : Element α → Element α
  | mk own none => mk (f own) none
  | mk own (some elements) => mk (f own) (some (mapOwnAll f elements))

def mapOwnAll (f : Attributes α → Attributes α) : List (Element α) → List (Element α)
  | [] => []
  | e :: rest => mapOwn f e :: mapOwnAll f rest

end

variable {f : Attributes α → Attributes α}

theorem mapOwnAll_eq (f : Attributes α → Attributes α) (es : List (Element α)) :
    mapOwnAll f es = es.map (mapOwn f) := by
  induction es with
  | nil => rfl
  | cons e rest ih => rw [mapOwnAll, ih, List.map_cons]

@[simp] theorem mapOwn_mk (f : Attributes α → Attributes α) (own : Attributes α)
    (es : Option (List (Element α))) :
    (mk own es).mapOwn f = mk (f own) (es.map (·.map (mapOwn f))) := by
  cases es with
  | none => rfl
  | some es => simp [mapOwn, mapOwnAll_eq]

@[simp] theorem own_mapOwn (f : Attributes α → Attributes α) (e : Element α) :
    (e.mapOwn f).own = f e.own := by
  cases e
  simp

@[simp] theorem children_mapOwn (f : Attributes α → Attributes α) (e : Element α) :
    (e.mapOwn f).children = e.children.map (mapOwn f) := by
  rcases e with ⟨own, _ | es⟩ <;> simp [children]

/-- What is done to the attributes of one element may be done before or after the change. -/
theorem mapOwn_setOwn {g : Attributes α → Attributes α} {e : Element α}
    (h : f (g e.own) = g (f e.own)) : (e.setOwn g).mapOwn f = (e.mapOwn f).setOwn g := by
  cases e
  simpa [setOwn] using h

mutual

theorem mapOwn_eq_self (h : ∀ a, f a = a) : ∀ e : Element α, e.mapOwn f = e
  | mk own none => by rw [mapOwn, h]
  | mk own (some elements) => by rw [mapOwn, h, mapOwnAll_eq_self h elements]

theorem mapOwnAll_eq_self (h : ∀ a, f a = a) : ∀ es : List (Element α), mapOwnAll f es = es
  | [] => rfl
  | e :: rest => by rw [mapOwnAll, mapOwn_eq_self h e, mapOwnAll_eq_self h rest]

end
end Element

/-- The change leaves names alone, and a group that has nothing but a name. -/
structure Attributes.KeepsNames (f : Attributes α → Attributes α) : Prop where
  name : ∀ a, (f a).name = a.name
  rename : ∀ a name, f { a with name } = { f a with name }
  group : ∀ name, f { kind := .group, name } = { kind := .group, name }

namespace GridMetrics
open Element

variable {f : Attributes α → Attributes α} (hf : Attributes.KeepsNames f)
include hf

theorem name_mapOwn (e : Element α) : (e.mapOwn f).name = e.name := by
  rw [name, own_mapOwn, hf.name]
  rfl

theorem rename_mapOwn (name : String) (e : Element α) :
    (e.mapOwn f).rename name = (e.rename name).mapOwn f :=
  (mapOwn_setOwn (hf.rename e.own name)).symm

theorem isItem_mapOwn (e : Element α) : isItem (e.mapOwn f) = isItem e := by
  rw [isItem, name_mapOwn hf, isItem]

theorem columnTemplate_mapOwn (cells : List (Element α)) :
    columnTemplate (cells.map (mapOwn f)) = (columnTemplate cells).map (mapOwn f) := by
  cases cells with
  | nil => rfl
  | cons first rest =>
    have hfilter : (first.mapOwn f).children.filter isItem =
        (first.children.filter isItem).map (mapOwn f) := by
      simp only [children_mapOwn, List.filter_map, Function.comp_def, isItem_mapOwn hf]
    simp only [columnTemplate, List.map_cons, hfilter]
    cases first.children.filter isItem <;> rfl

theorem row_mapOwn (columns : Nat) (cells : List (Element α)) :
    row columns (cells.map (mapOwn f)) = (row columns cells).map (mapOwn f) := by
  refine List.ext_getElem? fun i => ?_
  simp [row, ← List.map_take, Option.map_map, Function.comp_def, rename_mapOwn hf]

/-- Cells that are changed alike give items that are changed alike. -/
theorem template_mapOwn (g : GridMetrics α) (cells : List (Element α)) :
    g.template (cells.map (mapOwn f)) =
      ((g.template cells).1, (g.template cells).2.map (mapOwn f)) := by
  unfold template
  split_ifs
  · rw [columnTemplate_mapOwn hf]
  · rw [List.map_take]
  · simp [rowTemplate, row_mapOwn hf, hf.group]

end GridMetrics
end DesignLayout
