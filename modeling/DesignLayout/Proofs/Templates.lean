import DesignLayout.Compiler.GridScroller
import Mathlib.Data.List.Forall2

/-! What the scroller of a repeated grid makes of its cells.

`Picks` says which elements a grid scrolls over and which way, by its numbers of rows and columns:
the items within the first cell, or that cell; the first cell; or one item around a row of cells
with names by column (`NumberedRow`). `PinnedAs` says what is done to them then: what stands
directly within them is anchored at the upper left, and nothing else is touched, however deep it
stands. By `scroller_pins_picked` a scroller is just that, for every grid and all cells. -/
namespace DesignLayout.GridMetrics

variable {α : Type}

/-! ### What is picked -/

/-- The name ends like that of an item. -/
def NamedAsItem (e : Element α) : Prop :=
  "Item".toList <:+ e.name.toList ∨ "_item".toList <:+ e.name.toList

instance (e : Element α) : Decidable (NamedAsItem e) :=
  inferInstanceAs (Decidable (_ ∨ _))

/-- The first cells, as many as there are columns if there are so many, each as it is but for its
name. The names count the columns downwards; the number that a cell gets, with the cells before it
and the cell itself, makes up the columns, so that no number is below zero. -/
structure NumberedRow (columns : Nat) (cells row : List (Element α)) : Prop where
  length : row.length = min columns cells.length
  cell : ∀ i e', row[i]? = some e' → ∃ e number, cells[i]? = some e ∧ i + 1 + number = columns ∧
    e'.own = { e.own with name := "item0-" ++ toString number } ∧ e'.elements = e.elements

/-- What a grid scrolls over, and which way, before it is pinned. -/
inductive Picks (g : GridMetrics α) :
    List (Element α) → ScrollDirection → List (Element α) → Prop
  | noCell (hcolumns : g.columns = 1) : Picks g [] .vertical []
  | items {first : Element α} {rest : List (Element α)} (hcolumns : g.columns = 1)
      (hitem : ∃ e ∈ first.children, NamedAsItem e) :
      Picks g (first :: rest) .vertical (first.children.filter (NamedAsItem ·))
  | firstCell {first : Element α} {rest : List (Element α)} (hcolumns : g.columns = 1)
      (hitem : ∀ e ∈ first.children, ¬ NamedAsItem e) : Picks g (first :: rest) .vertical [first]
  | oneRow {cells : List (Element α)} (hcolumns : g.columns ≠ 1) (hrows : g.rows = 1) :
      Picks g cells .horizontal (cells.take 1)
  | numbered {cells row : List (Element α)} (hcolumns : g.columns ≠ 1) (hrows : g.rows ≠ 1)
      (hrow : NumberedRow g.columns cells row) :
      Picks g cells .vertical [.mk { kind := .group, name := "item0" } (some row)]

theorem isItem_eq (e : Element α) : isItem e = decide (NamedAsItem e) := by
  rw [Bool.eq_iff_iff, decide_eq_true_iff, isItem, Bool.or_eq_true, Label.hasEnding,
    Label.hasEnding, List.isSuffixOf_iff_suffix, List.isSuffixOf_iff_suffix]
  rfl

theorem picks_columnTemplate {g : GridMetrics α} (hcolumns : g.columns = 1)
    (cells : List (Element α)) : g.Picks cells .vertical (columnTemplate cells) := by
  cases cells with
  | nil => exact .noCell hcolumns
  | cons first rest =>
    have hfilter : first.children.filter isItem = first.children.filter (NamedAsItem ·) :=
      List.filter_congr fun e _ => isItem_eq e
    rw [columnTemplate, hfilter]
    split
    · rename_i hnone
      refine .firstCell hcolumns fun e he hitem => ?_
      have hmem : e ∈ first.children.filter (NamedAsItem ·) :=
        List.mem_filter.mpr ⟨he, decide_eq_true hitem⟩
      rw [hnone] at hmem
      cases hmem
    · rename_i hsome
      refine .items hcolumns ?_
      obtain ⟨e, he⟩ := List.exists_mem_of_ne_nil _ hsome
      obtain ⟨he, hitem⟩ := List.mem_filter.mp he
      exact ⟨e, he, of_decide_eq_true hitem⟩

theorem getElem?_row (columns : Nat) (cells : List (Element α)) (i : Nat) :
    (row columns cells)[i]? = if i < columns then
      (cells[i]?).map (·.rename (numberedName (columns - i - 1))) else none := by
  rw [row, List.getElem?_mapIdx, List.getElem?_take]
  split <;> rfl

theorem numberedRow_row (columns : Nat) (cells : List (Element α)) :
    NumberedRow columns cells (row columns cells) where
  length := by rw [row, List.length_mapIdx, List.length_take]
  cell i e' h := by
    rw [getElem?_row] at h
    split at h
    · rename_i hi
      obtain ⟨e, he, rfl⟩ := Option.map_eq_some_iff.mp h
      exact ⟨e, columns - i - 1, he, by omega, Element.own_setOwn .., Element.elements_setOwn ..⟩
    · cases h

theorem picks_template (g : GridMetrics α) (cells : List (Element α)) :
    g.Picks cells (g.template cells).1 (g.template cells).2 := by
  unfold template
  split
  · exact picks_columnTemplate ‹_› cells
  · split
    · exact .oneRow ‹_› ‹_›
    · exact .numbered ‹_› ‹_› (numberedRow_row g.columns cells)

theorem Picks.scroll_eq_horizontal_iff {g : GridMetrics α} {cells items : List (Element α)}
    {scroll : ScrollDirection} (h : g.Picks cells scroll items) :
    scroll = .horizontal ↔ g.rows = 1 ∧ g.columns ≠ 1 := by
  cases h <;> simp [*]

/-! ### What is pinned -/

/-- The same element, but for the pivots of what stands directly within it. -/
structure PinnedAs (e e' : Element α) : Prop where
  own : e'.own = e.own
  isSome : e'.elements.isSome = e.elements.isSome
  within : List.Forall₂ (fun x x' => x'.own = { x.own with pivot := some .leftTop } ∧
    x'.elements = x.elements) e.children e'.children

theorem pinnedAs_pinned (e : Element α) : PinnedAs e (pinned e) := by
  obtain ⟨own, elements⟩ := e
  refine ⟨rfl, by simp [pinned], ?_⟩
  cases elements with
  | none => exact .nil
  | some es =>
    show List.Forall₂ _ es (es.map (·.setPivot (some .leftTop)))
    rw [List.forall₂_map_right_iff]
    exact List.forall₂_same.mpr fun x _ => ⟨Element.own_setOwn .., Element.elements_setOwn ..⟩

theorem spacing_scrollerLayout [Scalar α] (g : GridMetrics α) (scroll : ScrollDirection)
    (offset : α × α) (width scale : α) : (g.scrollerLayout scroll offset width scale).spacing =
      some (if scroll = .horizontal then g.paddingX * scale else g.paddingY * scale) := by
  cases scroll <;> rfl

/-- For every grid, place, scale and list of cells: the scroller scrolls horizontally when there is
one row and not one column, and vertically in every other case; its spacing is that of the axis; and
its items are those that the grid picks, in order, pinned and otherwise as they were. -/
theorem scroller_pins_picked [Scalar α] (g : GridMetrics α) (offset : α × α) (width scale : α)
    (cells : List (Element α)) :
    let layout := (g.scroller offset width scale cells).1
    let items := (g.scroller offset width scale cells).2
    (layout.scroll = .horizontal ↔ g.rows = 1 ∧ g.columns ≠ 1) ∧
    layout.spacing = some (if layout.scroll = .horizontal then g.paddingX * scale
      else g.paddingY * scale) ∧
    ∃ picked, g.Picks cells layout.scroll picked ∧ List.Forall₂ PinnedAs picked items := by
  have hpicks := g.picks_template cells
  refine ⟨hpicks.scroll_eq_horizontal_iff, g.spacing_scrollerLayout _ offset width scale, _, hpicks,
    ?_⟩
  show List.Forall₂ PinnedAs (g.template cells).2 ((g.template cells).2.map pinned)
  rw [List.forall₂_map_right_iff]
  exact List.forall₂_same.mpr fun e _ => pinnedAs_pinned e

end DesignLayout.GridMetrics
