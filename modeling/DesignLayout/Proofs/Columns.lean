import DesignLayout.Proofs.Anchoring
import DesignLayout.Proofs.Templates
import DesignLayout.Proofs.Walking
import Mathlib.Data.List.ReduceOption

/-! The cells that a scroller over several rows and columns shows.

Such a scroller holds one item around a row of cells, with names by column. The names are given by
counting the elements that the cells were compiled to, the last one first. A cell that is commented
out or cut gives no element and is not counted, and then what stands before it moves up: into a
column that is not its own, or from another row. `Cells.Gapless` tells when nothing moves up, and by
`Compiler.row_by_column_iff` the item shows one row of the source, named by its columns, exactly
then. -/
namespace DesignLayout

/-! ### Cells with and without an element -/

namespace Cells
variable {β : Type}

/-- The cell at the place gave something. -/
def Shown (cells : List (Option β)) (i : Nat) : Prop :=
  ∃ x, cells[i]? = some (some x)

/-- What the cells gave, each with its place, the last one first. -/
def backward (cells : List (Option β)) : List (Nat × β) :=
  (cells.zipIdx.filterMap fun p => p.1.map (p.2, ·)).reverse

/-- In the row of the last cell that gave something, a cell gave something as soon as any cell
before it did, be this one in the same row or not. -/
def Gapless (columns : Nat) (cells : List (Option β)) : Prop :=
  ∀ last, Shown cells last → (∀ i, Shown cells i → i ≤ last) →
    ∀ q i, Shown cells q → q < i → i / columns = last / columns → Shown cells i

/-- The first places count down the columns of one row, from the last column. -/
def CountsDown (columns : Nat) (places : List Nat) : Prop :=
  ∃ r, ∀ k p, k < columns → places[k]? = some p → p = columns * r + (columns - k - 1)

variable {columns : Nat} {cells : List (Option β)} {places : List Nat}

theorem mem_backward {i : Nat} {x : β} :
    (i, x) ∈ backward cells ↔ cells[i]? = some (some x) := by
  rw [backward, List.mem_reverse, List.mem_filterMap]
  constructor
  · rintro ⟨⟨found, place⟩, hmem, hfound⟩
    obtain ⟨y, rfl, hy⟩ := Option.map_eq_some_iff.mp hfound
    obtain ⟨rfl, rfl⟩ := Prod.mk.inj hy
    exact List.mem_zipIdx_iff_getElem?.mp hmem
  · exact fun h => ⟨(some x, i), List.mem_zipIdx_iff_getElem?.mpr h, rfl⟩

theorem shown_iff_mem {i : Nat} : Shown cells i ↔ i ∈ (backward cells).map Prod.fst := by
  simp [Shown, ← mem_backward]

theorem shown_iff_isSome {i : Nat} : Shown cells i ↔ (cells.map Option.isSome)[i]? = some true := by
  simp [Shown, Option.isSome_iff_exists]

theorem pairwise_backward (cells : List (Option β)) :
    ((backward cells).map Prod.fst).Pairwise (· > ·) := by
  have hplaces : cells.zipIdx.Pairwise fun p q => p.2 < q.2 := by
    rw [← List.pairwise_map (f := Prod.snd) (R := (· < ·)), List.zipIdx_map_snd]
    exact List.pairwise_lt_range'
  rw [backward, List.map_reverse, List.pairwise_reverse, List.pairwise_map, List.pairwise_filterMap]
  refine hplaces.imp fun {p q} hlt a ha b hb => ?_
  obtain ⟨_, -, rfl⟩ := Option.map_eq_some_iff.mp ha
  obtain ⟨_, -, rfl⟩ := Option.map_eq_some_iff.mp hb
  exact hlt

theorem map_snd_backward (cells : List (Option β)) :
    (backward cells).map Prod.snd = cells.reverse.reduceOption := by
  have hfst : cells.zipIdx.map Prod.fst = cells := List.zipIdx_map_fst 0 cells
  rw [backward, List.map_reverse, List.map_filterMap, List.reduceOption, List.filterMap_reverse]
  conv_rhs => rw [← hfst, List.filterMap_map]
  refine congrArg List.reverse (List.filterMap_congr fun ⟨found, place⟩ _ => ?_)
  cases found <;> rfl

/-! ### Places that count down -/

theorem lt_of_pairwise (hdown : places.Pairwise (· > ·)) {j k p q : Nat} (hp : places[j]? = some p)
    (hq : places[k]? = some q) (hlt : j < k) : q < p := by
  obtain ⟨hj, rfl⟩ := List.getElem?_eq_some_iff.mp hp
  obtain ⟨hk, rfl⟩ := List.getElem?_eq_some_iff.mp hq
  exact List.pairwise_iff_getElem.mp hdown j k hj hk hlt

theorem le_of_pairwise (hdown : places.Pairwise (· > ·)) {j k p q : Nat} (hp : places[j]? = some p)
    (hq : places[k]? = some q) (hle : j ≤ k) : q ≤ p := by
  rcases Nat.lt_or_eq_of_le hle with hlt | rfl
  · exact Nat.le_of_lt (lt_of_pairwise hdown hp hq hlt)
  · exact Nat.le_of_eq (Option.some.inj (hq.symm.trans hp))

theorem div_of_eq {r p rest : Nat} (hp : p = columns * r + rest) (hrest : rest < columns) :
    p / columns = r := by
  rw [hp, Nat.mul_add_div (by omega), Nat.div_eq_of_lt hrest, Nat.add_zero]

theorem mod_of_eq {r p rest : Nat} (hp : p = columns * r + rest) (hrest : rest < columns) :
    p % columns = rest := by
  rw [hp, Nat.mul_add_mod, Nat.mod_eq_of_lt hrest]

theorem gapless_of_countsDown (hcolumns : 0 < columns)
    (h : CountsDown columns ((backward cells).map Prod.fst)) : Gapless columns cells := by
  obtain ⟨r, hcount⟩ := h
  intro last hlast hmax q i hq hlt hrow
  have hdown := pairwise_backward cells
  rw [shown_iff_mem] at hlast hq ⊢
  have hmax : ∀ p ∈ (backward cells).map Prod.fst, p ≤ last :=
    fun p hp => hmax p (shown_iff_mem.mpr hp)
  generalize (backward cells).map Prod.fst = places at *
  -- The last place comes first, so it lies in the row that is counted down.
  obtain ⟨first, hfirst⟩ : ∃ p, places[0]? = some p := by
    cases places with
    | nil => cases hlast
    | cons p _ => exact ⟨p, rfl⟩
  obtain ⟨j, hj⟩ := List.mem_iff_getElem?.mp hlast
  obtain rfl : first = last :=
    Nat.le_antisymm (hmax first (List.mem_of_getElem? hfirst))
      (le_of_pairwise hdown hfirst hj (Nat.zero_le j))
  rw [div_of_eq (hcount 0 first hcolumns hfirst) (by omega)] at hrow
  have hmod := Nat.mod_lt i hcolumns
  have hi : i = columns * r + i % columns := by rw [← hrow, Nat.div_add_mod]
  obtain ⟨k, hk⟩ := List.mem_iff_getElem?.mp hq
  cases hfound : places[columns - i % columns - 1]? with
  | some p =>
    have hp := hcount _ p (by omega) hfound
    obtain rfl : p = i := by omega
    exact List.mem_of_getElem? hfound
  | none =>
    -- Then all places stand behind the one that is asked for.
    have hlength := List.getElem?_eq_none_iff.mp hfound
    have hklt := (List.getElem?_eq_some_iff.mp hk).1
    have := hcount k q (by omega) hk
    omega

theorem countsDown_of_gapless (hcolumns : 0 < columns) (h : Gapless columns cells) :
    CountsDown columns ((backward cells).map Prod.fst) := by
  have hdown := pairwise_backward cells
  have hshown (i : Nat) : Shown cells i ↔ i ∈ (backward cells).map Prod.fst := shown_iff_mem
  generalize (backward cells).map Prod.fst = places at *
  cases hlast : places[0]? with
  | none =>
    refine ⟨0, fun k p _ hp => ?_⟩
    rw [List.getElem?_eq_none_iff, Nat.le_zero, List.length_eq_zero_iff] at hlast
    rw [hlast] at hp
    cases hp
  | some last =>
    have hmax : ∀ i, Shown cells i → i ≤ last := fun i hi => by
      obtain ⟨j, hj⟩ := List.mem_iff_getElem?.mp ((hshown i).mp hi)
      exact le_of_pairwise hdown hlast hj (Nat.zero_le j)
    have hfill : ∀ q ∈ places, ∀ i, q < i → i / columns = last / columns → i ∈ places :=
      fun q hq i hlt hrow => (hshown i).mp (h last ((hshown last).mpr (List.mem_of_getElem? hlast))
        hmax q i ((hshown q).mpr hq) hlt hrow)
    have hlastRow := Nat.div_add_mod last columns
    have hlastMod := Nat.mod_lt last hcolumns
    refine ⟨last / columns, fun k => ?_⟩
    generalize hr : last / columns = r at *
    have hin (k : Nat) : (columns * r + (columns - k - 1)) / columns = r :=
      div_of_eq rfl (by omega)
    induction k with
    | zero =>
      intro p _ hp
      obtain rfl := Option.some.inj (hlast.symm.trans hp)
      -- Otherwise the last column of the row would be shown, behind the last place.
      by_contra hne
      have hbehind := hfill last (List.mem_of_getElem? hlast) _ (by omega) (hin 0)
      have := hmax _ ((hshown _).mpr hbehind)
      omega
    | succ k ih =>
      intro p hk hp
      have hklt := (List.getElem?_eq_some_iff.mp hp).1
      obtain ⟨before, hbefore⟩ : ∃ p, places[k]? = some p :=
        ⟨_, List.getElem?_eq_getElem (by omega)⟩
      have hcount := ih before (by omega) hbefore
      have hlt := lt_of_pairwise hdown hbefore hp (Nat.lt_succ_self k)
      -- Otherwise the column that comes next would be shown, between two neighbours.
      by_contra hne
      have hbetween := hfill p (List.mem_of_getElem? hp) _ (by omega) (hin (k + 1))
      obtain ⟨j, hj⟩ := List.mem_iff_getElem?.mp hbetween
      rcases Nat.lt_or_ge k j with hkj | hjk
      · have := le_of_pairwise hdown hp hj hkj
        omega
      · have := le_of_pairwise hdown hj hbefore hjk
        omega

theorem countsDown_iff_gapless (hcolumns : 0 < columns) :
    CountsDown columns ((backward cells).map Prod.fst) ↔ Gapless columns cells :=
  ⟨gapless_of_countsDown hcolumns, countsDown_of_gapless hcolumns⟩

end Cells

theorem forall₂_mapIdx_iff {β γ : Type} {R : β → γ → Prop} {f : Nat → β → γ} {l : List β} :
    List.Forall₂ R l (l.mapIdx f) ↔ ∀ k x, l[k]? = some x → R x (f k x) := by
  induction l generalizing f with
  | nil => simp
  | cons x rest ih =>
    rw [List.mapIdx_cons, List.forall₂_cons, ih]
    constructor
    · rintro ⟨hx, hrest⟩ (_ | k) y hy
      · exact Option.some.inj hy ▸ hx
      · exact hrest k y hy
    · exact fun h => ⟨h 0 x rfl, fun k y hy => h (k + 1) y hy⟩

variable {α : Type}

/-- The elements show the cells of one row of the source, each by the name of its column. -/
def Cells.ByColumn (columns : Nat) (cells : List (Option (Element α))) (row : List (Element α)) :
    Prop :=
  ∃ r, List.Forall₂ (fun p x => p.1 / columns = r ∧
    x.name = "item0-" ++ toString (p.1 % columns)) ((backward cells).take columns) row

namespace GridMetrics
open Cells

/-- The element of a cell as it stands at a place of the item: by a number, and pinned. -/
def placed (columns k : Nat) (cell : Element α) : Element α :=
  (cell.rename (numberedName (columns - k - 1))).setPivot (some .leftTop)

theorem own_placed (columns k : Nat) (cell : Element α) : (placed columns k cell).own =
    { cell.own with name := numberedName (columns - k - 1), pivot := some .leftTop } := by
  rw [placed, Element.setPivot, Element.own_setOwn, Element.rename, Element.own_setOwn]

theorem elements_placed (columns k : Nat) (cell : Element α) :
    (placed columns k cell).elements = cell.elements := by
  rw [placed, Element.setPivot, Element.elements_setOwn, Element.rename, Element.elements_setOwn]

theorem numberedName_eq_iff {m n : Nat} : numberedName m = "item0-" ++ toString n ↔ m = n := by
  have hname (k : Nat) : numberedName k = "item0-" ++ toString k := rfl
  rw [hname, String.append_right_inj]
  exact ⟨fun h => Nat.repr_injective h, congrArg toString⟩

/-- What a grid of several rows and columns scrolls over. -/
theorem items_of_rows {g : GridMetrics α} (hrows : g.rows ≠ 1) (hcolumns : g.columns ≠ 1)
    (cells : List (Option (Element α))) :
    (g.template cells.reverse.reduceOption).2.map pinned =
      [.mk { kind := .group, name := "item0" } (some (((backward cells).take g.columns).mapIdx
        fun k p => placed g.columns k p.2))] := by
  rw [template, if_neg hcolumns, if_neg hrows, ← map_snd_backward]
  refine congrArg (fun es => [Element.mk _ (some es)]) (List.ext_getElem? fun k => ?_)
  rw [List.getElem?_map, getElem?_row, List.getElem?_map, List.getElem?_mapIdx, List.getElem?_take]
  split
  · rw [Option.map_map, Option.map_map]
    rfl
  · rfl

theorem byColumn_iff_gapless {columns : Nat} (hcolumns : 0 < columns)
    (cells : List (Option (Element α))) :
    ByColumn columns cells (((backward cells).take columns).mapIdx fun k p =>
      placed columns k p.2) ↔ Gapless columns cells := by
  rw [← countsDown_iff_gapless hcolumns]
  refine exists_congr fun r => ?_
  have hplace (k p : Nat) (hk : k < columns) : p / columns = r ∧ columns - k - 1 = p % columns ↔
      p = columns * r + (columns - k - 1) := by
    constructor
    · rintro ⟨rfl, hmod⟩
      rw [hmod, Nat.div_add_mod]
    · exact fun hp => ⟨div_of_eq hp (by omega), (mod_of_eq hp (by omega)).symm⟩
  have hname (k : Nat) (x : Element α) :
      (placed columns k x).name = numberedName (columns - k - 1) :=
    congrArg Attributes.name (own_placed columns k x)
  simp only [forall₂_mapIdx_iff, hname, numberedName_eq_iff, List.getElem?_map, List.getElem?_take]
  constructor
  · intro h k p hk hp
    obtain ⟨found, hfound, rfl⟩ := Option.map_eq_some_iff.mp hp
    exact (hplace k found.1 hk).mp (h k found (by rwa [if_pos hk]))
  · intro h k found hfound
    split at hfound
    · rename_i hk
      exact (hplace k found.1 hk).mpr (h k found.1 hk (by rw [hfound]; rfl))
    · cases hfound

end GridMetrics

namespace Compiler
open Compile Element Cells

variable [Scalar α]

section
variable (c : Compiler α) (t : Target α)

/-- The elements of the branches below a node, each at the place of its branch; the last branch is
compiled first. -/
def eachBackward : List (Branch α) → Compile α (List (Option (Element α)))
  | [] => return []
  | b :: rest => do
    let later ← eachBackward rest
    let own ← c.branch t true b
    return own :: later

end

variable {c : Compiler α} {t : Target α} {n : Node α} {g : GridMetrics α}

theorem run_branchesBackward (bs : List (Branch α)) (l : Ledger α) :
    (c.branchesBackward t bs).run l = (((c.eachBackward t bs).run l).1.reverse.reduceOption,
      ((c.eachBackward t bs).run l).2) := by
  induction bs with
  | nil => rfl
  | cons b rest ih =>
    simp only [branchesBackward, eachBackward, run_bind, run_pure, ih, List.reverse_cons,
      List.reduceOption_append]
    cases ((c.branch t true b).run ((c.eachBackward t rest).run l).2).1 <;> rfl

theorem forall₂_eachBackward (bs : List (Branch α)) (l : Ledger α) :
    List.Forall₂ (fun x e? => ∃ l', e? = ((c.branch t true x).run l').1) bs
      ((c.eachBackward t bs).run l).1 := by
  induction bs with
  | nil => exact .nil
  | cons b rest ih => exact .cons ⟨_, rfl⟩ ih

/-! ### Inside a scroller over a grid -/

section
variable {below : Compile α (List (Element α))} {l : Ledger α}

theorem elements_scroller (hkind : n.kind = .repeatGrid) (hgrid : n.grid = some g) {name : String}
    (h : ((c.scroller t n name below).run l).1.own.kind.isGridScroller = true) :
    ((c.scroller t n name below).run l).1.elements =
      some ((g.template (below.run l).1).2.map GridMetrics.pinned) := by
  simp only [scroller, hkind, hgrid, run_bind] at h ⊢
  split at h
  · cases h
  · rename_i harea
    rw [if_neg harea]
    rfl

/-- No other element that a group becomes is a scroller over a grid. -/
theorem elements_group (hkind : n.kind = .repeatGrid) (hgrid : n.grid = some g) {id : NodeId}
    {label : Label}
    (h : ((c.group t id n label below).run l).1.own.kind.isGridScroller = true) :
    ((c.group t id n label below).run l).1.elements =
      some ((g.template (below.run l).1).2.map GridMetrics.pinned) := by
  unfold group at h ⊢
  dsimp only at h ⊢
  split at h
  · cases h
  · rename_i himage
    rw [if_neg himage]
    split at h
    · rename_i hrole
      have hbox := ElementKind.isGridScroller_of_isBox (isBox_containerKind? hrole)
      simp only [run_bind] at h
      split at h <;> cases hbox.symm.trans h
    · rename_i hrole
      have hbox := ElementKind.isGridScroller_of_isBox (isBox_containerKind? hrole)
      cases hbox.symm.trans h
    · split at h
      · rename_i hrole hscroller
        rw [if_pos hscroller]
        exact elements_scroller hkind hgrid h
      · cases h

end

omit [Scalar α] in
theorem withParameter_same (id : NodeId) (e : Element α) :
    (c.withParameter id e).own.kind = e.own.kind ∧
      (c.withParameter id e).elements = e.elements := by
  rcases c.withParameter_eq id e with heq | ⟨p, -, heq⟩ <;> rw [heq]
  · exact ⟨rfl, rfl⟩
  · exact ⟨by rw [own_setOwn], elements_setOwn ..⟩

theorem elements_branch (hkind : n.kind = .repeatGrid) (hgrid : n.grid = some g) {id : NodeId}
    {children : List (Branch α)} {inner : Bool} {l : Ledger α} {e : Element α}
    (he : ((c.branch t inner (.mk id n children)).run l).1 = some e)
    (hscroller : e.own.kind.isGridScroller = true) :
    e.elements = some ((g.template
      ((c.eachBackward t children).run l).1.reverse.reduceOption).2.map GridMetrics.pinned) := by
  unfold branch node at he
  simp only [hkind] at he
  split at he
  · cases he
  · simp only [run_bind, run_map, run_pure, Option.map_some, Option.some.injEq] at he
    subst he
    obtain ⟨hsame, helements⟩ := c.withParameter_same id
      ((c.group t id n (c.label n) (c.branchesBackward t children)).run l).1
    rw [hsame] at hscroller
    rw [helements, elements_group hkind hgrid hscroller, run_branchesBackward]

theorem elements_of_rows (hkind : n.kind = .repeatGrid) (hgrid : n.grid = some g)
    (hrows : 2 ≤ g.rows) (hcolumns : 2 ≤ g.columns) {id : NodeId} {children : List (Branch α)}
    {inner : Bool} {l : Ledger α} {e : Element α}
    (he : ((c.branch t inner (.mk id n children)).run l).1 = some e)
    (hscroller : e.own.kind.isGridScroller = true) :
    e.elements = some [.mk { kind := .group, name := "item0" }
      (some (((backward ((c.eachBackward t children).run l).1).take g.columns).mapIdx
        fun k p => GridMetrics.placed g.columns k p.2))] := by
  rw [elements_branch hkind hgrid he hscroller, GridMetrics.items_of_rows (by omega) (by omega)]

/-- For every scene, context and measurements, every repeated grid of at least two rows and columns
that is compiled to a scroller of its own, and what its cells were compiled to, each in its place:
the scroller holds one item with the last elements that there are, as many as there are columns if
there are so many, renamed and pinned but otherwise as they were compiled. They stem from one row of
the source and are named by their columns exactly when the cells are without gaps. -/
theorem row_by_column_iff (hf : c.scene.IsForest) {id : NodeId} (hn : c.scene.node? id = some n)
    (hkind : n.kind = .repeatGrid) (hgrid : n.grid = some g) (hrows : 2 ≤ g.rows)
    (hcolumns : 2 ≤ g.columns) (t : Target α) (inner : Bool) (l : Ledger α) {b : Branch α}
    {e : Element α} (hb : c.scene.branch? id = some b)
    (he : ((c.branch t inner b).run l).1 = some e) (hscroller : e.own.kind.isGridScroller = true) :
    let cells := ((c.eachBackward t b.children).run l).1
    b.children.map Branch.id = n.children ∧
    List.Forall₂ (fun x e? => ∃ l', e? = ((c.branch t true x).run l').1) b.children cells ∧
    ∃ row, e.elements = some [.mk { kind := .group, name := "item0" } (some row)] ∧
      List.Forall₂ (fun p x => x.elements = p.2.elements ∧
        x.own = { p.2.own with name := x.name, pivot := some .leftTop })
        ((backward cells).take g.columns) row ∧
      (ByColumn g.columns cells row ↔ Gapless g.columns cells) := by
  obtain rfl : b = .mk id n (c.scene.branches n.children) :=
    Option.some.inj (hb.symm.trans (hf.branch?_of_node? hn))
  have hchildren : ∀ m ∈ n.children, m < c.scene.size := fun m hm =>
    hf.lt_size_of_mem_children (by rwa [Scene.children_of_node? hn])
  refine ⟨Scene.map_id_branches_of_lt hchildren, forall₂_eachBackward _ l, _,
    elements_of_rows hkind hgrid hrows hcolumns he hscroller, ?_,
    GridMetrics.byColumn_iff_gapless (by omega) _⟩
  refine forall₂_mapIdx_iff.mpr fun k p _ => ⟨GridMetrics.elements_placed .., ?_⟩
  rw [Element.name, GridMetrics.own_placed]

/-- A repeated grid of two rows and columns that scrolls, with cells of these names. -/
def rowsBoard (a b c d : String) : ElasticScene Float :=
  let cell (name : String) (x y : Float) : Draft Float :=
    { name, kind := .rectangle, bounds := ⟨x, y, 100.0, 100.0⟩ }
  (((((ElasticScene.empty.insert none
    { name := "S", kind := .artboard, bounds := ⟨0.0, 0.0, 400.0, 300.0⟩ }).insert (some 0)
    { name := "ShopScroller", kind := .repeatGrid, bounds := ⟨0.0, 0.0, 220.0, 220.0⟩,
      grid := some ⟨2, 2, 100.0, 100.0, 10.0, 10.0⟩ }).insert (some 1)
    (cell a 0.0 0.0)).insert (some 1) (cell b 110.0 0.0)).insert (some 1)
    (cell c 0.0 110.0)).insert (some 1) (cell d 110.0 110.0)

theorem built_rowsBoard (a b c d : String) : (rowsBoard a b c d).Built := by
  refine (((((ElasticScene.Built.empty.insert none _ ?_).insert (some 0) _ ?_).insert
    (some 1) _ ?_).insert (some 1) _ ?_).insert (some 1) _ ?_).insert (some 1) _ ?_
  all_goals simp [ElasticScene.insert, ElasticScene.empty]

/-- How the compiler begins with such a board. -/
def rowsCompiler (a b c d : String) : Compiler Float :=
  ⟨(rowsBoard a b c d).scene, Export.wholeContext, .empty⟩

/-- Which cells of the board give an element, and how what the scroller shows of them is called. -/
def rowsOf (c : Compiler Float) : Option (List Bool × Bool × List (List String)) :=
  (c.scene.branch? 1).bind fun b =>
    ((c.branch (c.target b) true b).run .empty).1.map fun e =>
      (((c.eachBackward (c.target b) b.children).run .empty).1.map Option.isSome,
        e.own.kind.isGridScroller, e.children.map fun item => item.children.map Element.name)

theorem exists_grid {c : Compiler Float} (h : (c.scene.node? 1).map (fun n =>
      (n.kind, n.grid.map fun g => (g.rows, g.columns))) = some (.repeatGrid, some (2, 2))) :
    ∃ n g, c.scene.node? 1 = some n ∧ n.kind = .repeatGrid ∧ n.grid = some g ∧ g.rows = 2 ∧
      g.columns = 2 := by
  obtain ⟨n, hn, h⟩ := Option.map_eq_some_iff.mp h
  obtain ⟨hkind, h⟩ := Prod.mk.inj h
  obtain ⟨g, hgrid, h⟩ := Option.map_eq_some_iff.mp h
  obtain ⟨hrows, hcolumns⟩ := Prod.mk.inj h
  exact ⟨n, g, hn, hkind, hgrid, hrows, hcolumns⟩

/-- Where only the first cell is hidden, the last row is shown whole. -/
theorem first_cell_hidden :
    let c := rowsCompiler "#a" "b" "c" "d"
    ∃ b e row, c.scene.branch? 1 = some b ∧ ((c.branch (c.target b) true b).run .empty).1 = some e ∧
      e.elements = some [.mk { kind := .group, name := "item0" } (some row)] ∧
      row.map Element.name = ["item0-1", "item0-0"] ∧
      ByColumn 2 ((c.eachBackward (c.target b) b.children).run .empty).1 row := by
  intro c
  have hrows : rowsOf c = some ([false, true, true, true], true, [["item0-1", "item0-0"]]) := by
    decide +kernel
  obtain ⟨b, hb, hrows⟩ := Option.bind_eq_some_iff.mp hrows
  obtain ⟨e, he, hrows⟩ := Option.map_eq_some_iff.mp hrows
  simp only [Prod.mk.injEq] at hrows
  obtain ⟨hshown, hscroller, hnames⟩ := hrows
  obtain ⟨n, g, hn, hkind, hgrid, hgrows, hgcolumns⟩ :=
    exists_grid (c := rowsCompiler "#a" "b" "c" "d") (by decide +kernel)
  obtain ⟨-, -, row, helements, -, hcolumn⟩ := row_by_column_iff (built_rowsBoard ..).isForest hn
    hkind hgrid (by omega) (by omega) (c.target b) true .empty hb he hscroller
  rw [hgcolumns] at hcolumn
  refine ⟨b, e, row, hb, he, helements, ?_, hcolumn.mpr ?_⟩
  · rw [Element.children, helements] at hnames
    exact List.singleton_inj.mp hnames
  · generalize ((c.eachBackward (c.target b) b.children).run .empty).1 = cells at hshown
    intro last hlast hmax q i _ _ hrow
    simp only [shown_iff_isSome, hshown] at hlast hmax ⊢
    have hle := hmax 3 rfl
    have hlt : last < 4 := (List.getElem?_eq_some_iff.mp hlast).1
    obtain rfl | rfl : i = 2 ∨ i = 3 := by omega
    · rfl
    · rfl

/-- Where the first column is hidden, the second one fills the item. -/
theorem first_column_hidden : ¬ ∀ (c : Compiler Float) (id : NodeId) (n : Node Float)
    (g : GridMetrics Float) (b : Branch Float) (t : Target Float) (inner : Bool) (l : Ledger Float)
    (e : Element Float) (row : List (Element Float)), c.scene.IsForest →
    c.scene.node? id = some n → n.kind = .repeatGrid → n.grid = some g → 2 ≤ g.rows →
    2 ≤ g.columns → c.scene.branch? id = some b → ((c.branch t inner b).run l).1 = some e →
    e.own.kind.isGridScroller = true →
    e.elements = some [.mk { kind := .group, name := "item0" } (some row)] →
      ByColumn g.columns ((c.eachBackward t b.children).run l).1 row := by
  intro h
  have hrows : rowsOf (rowsCompiler "#a" "b" "#c" "d") =
      some ([false, true, false, true], true, [["item0-1", "item0-0"]]) := by
    decide +kernel
  obtain ⟨b, hb, hrows⟩ := Option.bind_eq_some_iff.mp hrows
  obtain ⟨e, he, hrows⟩ := Option.map_eq_some_iff.mp hrows
  simp only [Prod.mk.injEq] at hrows
  obtain ⟨hshown, hscroller, -⟩ := hrows
  obtain ⟨n, g, hn, hkind, hgrid, hgrows, hgcolumns⟩ :=
    exists_grid (c := rowsCompiler "#a" "b" "#c" "d") (by decide +kernel)
  have hf := (built_rowsBoard "#a" "b" "#c" "d").isForest
  obtain rfl : b = .mk 1 n _ := Option.some.inj (hb.symm.trans (hf.branch?_of_node? hn))
  have hcolumn := h _ 1 n g _ _ true .empty e _ hf hn hkind hgrid (by omega) (by omega) hb he
    hscroller (elements_of_rows hkind hgrid (by omega) (by omega) he hscroller)
  have hgapless := (GridMetrics.byColumn_iff_gapless (by omega) _).mp hcolumn
  rw [hgcolumns] at hgapless
  -- The second cell is shown, and the third one, in the row of the last, is not.
  generalize ((eachBackward (rowsCompiler _ _ _ _) _ _).run _).1 = cells at hshown hgapless
  simp only [Gapless, shown_iff_isSome, hshown] at hgapless
  have hthird := hgapless 3 rfl (fun i hi => ?_) 1 2 rfl (by omega) rfl
  · cases hthird
  · have hlt : i < 4 := (List.getElem?_eq_some_iff.mp hi).1
    omega

end Compiler
end DesignLayout
