import DesignLayout.Proofs.Cutting
import DesignLayout.Proofs.Pictures

/-! What an export finds wrong with a design.

The compiler goes into nodes, from a root down (`Compiler.Enters`), and each of them is complained
about once or not at all (`Compiler.Complains`): for its kind, for a list without an area to scroll,
or for a scroller with nothing to scroll over. Whether there is an area is read off the elements
that were compiled below the node, and their names are the same whatever the ledger is
(`Compiler.hasArea_below`). A compilation takes down these complaints and no others, and as long as
no scroller is made from a repeated grid, those about areas are the lists without one among its
elements (`Ledger.Told`). For a whole export this is `Export.diagnostics_of_entered`. -/
namespace DesignLayout

variable {α : Type}

/-- The role that decides what becomes of a group: the first of these that is in force. -/
def Options.winningRole? (o : Options) (ds : Directives) : Option Directive :=
  [.image, .button, .slider, .scrollbar, .toggle, .list].find? (o.active ds)

/-- The element of a complaint about a missing area. -/
def Diagnostic.missingArea? : Diagnostic → Option String
  | missingArea element => some element
  | _ => none

namespace Compiler
open Compile Element

section
variable (c : Compiler α)

/-- The compiler goes into the node on its way down from the branch of another one: it passes over
neither of them nor anything between them, and draws nothing as a whole before it is there. -/
inductive Enters : Bool → NodeId → NodeId → Prop
  | here {inner : Bool} {id : NodeId} {n : Node α} (hn : c.scene.node? id = some n)
      (hgoes : c.omits inner (c.label n) = false) : Enters inner id id
  | through {inner : Bool} {id m x : NodeId} {n : Node α} (hn : c.scene.node? id = some n)
      (hgoes : c.omits inner (c.label n) = false) (hopen : drawsWhole n (c.label n) = false)
      (hchild : m ∈ n.children) (hx : Enters true m x) : Enters inner id x

mutual

/-- The branches that the compiler goes into, parents first. -/
def entered (inner : Bool) : Branch α → List (Branch α)
  | .mk id n children =>
    if c.omits inner (c.label n) then []
    else .mk id n children :: if drawsWhole n (c.label n) then [] else enteredAll children

def enteredAll : List (Branch α) → List (Branch α)
  | [] => []
  | b :: rest => entered true b ++ enteredAll rest

end

/-- The complaint about a group below which there is no area. -/
def groupComplaint? (n : Node α) (l : Label) : Option Diagnostic :=
  let o := c.context.options
  match o.winningRole? l.directives with
  | some .list => some (.missingArea l.name)
  | some _ => none
  | none =>
    if o.active l.directives .scroller && !(n.kind == .repeatGrid && n.grid.isSome) then
      some (.scrollerWithoutGrid l.name)
    else none

/-- The complaint about a node, if there is one; `area` says that there is an area below it. -/
def complaint? (n : Node α) (l : Label) (area : Bool) : Option Diagnostic :=
  match n.kind with
  | .other tag => some (.unknownKind l.name tag)
  | _ => if n.kind.isGroup && !area then c.groupComplaint? n l else none

/-- Something that is kept directly below the branch is called an area. -/
def areaBelow (x : Branch α) : Bool :=
  (c.keptAll x.children).any (c.shownName · == areaName)

def diagnosis? (x : Branch α) : Option Diagnostic :=
  c.complaint? x.node (c.label x.node) (c.areaBelow x)

variable [Scalar α]

/-- Nothing that is compiled directly below the branch is called an area. -/
def NoArea (x : Branch α) : Prop :=
  ∀ t l, ∀ e ∈ ((c.branchesBackward t x.children).run l).1, e.name ≠ areaName

/-- What is wrong with a branch that the compiler goes into. -/
inductive Complains (x : Branch α) : Diagnostic → Prop
  | unknownKind {tag : String} (hkind : x.node.kind = .other tag) :
      Complains x (.unknownKind (c.shownName x) tag)
  | missingArea (hkind : x.node.kind.isGroup = true)
      (hrole : c.context.options.winningRole? (c.label x.node).directives = some .list)
      (harea : c.NoArea x) : Complains x (.missingArea (c.shownName x))
  | scrollerWithoutGrid (hkind : x.node.kind.isGroup = true)
      (hrole : c.context.options.winningRole? (c.label x.node).directives = none)
      (hscroller : c.context.options.active (c.label x.node).directives .scroller = true)
      (harea : c.NoArea x) (hgrid : ¬ (x.node.kind = .repeatGrid ∧ x.node.grid.isSome)) :
      Complains x (.scrollerWithoutGrid (c.shownName x))

end

variable {c : Compiler α}

/-! ### The branches that the compiler goes into -/

theorem mem_enteredAll {bs : List (Branch α)} {x : Branch α} :
    x ∈ c.enteredAll bs ↔ ∃ b ∈ bs, x ∈ c.entered true b := by
  induction bs with
  | nil => simp [enteredAll]
  | cons b rest ih => simp [enteredAll, ih]

theorem mem_entered_iff (hf : c.scene.IsForest) (id : NodeId) :
    ∀ inner b x, c.scene.branch? id = some b →
      (x ∈ c.entered inner b ↔ c.scene.branch? x.id = some x ∧ c.Enters inner id x.id) := by
  intro inner b x hb
  induction id, b, hb using hf.induction_branch generalizing inner x with
  | step id n hn hb ih =>
    have hchildren : c.scene.children id = n.children := Scene.children_of_node? hn
    rw [entered]
    constructor
    · intro hx
      split at hx
      · cases hx
      · rename_i hgoes
        rw [Bool.not_eq_true] at hgoes
        rcases List.mem_cons.mp hx with rfl | hx
        · exact ⟨hb, .here hn hgoes⟩
        · split at hx
          · cases hx
          · rename_i hopen
            rw [Bool.not_eq_true] at hopen
            obtain ⟨child, hchild, hx⟩ := mem_enteredAll.mp hx
            obtain ⟨m, hm, hmb⟩ := List.mem_filterMap.mp hchild
            obtain ⟨hxb, henters⟩ := (ih m hm child hmb true x).mp hx
            exact ⟨hxb, .through hn hgoes hopen (hchildren ▸ hm) henters⟩
    · rintro ⟨hxb, henters⟩
      generalize hid : x.id = m at henters hxb
      cases henters with
      | here hn' hgoes =>
        obtain rfl := Option.some.inj (hn.symm.trans hn')
        rw [if_neg (by simp [hgoes]), List.mem_cons]
        exact .inl (Option.some.inj (hxb.symm.trans hb))
      | @through _ _ child _ _ hn' hgoes hopen hchild hx =>
        obtain rfl := Option.some.inj (hn.symm.trans hn')
        rw [if_neg (by simp [hgoes]), if_neg (by simp [hopen]), List.mem_cons]
        rw [← hchildren] at hchild
        obtain ⟨k, hk⟩ := hf.exists_branch (hf.lt_size_of_mem_children hchild)
        refine .inr (mem_enteredAll.mpr ⟨k, List.mem_filterMap.mpr ⟨child, hchild, hk⟩, ?_⟩)
        rw [ih child hchild k hk true x, hid]
        exact ⟨hxb, hx⟩

mutual

theorem entered_sublist (inner : Bool) :
    ∀ b : Branch α, ((c.entered inner b).map Branch.id).Sublist b.preorder
  | .mk id n children => by
    rw [entered, Branch.preorder]
    split
    · exact List.nil_sublist _
    · rw [List.map_cons]
      refine List.Sublist.cons_cons id ?_
      split
      · exact List.nil_sublist _
      · exact enteredAll_sublist children

theorem enteredAll_sublist :
    ∀ bs : List (Branch α), ((c.enteredAll bs).map Branch.id).Sublist (Branch.preorderAll bs)
  | [] => .slnil
  | b :: rest => by
    rw [enteredAll, List.map_append, Branch.preorderAll]
    exact (entered_sublist true b).append (enteredAll_sublist rest)

end

/-! ### The complaints -/

theorem complaint?_of_isGroup {n : Node α} (hkind : n.kind.isGroup = true) (l : Label)
    (area : Bool) : c.complaint? n l area = if area then none else c.groupComplaint? n l := by
  unfold complaint?
  split
  · rename_i hother
    rw [hother] at hkind
    cases hkind
  · rw [hkind]
    cases area <;> rfl

theorem groupComplaint?_of_role {n : Node α} {l : Label} {d : Directive}
    (hrole : c.context.options.winningRole? l.directives = some d) (hd : d ≠ .list) :
    c.groupComplaint? n l = none := by
  unfold groupComplaint?
  dsimp only
  rw [hrole]
  split
  · rename_i hlist
    exact absurd (Option.some.inj hlist) hd
  · rfl
  · rename_i hnone
    cases hnone

section
variable [Scalar α]

/-- Whether there is an area below a branch does not depend on the ledger. -/
theorem hasArea_below (x : Branch α) (t : Target α) (l : Ledger α) :
    hasArea ((c.branchesBackward t x.children).run l).1 = c.areaBelow x := by
  have hshows := (closed_shows c t).yields_branchesBackward x.children l
  rw [Bool.eq_iff_iff, hshows.hasArea_iff, areaBelow, List.any_eq_true]
  simp

theorem noArea_iff {x : Branch α} : c.NoArea x ↔ c.areaBelow x = false := by
  have harea (t : Target α) (l : Ledger α) :
      (∀ e ∈ ((c.branchesBackward t x.children).run l).1, e.name ≠ areaName) ↔
        c.areaBelow x = false := by
    rw [← hasArea_below x t l]
    simp [hasArea]
  exact ⟨fun h => (harea ⟨x.node, ""⟩ .empty).mp (h _ _), fun h t l => (harea t l).mpr h⟩

theorem Complains.of_groupComplaint? {x : Branch α} {d : Diagnostic}
    (hkind : x.node.kind.isGroup = true) (harea : c.NoArea x)
    (h : c.groupComplaint? x.node (c.label x.node) = some d) : c.Complains x d := by
  unfold groupComplaint? at h
  dsimp only at h
  split at h
  · rename_i hrole
    obtain rfl := Option.some.inj h
    exact .missingArea hkind hrole harea
  · cases h
  · rename_i hrole
    split at h
    · rename_i hscrolls
      obtain rfl := Option.some.inj h
      rw [Bool.and_eq_true, Bool.not_eq_true', Bool.and_eq_false_iff] at hscrolls
      refine .scrollerWithoutGrid hkind hrole hscrolls.1 harea fun hgrid => ?_
      simp [hgrid] at hscrolls
    · cases h

theorem Complains.diagnosis?_eq {x : Branch α} {d : Diagnostic} (h : c.Complains x d) :
    c.diagnosis? x = some d := by
  cases h with
  | unknownKind hkind =>
    rw [diagnosis?, complaint?, hkind]
    rfl
  | missingArea hkind hrole harea =>
    rw [diagnosis?, complaint?_of_isGroup hkind, noArea_iff.mp harea, groupComplaint?, hrole]
    rfl
  | scrollerWithoutGrid hkind hrole hscroller harea hgrid =>
    have hopen : (x.node.kind == .repeatGrid && x.node.grid.isSome) = false := by simpa using hgrid
    rw [diagnosis?, complaint?_of_isGroup hkind, noArea_iff.mp harea, groupComplaint?, hrole]
    simp [hscroller, hopen, shownName]

theorem diagnosis?_eq_some_iff {x : Branch α} {d : Diagnostic} :
    c.diagnosis? x = some d ↔ c.Complains x d := by
  refine ⟨fun h => ?_, Complains.diagnosis?_eq⟩
  unfold diagnosis? complaint? at h
  split at h
  · rename_i hkind
    obtain rfl := Option.some.inj h
    exact .unknownKind hkind
  · split at h
    · rename_i hgroup
      rw [Bool.and_eq_true, Bool.not_eq_true', ← noArea_iff] at hgroup
      exact .of_groupComplaint? hgroup.1 hgroup.2 h
    · cases h

end

end Compiler

/-! ### Lists without an area -/

namespace Element

/-- A list without an area directly within it. -/
def isBareList (e : Element α) : Bool :=
  match e.own.kind with
  | .list _ => (e.child? areaName).isNone
  | _ => false

/-- The names of the lists without an area, among the elements and all elements within them. -/
def bareLists (es : List (Element α)) : List String :=
  ((preorderAll es).filter isBareList).map name

@[simp] theorem bareLists_nil : bareLists ([] : List (Element α)) = [] := rfl

theorem bareLists_append (es es' : List (Element α)) :
    bareLists (es ++ es') = bareLists es ++ bareLists es' := by
  simp only [bareLists, preorderAll_eq, List.flatMap_append, List.filter_append, List.map_append]

theorem bareLists_mk (own : Attributes α) (elements : Option (List (Element α))) :
    bareLists [.mk own elements] = (if isBareList (.mk own elements) then [own.name] else []) ++
      bareLists (elements.getD []) := by
  rw [bareLists, bareLists, preorderAll_eq, preorderAll_eq, List.flatMap_singleton, preorder_eq,
    List.filter_cons]
  split <;> rfl

theorem child?_isNone (own : Attributes α) (es : List (Element α)) :
    ((Element.mk own (some es)).child? areaName).isNone = !Compiler.hasArea es := by
  rw [Compiler.hasArea, ← List.isSome_find?, Option.not_isSome]
  rfl

theorem bareLists_setOwn {f : Attributes α → Attributes α} {e : Element α}
    (hkind : (f e.own).kind = e.own.kind) (hname : (f e.own).name = e.own.name) :
    bareLists [e.setOwn f] = bareLists [e] := by
  obtain ⟨own, elements⟩ := e
  have hbare : isBareList (.mk (f own) elements) = isBareList (.mk own elements) := by
    rw [isBareList, isBareList, own_mk, own_mk, show (f own).kind = own.kind from hkind]
    rfl
  rw [setOwn, bareLists_mk, bareLists_mk, hbare, show (f own).name = own.name from hname]

end Element

/-! ### What a compilation takes down -/

/-- From `l` to `l'` these diagnostics were taken down, in some order. Those about areas are the
lists without one among the elements, unless one of these is the scroller of a repeated grid. -/
structure Ledger.Told (ds : List Diagnostic) (es : List (Element α)) (l l' : Ledger α) : Prop where
  taken : l'.diagnostics.Perm (l.diagnostics ++ ds)
  bare : (∀ k ∈ Element.kindsAll es, k.isGridScroller = false) →
    (ds.filterMap Diagnostic.missingArea?).Perm (Element.bareLists es)

namespace Ledger.Told
open Element

variable {ds ds' : List Diagnostic} {es es' : List (Element α)} {own : Attributes α}
  {l l' l'' : Ledger α}

theorem nil (l : Ledger α) : Told [] [] l l where
  taken := by rw [List.append_nil]
  bare _ := .nil

theorem perm (h : Told ds es l l') (hperm : ds.Perm ds') : Told ds' es l l' where
  taken := h.taken.trans (hperm.append_left _)
  bare hplain := (hperm.symm.filterMap _).trans (h.bare hplain)

theorem trans (h : Told ds es l l') (h' : Told ds' es' l' l'') :
    Told (ds ++ ds') (es ++ es') l l'' where
  taken := by
    rw [← List.append_assoc]
    exact h'.taken.trans (h.taken.append_right _)
  bare hplain := by
    rw [kindsAll_append] at hplain
    rw [List.filterMap_append, bareLists_append]
    exact (h.bare fun k hk => hplain k (List.mem_append_left _ hk)).append
      (h'.bare fun k hk => hplain k (List.mem_append_right _ hk))

theorem taken_report (h : Told ds es l l') (d : Diagnostic) :
    ((Compile.report d).run l').2.diagnostics.Perm (l.diagnostics ++ d :: ds) := by
  refine (h.taken.append_right [d]).trans ?_
  rw [List.append_assoc]
  exact List.perm_append_comm.append_left _

theorem bare_of_mk (h : Told ds es l l')
    (hplain : ∀ k ∈ kindsAll [.mk own (some es)], k.isGridScroller = false) :
    (ds.filterMap Diagnostic.missingArea?).Perm (bareLists es) := by
  rw [kindsAll_cons, kinds_mk, kindsAll_nil, List.append_nil] at hplain
  exact h.bare fun k hk => hplain k (List.mem_cons_of_mem _ hk)

/-- A report that is not about an area. -/
theorem report (h : Told ds es l l') {d : Diagnostic} (hd : d.missingArea? = none) :
    Told (d :: ds) es l ((Compile.report d).run l').2 where
  taken := h.taken_report d
  bare hplain := by
    rw [List.filterMap_cons_none hd]
    exact h.bare hplain

theorem leaf (hown : isBareList (.mk own none) = false) : Told [] [.mk own none] l l where
  taken := (nil l : Told [] [] l l).taken
  bare _ := by
    rw [bareLists_mk, hown]
    exact .nil

/-- An element that is no list, or a list with an area, holds the elements. -/
theorem within (h : Told ds es l l') (hown : isBareList (.mk own (some es)) = false) :
    Told ds [.mk own (some es)] l l' where
  taken := h.taken
  bare hplain := by
    rw [bareLists_mk, hown]
    exact h.bare_of_mk hplain

/-- A list that is reported holds the elements. -/
theorem list (h : Told ds es l l') (hown : isBareList (.mk own (some es)) = true) :
    Told (.missingArea own.name :: ds) [.mk own (some es)] l
      ((Compile.report (.missingArea own.name)).run l').2 where
  taken := h.taken_report _
  bare hplain := by
    rw [bareLists_mk, hown]
    exact (h.bare_of_mk hplain).cons own.name

/-- The scroller of a repeated grid, whatever it holds. -/
theorem grid (h : Told ds es l l') (hown : own.kind.isGridScroller = true) :
    Told ds [.mk own (some es')] l l' where
  taken := h.taken
  bare hplain := by
    have hkind := hplain own.kind (by rw [kindsAll_cons, kinds_mk]; exact List.mem_cons_self)
    rw [hown] at hkind
    cases hkind

end Ledger.Told

/-- What a computation takes down goes with the elements in its result. -/
def Compile.Tells {β : Type} (ds : List Diagnostic) (elements : β → List (Element α))
    (x : Compile α β) : Prop :=
  ∀ l, Ledger.Told ds (elements (x.run l).1) l (x.run l).2

namespace Compiler
open Compile Element

section
variable {o : Options} {directives : Directives}

theorem winningRole?_eq_list {scroll : ScrollDirection}
    (himage : o.active directives .image = false)
    (h : (containerKind? o directives : Option (ElementKind α)) = some (.list scroll)) :
    o.winningRole? directives = some .list := by
  unfold containerKind? at h
  unfold Options.winningRole?
  split_ifs at h <;> simp_all

theorem exists_winningRole? {kind : ElementKind α} (himage : o.active directives .image = false)
    (h : containerKind? o directives = some kind) (hlist : ∀ scroll, kind ≠ .list scroll) :
    ∃ d, d ≠ .list ∧ o.winningRole? directives = some d := by
  unfold containerKind? at h
  unfold Options.winningRole?
  split_ifs at h
  iterate 4
    · simp_all
  · exact absurd (Option.some.inj h).symm (hlist _)

theorem winningRole?_eq_none (himage : o.active directives .image = false)
    (h : (containerKind? o directives : Option (ElementKind α)) = none) :
    o.winningRole? directives = none := by
  unfold containerKind? at h
  unfold Options.winningRole?
  split_ifs at h
  simp_all

end

/-! ### Compiling a node -/

variable [Scalar α] {c : Compiler α} {t : Target α} {n : Node α}
  {below : Compile α (List (Element α))} {ds : List Diagnostic} {area : Bool}

theorem tells_picture (id : NodeId) (n : Node α) (name : String) :
    (c.picture t id n name).Tells [] fun e => [e] := by
  intro l
  have h : Ledger.Told [] [((c.picture t id n name).run l).1] l l := .leaf rfl
  exact ⟨h.taken, h.bare⟩

theorem tells_container {kind : ElementKind α} (hbelow : below.Tells ds id)
    (hkind : ∀ scroll, kind ≠ .list scroll) (name : String) :
    (c.container kind n name below).Tells ds fun e => [e] := by
  intro l
  refine (hbelow l).within ?_
  unfold isBareList
  split
  · rename_i scroll hlist
    exact absurd hlist (hkind scroll)
  · rfl

theorem tells_list (hbelow : below.Tells ds id) (harea : ∀ l, hasArea (below.run l).1 = area)
    (scroll : ScrollDirection) (name : String) :
    Compile.Tells (if area then ds else .missingArea name :: ds) (fun e => [e]) (do
      let e ← c.container (.list scroll) n name below
      if (e.child? areaName).isNone then Compile.report (.missingArea name)
      return e) := by
  intro l
  have hbare : isBareList ((c.container (.list scroll) n name below).run l).1 = !area := by
    rw [← harea l]
    exact child?_isNone ..
  have hnone : (((c.container (.list scroll) n name below).run l).1.child? areaName).isNone =
      !area := hbare
  simp only [run_bind, hnone]
  cases area with
  | true => exact (hbelow l).within hbare
  | false => exact (hbelow l).list hbare

/-- A scroller is reported that has neither an area nor a grid with metrics. -/
theorem tells_scroller (hbelow : below.Tells ds id)
    (harea : ∀ l, hasArea (below.run l).1 = area) (name : String) :
    (c.scroller t n name below).Tells
      (if area || (n.kind == .repeatGrid && n.grid.isSome) then ds
        else .scrollerWithoutGrid name :: ds) fun e => [e] := by
  intro l
  simp only [scroller, run_bind, harea l]
  cases area with
  | true => exact (hbelow l).within rfl
  | false =>
    rw [Bool.false_or, if_neg Bool.false_ne_true]
    cases hgrid : n.kind == .repeatGrid && n.grid.isSome with
    | true =>
      rw [Bool.and_eq_true, beq_iff_eq, Option.isSome_iff_exists] at hgrid
      obtain ⟨hkind, grid, hgrid⟩ := hgrid
      simp only [hkind, hgrid]
      exact (hbelow l).grid rfl
    | false =>
      rw [if_neg Bool.false_ne_true]
      split
      · rename_i hkind hsome
        simp [hkind, hsome] at hgrid
      · exact ((hbelow l).within rfl).report rfl

theorem tells_group (hbelow : below.Tells ds id) (harea : ∀ l, hasArea (below.run l).1 = area)
    (hkind : n.kind.isGroup = true) (m : NodeId) (label : Label) :
    (c.group t m n label below).Tells ((c.complaint? n label area).toList ++
      if label.directives.has .image then [] else ds) fun e => [e] := by
  have hactive : label.directives.has .image =
      c.context.options.active label.directives .image := rfl
  rw [complaint?_of_isGroup hkind, hactive]
  unfold group
  dsimp only
  cases himage : c.context.options.active label.directives .image with
  | true =>
    have hrole : c.context.options.winningRole? label.directives = some .image :=
      List.find?_cons_of_pos himage
    rw [groupComplaint?_of_role hrole (by decide), ite_self, if_pos rfl, if_pos rfl]
    exact tells_picture m n label.name
  | false =>
    rw [if_neg Bool.false_ne_true, if_neg Bool.false_ne_true]
    generalize htold : (if area then none else c.groupComplaint? n label).toList ++ ds = told
    split
    · rename_i scroll hcontainer
      rw [groupComplaint?, winningRole?_eq_list himage hcontainer] at htold
      have h := tells_list (c := c) (n := n) hbelow harea scroll label.name
      subst htold
      cases area <;> exact h
    · rename_i kind hlist hcontainer
      obtain ⟨d, hd, hrole⟩ := exists_winningRole? himage hcontainer hlist
      rw [groupComplaint?_of_role hrole hd, ite_self] at htold
      subst htold
      exact tells_container hbelow hlist label.name
    · rename_i hcontainer
      rw [groupComplaint?, winningRole?_eq_none himage hcontainer] at htold
      dsimp only at htold
      subst htold
      cases hscroller : c.context.options.active label.directives .scroller with
      | true =>
        have h := tells_scroller (c := c) (t := t) (n := n) hbelow harea label.name
        rw [if_pos rfl, Bool.true_and]
        cases area <;> cases hgrid : n.kind == .repeatGrid && n.grid.isSome <;> rw [hgrid] at h <;>
          exact h
      | false =>
        have h : (c.container .group n label.name below).Tells ds fun e => [e] :=
          tells_container hbelow (fun _ hlist => by cases hlist) label.name
        cases area <;> exact h

theorem tells_text (m : NodeId) (n : Node α) (label : Label) :
    (c.text t m n label).Tells [] fun e => [e] := by
  unfold text
  split
  · exact tells_picture m n label.name
  · dsimp only
    intro l
    refine .leaf ?_
    unfold isBareList
    simp only [own_mk, framed]
    split_ifs <;> rfl

theorem tells_shape (hbelow : below.Tells ds id) (m : NodeId) (n : Node α) (name : String) :
    Compile.Tells ds Option.toList (do
      let picture ← c.picture t m n name
      let elements ← below
      return some (if elements.isEmpty then picture else .mk picture.own (some elements))) := by
  intro l
  have h := (tells_picture (c := c) m n name l).trans
    (hbelow ((c.picture t m n name).run l).2)
  simp only [run_bind, run_pure, Option.toList_some]
  split
  · rename_i hnone
    rw [List.isEmpty_iff] at hnone
    simpa [hnone] using h
  · have hown : isBareList (.mk ((c.picture t m n name).run l).1.own
        (some (below.run ((c.picture t m n name).run l).2).1)) = false := rfl
    have h := (hbelow ((c.picture t m n name).run l).2).within hown
    exact ⟨h.taken, h.bare⟩

omit [Scalar α] in
theorem complaint?_eq_none (hgroup : n.kind.isGroup = false) (hknown : n.kind.isUnknown = false)
    (l : Label) (area : Bool) : c.complaint? n l area = none := by
  unfold complaint?
  split
  · rename_i hkind
    rw [hkind] at hknown
    cases hknown
  · rw [hgroup]
    rfl

theorem tells_node (hbelow : below.Tells ds id) (harea : ∀ l, hasArea (below.run l).1 = area)
    (m : NodeId) (label : Label) :
    (c.node t m n label below).Tells ((c.complaint? n label area).toList ++
      if drawsWhole n label then [] else ds) Option.toList := by
  generalize htold : ((c.complaint? n label area).toList ++ if drawsWhole n label then [] else ds) =
    told
  unfold node
  split <;> rename_i hkind <;> simp only [drawsWhole, hkind] at htold
  · rw [complaint?_eq_none (by rw [hkind]; rfl) (by rw [hkind]; rfl)] at htold
    subst htold
    exact fun l => (hbelow l).within rfl
  · rw [complaint?_eq_none (by rw [hkind]; rfl) (by rw [hkind]; rfl)] at htold
    subst htold
    exact tells_picture m n label.name
  iterate 3
    · subst htold
      exact tells_group hbelow harea (by rw [hkind]; rfl) m label
  iterate 4
    · rw [complaint?_eq_none (by rw [hkind]; rfl) (by rw [hkind]; rfl)] at htold
      subst htold
      exact tells_shape hbelow m n label.name
  · rw [complaint?_eq_none (by rw [hkind]; rfl) (by rw [hkind]; rfl)] at htold
    subst htold
    exact tells_text m n label
  · -- A node of an unknown kind is reported before what stands below it.
    rename_i tag
    have hunknown : c.complaint? n label area = some (.unknownKind label.name tag) := by
      rw [complaint?, hkind]
    rw [hunknown, if_neg Bool.false_ne_true] at htold
    subst htold
    intro l
    have h := ((Ledger.Told.nil l).report (d := .unknownKind label.name tag) rfl).trans
      (hbelow ((report (.unknownKind label.name tag)).run l).2)
    simp only [run_bind, run_pure]
    split
    · rename_i hnone
      rw [List.isEmpty_iff] at hnone
      rw [hnone] at h
      exact h
    · refine h.within ?_
      rfl

/-! ### Branches and roots -/

theorem filterMap_cons_eq {β γ : Type} (f : β → Option γ) (b : β) (rest : List β) :
    (b :: rest).filterMap f = (f b).toList ++ rest.filterMap f := by
  cases h : f b with
  | none => exact List.filterMap_cons_none h
  | some d => exact List.filterMap_cons_some h

omit [Scalar α] in
theorem told_withParameter {e? : Option (Element α)} {l l' : Ledger α}
    (h : Ledger.Told ds e?.toList l l') (id : NodeId) :
    Ledger.Told ds (e?.map (c.withParameter id)).toList l l' := by
  cases e? with
  | none => exact h
  | some e =>
    have hkinds : kindsAll [c.withParameter id e] = kindsAll [e] := by
      rw [kindsAll_cons, kindsAll_cons, kinds_withParameter]
    have hbare : bareLists [c.withParameter id e] = bareLists [e] := by
      rcases c.withParameter_eq id e with heq | ⟨p, -, heq⟩ <;> rw [heq]
      exact bareLists_setOwn rfl rfl
    refine ⟨h.taken, fun hplain => ?_⟩
    rw [Option.map_some, Option.toList_some, hkinds] at hplain
    rw [Option.map_some, Option.toList_some, hbare]
    exact h.bare hplain

mutual

/-- A branch tells about every branch that the compiler goes into, each once. -/
theorem tells_branch (c : Compiler α) (t : Target α) (inner : Bool) :
    ∀ b, (c.branch t inner b).Tells ((c.entered inner b).filterMap c.diagnosis?) Option.toList
  | .mk id n children => by
    have h := tells_node (c := c) (t := t) (n := n) (tells_branchesBackward c t children)
      (hasArea_below (.mk id n children) t) id (c.label n)
    rw [branch, entered]
    cases homits : c.omits inner (c.label n) with
    | true => exact fun l => .nil l
    | false =>
      rw [if_neg Bool.false_ne_true, filterMap_cons_eq, apply_ite (List.filterMap c.diagnosis?)]
      exact fun l => told_withParameter (h l) id

theorem tells_branchesBackward (c : Compiler α) (t : Target α) :
    ∀ bs, (c.branchesBackward t bs).Tells ((c.enteredAll bs).filterMap c.diagnosis?) id
  | [] => fun l => .nil l
  | b :: rest => by
    intro l
    have h := (tells_branchesBackward c t rest l).trans
      (tells_branch c t true b ((c.branchesBackward t rest).run l).2)
    rw [branchesBackward, enteredAll, List.filterMap_append]
    exact h.perm List.perm_append_comm

end

theorem tells_root (c : Compiler α) (b : Branch α) :
    (c.root b).Tells ((c.entered false b).filterMap c.diagnosis?) fun r => [r.document.root] := by
  intro l
  have h := tells_branch c ⟨b.node, Text.folderName (c.label b.node).name⟩ false b l
  unfold root
  simp only [run_bind, run_pure]
  rw [Document.root_ofRoot]
  generalize (c.branch _ false b).run l = p at h ⊢
  obtain ⟨_ | e, l'⟩ := p
  · exact Ledger.Told.within h rfl
  · exact h

theorem told_roots (c : Compiler α) (bs : List (Branch α)) (l : Ledger α) :
    Ledger.Told (bs.flatMap fun b => (c.entered false b).filterMap c.diagnosis?)
      (((c.roots bs).run l).1.map (·.document.root)) l ((c.roots bs).run l).2 := by
  induction bs generalizing l with
  | nil => exact .nil l
  | cons b rest ih => exact (tells_root c b l).trans (ih _)

/-- The branches that the compiler goes into on its way down from a root. -/
def visits (c : Compiler α) (root : NodeId) : List (Branch α) :=
  (c.scene.branch? root).toList.flatMap (c.entered false)

omit [Scalar α] in
theorem mem_visits_iff (hf : c.scene.IsForest) {root : NodeId} {x : Branch α} :
    x ∈ c.visits root ↔ c.scene.branch? x.id = some x ∧ c.Enters false root x.id := by
  cases hb : c.scene.branch? root with
  | some b =>
    rw [visits, hb, Option.toList_some, List.flatMap_singleton]
    exact mem_entered_iff hf root false b x hb
  | none =>
    have hnone (n : Node α) : c.scene.node? root ≠ some n := fun hn => by
      rw [hf.branch?_of_node? hn] at hb
      cases hb
    rw [visits, hb]
    refine iff_of_false List.not_mem_nil fun hx => ?_
    cases hx.2 with
    | here hn => exact hnone _ hn
    | through hn => exact hnone _ hn

omit [Scalar α] in
theorem nodup_visits (hf : c.scene.IsForest) (root : NodeId) :
    ((c.visits root).map Branch.id).Nodup := by
  cases hb : c.scene.branch? root with
  | some b =>
    rw [visits, hb, Option.toList_some, List.flatMap_singleton]
    exact (entered_sublist false b).nodup (hf.nodup_preorder root b hb)
  | none =>
    rw [visits, hb]
    exact List.nodup_nil

omit [Scalar α] in
theorem flatMap_branches (ids : List NodeId) :
    ((c.scene.branches ids).flatMap fun b => (c.entered false b).filterMap c.diagnosis?) =
      (ids.flatMap c.visits).filterMap c.diagnosis? := by
  induction ids with
  | nil => rfl
  | cons id rest ih =>
    rw [List.flatMap_cons, List.filterMap_append, ← ih, visits, Scene.branches, filterMap_cons_eq,
      List.flatMap_append]
    cases c.scene.branch? id with
    | none => rfl
    | some b =>
      rw [Option.toList_some, List.flatMap_singleton, List.flatMap_singleton]
      rfl

end Compiler

/-! ### A whole export -/

namespace Export
variable [Scalar α] {t t' : ElasticScene α} {context : Context α} {e : Export α}

/-- For every document that is built, selection and context for which an export succeeds: from each
root the compiler goes into a node once at most; the diagnostics are the complaints about these
nodes, one or none about a node for each root from which the compiler goes into it; and without
scrollers of repeated grids those about areas are the lists without one, one for one. -/
theorem diagnostics_of_entered (hbuilt : t.Built) {selection : List NodeId}
    (h : ofSelection t selection context = .ok (t', e)) :
    let c : Compiler α := ⟨t'.scene, context, e.measurements⟩
    ∃ (visits : NodeId → List (Branch α)) (diagnosis? : Branch α → Option Diagnostic),
      (∀ root, ((visits root).map Branch.id).Nodup ∧ ∀ x, x ∈ visits root ↔
        c.scene.branch? x.id = some x ∧ c.Enters false root x.id) ∧
      (∀ x d, diagnosis? x = some d ↔ c.Complains x d) ∧
      e.diagnostics.Perm ((e.roots.flatMap fun r => visits r.node).filterMap diagnosis?) ∧
      (e.HasNoGridScroller → (e.diagnostics.filterMap Diagnostic.missingArea?).Perm
        (Element.bareLists (e.roots.map (·.document.root)))) := by
  intro c
  obtain ⟨found, -, hrelaid, hnodes, he⟩ := nodes_of_ofSelection hbuilt h
  have hf : c.scene.IsForest := hrelaid.sameLinks.isForest hbuilt.isForest
  have htold : Ledger.Told ((c.scene.branches found.ids).flatMap fun b =>
      (c.entered false b).filterMap c.diagnosis?) (e.roots.map (·.document.root)) Ledger.empty
      ⟨e.manifest, e.diagnostics⟩ := by
    rw [he]
    exact Compiler.told_roots c _ _
  rw [Compiler.flatMap_branches, ← hnodes, List.flatMap_map] at htold
  refine ⟨c.visits, c.diagnosis?, fun root => ⟨Compiler.nodup_visits hf root, fun x =>
    Compiler.mem_visits_iff hf⟩, fun x d => Compiler.diagnosis?_eq_some_iff, htold.taken,
    fun hplain => ?_⟩
  refine (htold.taken.filterMap _).trans (htold.bare fun k hk => ?_)
  rw [Element.kindsAll_eq, List.flatMap_map] at hk
  obtain ⟨r, hr, hk⟩ := List.mem_flatMap.mp hk
  exact hplain r hr k hk

/-- A board with a list with an area and one without, a scroller without a grid, a layer of a kind
that is not known, and another list without an area in a note that is commented out. -/
def faultyBoard : ElasticScene Float :=
  let box (name : String) (kind : Kind) : Draft Float :=
    { name, kind, bounds := ⟨0.0, 0.0, 10.0, 10.0⟩ }
  (((((((((ElasticScene.empty.insert none (box "S" .artboard)).insert (some 0)
    (box "fullList" .group)).insert (some 1) (box "Area" .rectangle)).insert (some 0)
    (box "bareList" .group)).insert (some 3) (box "row" .rectangle)).insert (some 0)
    (box "pageScroller" .group)).insert (some 0) (box "odd" (.other "Widget"))).insert (some 0)
    (box "#note" .group)).insert (some 7) (box "hiddenList" .group))

theorem built_faultyBoard : faultyBoard.Built :=
  ((((((((ElasticScene.Built.empty.insert none _ (by simp)).insert (some 0) _ (by decide)).insert
    (some 1) _ (by decide)).insert (some 0) _ (by decide)).insert (some 3) _ (by decide)).insert
    (some 0) _ (by decide)).insert (some 0) _ (by decide)).insert (some 0) _ (by decide)).insert
    (some 7) _ (by decide)

theorem faultyBoard_diagnosed :
    ∃ t' e, ofSelection faultyBoard [] wholeContext = .ok (t', e) ∧
      e.diagnostics = [.unknownKind "odd" "Widget", .scrollerWithoutGrid "pageScroller",
        .missingArea "bareList"] ∧
      Element.bareLists (e.roots.map (·.document.root)) = ["bareList"] ∧
      ∀ d ∈ e.diagnostics, ∃ r ∈ e.roots, ∃ x,
        Compiler.Enters ⟨t'.scene, wholeContext, e.measurements⟩ false r.node (Branch.id x) ∧
        Compiler.Complains ⟨t'.scene, wholeContext, e.measurements⟩ x d := by
  have hexport : ((ofSelection faultyBoard [] wholeContext).toOption.map fun p =>
      (p.2.diagnostics, p.2.roots.all fun r => r.document.root.kinds.all (!·.isGridScroller))) =
      some ([.unknownKind "odd" "Widget", .scrollerWithoutGrid "pageScroller",
        .missingArea "bareList"], true) := by
    decide +kernel
  obtain ⟨⟨t', e⟩, hok, hresult⟩ := eq_ok_of_map_toOption hexport
  obtain ⟨hdiagnostics, hplain⟩ := Prod.mk.inj hresult
  obtain ⟨visits, diagnosis?, hvisits, hdiagnosis, hperm, hbare⟩ :=
    diagnostics_of_entered built_faultyBoard hok
  refine ⟨t', e, hok, hdiagnostics, ?_, fun d hd => ?_⟩
  · have hlists := hbare fun r hr k hk =>
      (Bool.not_eq_true' _).mp (List.all_eq_true.mp (List.all_eq_true.mp hplain r hr) k hk)
    rw [show e.diagnostics = _ from hdiagnostics] at hlists
    exact (List.singleton_perm.mp hlists).symm
  · obtain ⟨x, hx, hd⟩ := List.mem_filterMap.mp (hperm.subset hd)
    obtain ⟨r, hr, hx⟩ := List.mem_flatMap.mp hx
    exact ⟨r, hr, x, (((hvisits r.node).2 x).mp hx).2, (hdiagnosis x d).mp hd⟩

end Export
end DesignLayout
