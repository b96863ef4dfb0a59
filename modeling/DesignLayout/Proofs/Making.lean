import DesignLayout.Proofs.Keeping
import DesignLayout.Proofs.LikeExports

/-! What the compiler makes of a node.

The element of a node has one of a few forms, by the kind and the directives of the node and by the
elements that were compiled below it; `Made` lists them, and `made_node` says that there are no
others. What holds of a branch as soon as its node is passed over, or its element is made of
elements of which it holds, holds of every branch (`Closed.yields_branch`). The ledger decides only
how pictures are called: everything here is said of whatever ledger there is. -/
namespace DesignLayout

variable {α : Type}

/-- The kinds of groups, whose directives say what becomes of them. -/
def Kind.isGroup : Kind → Bool
  | group | repeatGrid | symbolInstance => true
  | _ => false

def Kind.isShape : Kind → Bool
  | rectangle | ellipse | line | path => true
  | _ => false

def Kind.isUnknown : Kind → Bool
  | other _ => true
  | _ => false

/-- Pictures and texts. -/
def ElementKind.isDrawn : ElementKind α → Bool
  | image _ | text _ | richText _ | input _ => true
  | _ => false

/-- The containers that a group can become. -/
def ElementKind.isBox : ElementKind α → Bool
  | group | button | slider | scrollbar | toggle | list .vertical => true
  | _ => false

/-- Whatever the ledger is, the result of the computation is such. -/
def Compile.Yields {β : Type} (P : β → Prop) (x : Compile α β) : Prop :=
  ∀ l, P (x.run l).1

namespace Compiler
open Compile

variable [Scalar α]

section

variable (c : Compiler α) (t : Target α)

omit [Scalar α] in
/-- The node is drawn as a whole, be it as a picture or as text, whatever stands below it. -/
def drawsWhole (n : Node α) (l : Label) : Bool :=
  match n.kind with
  | .booleanGroup | .text => true
  | .group | .repeatGrid | .symbolInstance => l.directives.has .image
  | _ => false

/-- The element of a node, if it has one, with the elements `es` compiled below the node. -/
inductive Made (n : Node α) (l : Label) (es : List (Element α)) : Option (Element α) → Prop
  | board (hkind : n.kind = .artboard) :
      Made n l es (some (.mk { kind := .root true, name := l.name } (some es)))
  | whole (hwhole : drawsWhole n l = true) {kind : ElementKind α} (hdrawn : kind.isDrawn = true) :
      Made n l es (some (.mk (framed kind l.name (c.frame t n)) none))
  | shape (hkind : n.kind.isShape = true) (file : String) :
      Made n l es (some (.mk (framed (.image file) l.name (c.frame t n))
        (if es.isEmpty then none else some es)))
  | box (hkind : n.kind.isGroup = true) (hwhole : drawsWhole n l = false) {kind : ElementKind α}
      (hbox : kind.isBox = true) (w h : α) :
      Made n l es (some (.mk (sized kind l.name w h) (some es)))
  | viewport (hkind : n.kind.isGroup = true) (hwhole : drawsWhole n l = false)
      (harea : hasArea es = true) :
      Made n l es (some (.mk (framed (.scroller { scroll := .vertical }) l.name (c.frame t n))
        (some es)))
  | overGrid (hkind : n.kind = .repeatGrid) {grid : GridMetrics α} (hgrid : n.grid = some grid)
      (hwhole : drawsWhole n l = false) (hscrolls : c.context.options.Scrolls l.directives)
      (harea : hasArea es = false) (offset : α × α) (width : α) :
      Made n l es (some (.mk
        (framed (.scroller (grid.scroller offset width c.context.scale es).1) l.name (c.frame t n))
        (some (grid.scroller offset width c.context.scale es).2)))
  | unknown (hkind : n.kind.isUnknown = true) :
      Made n l es (if es.isEmpty then none
        else some (.mk { kind := .group, name := l.name } (some es)))

end

variable {c : Compiler α} {t : Target α} {n : Node α} {l : Label}
  {below : Compile α (List (Element α))} {P : List (Element α) → Prop}

omit [Scalar α] in
theorem isBox_containerKind? {o : Options} {ds : Directives} {kind : ElementKind α}
    (h : containerKind? o ds = some kind) : kind.isBox = true := by
  unfold containerKind? at h
  split_ifs at h <;> cases h <;> rfl

theorem made_picture (hwhole : drawsWhole n l = true) (id : NodeId) (es : List (Element α)) :
    (c.picture t id n l.name).Yields fun e => c.Made t n l es (some e) :=
  fun _ => .whole hwhole rfl

theorem made_scroller (hbelow : below.Yields P) (hkind : n.kind.isGroup = true)
    (hwhole : drawsWhole n l = false) (hscrolls : c.context.options.Scrolls l.directives) :
    (c.scroller t n l.name below).Yields fun e => ∃ es, P es ∧ c.Made t n l es (some e) := by
  intro ledger
  refine ⟨_, hbelow ledger, ?_⟩
  simp only [scroller, run_bind]
  split
  · rename_i harea
    exact .viewport hkind hwhole harea
  · rename_i harea
    split
    · rename_i hgridKind hgrid
      exact .overGrid hgridKind hgrid hwhole hscrolls (by simpa using harea) _ _
    · exact .box hkind hwhole rfl _ _

theorem made_group (hbelow : below.Yields P) (hkind : n.kind.isGroup = true) (id : NodeId)
    (hwholeImage : drawsWhole n l = l.directives.has .image) :
    (c.group t id n l below).Yields fun e => ∃ es, P es ∧ c.Made t n l es (some e) := by
  have hactive : c.context.options.active l.directives .image = l.directives.has .image := rfl
  unfold group
  dsimp only
  rw [hactive, ← hwholeImage]
  split
  · rename_i himage
    exact fun ledger => ⟨_, hbelow ledger, made_picture himage id _ ledger⟩
  · rename_i himage
    have hwhole : drawsWhole n l = false := by simpa using himage
    split
    · -- A list is a container that may be reported.
      intro ledger
      refine ⟨_, hbelow ledger, ?_⟩
      simp only [run_bind]
      split <;> exact .box hkind hwhole (isBox_containerKind? ‹_›) _ _
    · exact fun ledger => ⟨_, hbelow ledger, .box hkind hwhole (isBox_containerKind? ‹_›) _ _⟩
    · rename_i hrole
      split
      · rename_i hscroller
        have hscrolls := scrolls_of_containerKind? (by rwa [hactive, ← hwholeImage]) hrole hscroller
        exact made_scroller hbelow hkind hwhole hscrolls
      · exact fun ledger => ⟨_, hbelow ledger, .box hkind hwhole rfl _ _⟩

theorem made_text (hkind : n.kind = .text) (id : NodeId) (es : List (Element α)) :
    (c.text t id n l).Yields fun e => c.Made t n l es (some e) := by
  have hwhole : drawsWhole n l = true := by simp [drawsWhole, hkind]
  unfold text
  split
  · exact made_picture hwhole id es
  · intro ledger
    refine .whole hwhole ?_
    show ElementKind.isDrawn (if _ then _ else if _ then _ else _) = true
    split_ifs <;> rfl

theorem made_shape (hbelow : below.Yields P) (hkind : n.kind.isShape = true) (id : NodeId) :
    Compile.Yields (fun e? => ∃ es, P es ∧ c.Made t n l es e?) (do
      let picture ← c.picture t id n l.name
      let elements ← below
      return some (if elements.isEmpty then picture else .mk picture.own (some elements))) := by
  intro ledger
  refine ⟨_, hbelow ((c.picture t id n l.name).run ledger).2, ?_⟩
  obtain ⟨file, hpicture⟩ : ∃ file, ((c.picture t id n l.name).run ledger).1 =
      .mk (framed (.image file) l.name (c.frame t n)) none := ⟨_, rfl⟩
  simp only [run_bind, run_pure, hpicture]
  generalize (below.run ((c.picture t id n l.name).run ledger).2).1 = es
  have h : c.Made t n l es (some (.mk _ (if es.isEmpty then none else some es))) :=
    .shape hkind file
  split <;> simp_all

/-- The element of a node has one of the forms that are listed. -/
theorem made_node (hbelow : below.Yields P) (id : NodeId) :
    (c.node t id n l below).Yields fun e? => ∃ es, P es ∧ c.Made t n l es e? := by
  have hsome {x : Compile α (Element α)}
      (hx : x.Yields fun e => ∃ es, P es ∧ c.Made t n l es (some e)) :
      (some <$> x).Yields fun e? => ∃ es, P es ∧ c.Made t n l es e? := hx
  unfold node
  split
  · rename_i hkind
    exact fun ledger => ⟨_, hbelow ledger, .board hkind⟩
  · rename_i hkind
    have hwhole : drawsWhole n l = true := by simp [drawsWhole, hkind]
    exact hsome fun ledger => ⟨_, hbelow ledger, made_picture hwhole id _ ledger⟩
  iterate 3
    · rename_i hkind
      refine hsome (made_group hbelow ?_ id ?_) <;> simp [Kind.isGroup, drawsWhole, hkind]
  iterate 4
    · rename_i hkind
      exact made_shape hbelow (by simp [Kind.isShape, hkind]) id
  · rename_i hkind
    exact hsome fun ledger => ⟨_, hbelow ledger, made_text hkind id _ ledger⟩
  · rename_i tag hkind
    intro ledger
    exact ⟨_, hbelow _, .unknown (by simp [Kind.isUnknown, hkind])⟩

/-! ### Branches -/

omit [Scalar α] in
/-- What the compiler takes over from the probe is no part of what the element is made of. -/
theorem withParameter_eq (id : NodeId) (e : Element α) :
    c.withParameter id e = e ∨ ∃ p, c.measurements.parameter? id = some p ∧
      c.withParameter id e = e.setOwn ({ · with
        pivot := p.pivot, stretchX := p.stretchX, stretchY := p.stretchY }) := by
  unfold withParameter
  split
  · split
    · rename_i p hp
      exact .inr ⟨p, hp, rfl⟩
    · exact .inl rfl
  · exact .inl rfl

/-- A relation of branches to their elements that holds of a branch whose node is passed over, and
of one whose element is made of elements for which it holds; `Q` is the relation of the branches
below a node to theirs. -/
structure Closed (c : Compiler α) (t : Target α) (P : Bool → Branch α → Option (Element α) → Prop)
    (Q : List (Branch α) → List (Element α) → Prop) : Prop where
  omitted : ∀ {inner id n bs}, c.omits inner (c.label n) = true → P inner (.mk id n bs) none
  made : ∀ {inner id n bs es e?}, c.omits inner (c.label n) = false → Q bs es →
    c.Made t n (c.label n) es e? → P inner (.mk id n bs) (e?.map (c.withParameter id))
  nil : Q [] []
  cons : ∀ {b rest e? later}, P true b e? → Q rest later → Q (b :: rest) (later ++ e?.toList)

section
variable {P : Bool → Branch α → Option (Element α) → Prop}
  {Q : List (Branch α) → List (Element α) → Prop}

mutual

theorem Closed.yields_branch (h : Closed c t P Q) (inner : Bool) :
    ∀ b, (c.branch t inner b).Yields (P inner b)
  | .mk id n children => by
    have hnode := made_node (c := c) (t := t) (n := n) (l := c.label n)
      (h.yields_branchesBackward children) id
    unfold branch
    dsimp only
    split
    · rename_i homits
      exact fun _ => h.omitted homits
    · rename_i homits
      intro ledger
      obtain ⟨es, hes, hmade⟩ := hnode ledger
      exact h.made (by simpa using homits) hes hmade

theorem Closed.yields_branchesBackward (h : Closed c t P Q) :
    ∀ bs, (c.branchesBackward t bs).Yields (Q bs)
  | [] => fun _ => h.nil
  | b :: rest => by
    intro ledger
    rw [branchesBackward]
    exact h.cons (h.yields_branch true b _) (h.yields_branchesBackward rest ledger)

end
end

/-- The root of a document is the element of its branch, or stands for one that there is not. -/
theorem yields_root {b : Branch α} {P : Option (Element α) → Prop}
    (hbranch : (c.branch (c.target b) false b).Yields P) :
    (c.root b).Yields fun r => ∃ e?, P e? ∧
      r.document.root = e?.getD (emptyRoot (c.label b.node).name) :=
  fun l => ⟨_, hbranch l, rfl⟩

theorem yields_roots {bs : List (Branch α)} {R : CompiledRoot α → Prop}
    (hroot : ∀ b ∈ bs, (c.root b).Yields R) : (c.roots bs).Yields fun rs => ∀ r ∈ rs, R r := by
  induction bs with
  | nil => exact fun _ _ hr => absurd hr List.not_mem_nil
  | cons b rest ih =>
    intro l r hr
    rcases List.mem_cons.mp hr with rfl | hr
    · exact hroot b List.mem_cons_self l
    · exact ih (fun b hb => hroot b (List.mem_cons_of_mem _ hb)) _ r hr

end Compiler
end DesignLayout
