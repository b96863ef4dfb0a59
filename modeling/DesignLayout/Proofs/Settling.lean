import DesignLayout.Proofs.Changing
import DesignLayout.Proofs.Measuring
import DesignLayout.Proofs.Reflowing
import Mathlib.Data.List.Induction

/-! What a resize to the present size does.

While a node is away from its resting size, the layout that is kept of its branch is that of the
moment when it last rested, and a resize lays the branch out from there, whatever has been done to
the branch in between (`node?_resize_of_kept`). So a resize to the size that the node has leaves
everything in its place just when everything below the node stands where the last resize of the node
has put it (`keepsBounds_iff`): changes to the branch that were made since are lost
(`dragged_dot_jumps_back`). -/
namespace DesignLayout.ElasticScene

variable {α : Type} [Scalar α] {t t₀ : ElasticScene α} {id m : NodeId}

/-! ### Since a node has rested -/

/-- The node rests here, and it is away from its resting size after each of these changes. -/
structure AwaySince (t : ElasticScene α) (id : NodeId) (cs : List (Change α)) : Prop where
  fresh : t.resting.lookup id = none
  away : Along (fun t c => (t.change c).resting.lookup id ≠ none) t cs

theorem exists_awaySince (hfresh : t.resting.lookup id = none) (cs : List (Change α)) :
    ∃ before after, cs = before ++ after ∧ (t.changeAll before).AwaySince id after := by
  induction cs using List.reverseRecOn with
  | nil => exact ⟨[], [], rfl, hfresh, trivial⟩
  | append_singleton cs c ih =>
    by_cases hrests : (t.changeAll (cs ++ [c])).resting.lookup id = none
    · exact ⟨cs ++ [c], [], (List.append_nil _).symm, hrests, trivial⟩
    · obtain ⟨before, after, rfl, hfresh', haway⟩ := ih
      refine ⟨before, after ++ [c], List.append_assoc .., hfresh', along_append.mpr ⟨haway, ?_⟩⟩
      rw [changeAll_append, changeAll_append] at hrests
      exact ⟨hrests, trivial⟩

/-- What is kept of a node that is away is its layout when it last rested. -/
theorem AwaySince.lookup_changeAll {cs : List (Change α)} (h : t.AwaySince id cs) (hne : cs ≠ []) :
    ∃ n, t.scene.node? id = some n ∧
      (t.changeAll cs).resting.lookup id = some (t.present id n) := by
  induction cs using List.reverseRecOn with
  | nil => exact absurd rfl hne
  | append_singleton cs c ih =>
    obtain ⟨haway, hlast, -⟩ := along_append.mp h.away
    rw [changeAll_append]
    rcases lookup_change (t.changeAll cs) c id with hnone | hsame | ⟨hnone, n, hn, hpresent⟩
    · exact absurd hnone hlast
    · by_cases hcs : cs = []
      · subst hcs
        exact absurd (hsame.trans h.fresh) hlast
      · obtain ⟨n, hn, hkept⟩ := ih ⟨h.fresh, haway⟩ hcs
        exact ⟨n, hn, hsame.trans hkept⟩
    · by_cases hcs : cs = []
      · subst hcs
        exact ⟨n, hn, hpresent⟩
      · obtain ⟨_, _, hkept⟩ := ih ⟨h.fresh, haway⟩ hcs
        rw [hnone] at hkept
        cases hkept

/-! ### Resizing from the kept layout -/

/-- Where the layout of `t₀` is kept, a resize puts the branch where it would have put it in `t₀`. -/
theorem node?_resize_of_kept (hf₀ : t₀.scene.IsForest) (hf : t.scene.IsForest)
    (hfresh : t₀.resting.lookup id = none) {n₀ : Node α} (hn₀ : t₀.scene.node? id = some n₀)
    (hkept : t.resting.lookup id = some (t₀.present id n₀))
    (hbranch : Scene.BranchRelaid id t₀.scene t.scene) (width height : α)
    (hm : t.scene.Within m id) :
    (t.resize id width height).scene.node? m = (t₀.resize id width height).scene.node? m := by
  have hid := Scene.lt_size_of_node? hn₀
  obtain ⟨n, hn, -⟩ := hbranch.moved id n₀ .refl hn₀
  have hsettled (m : NodeId) (hm : t₀.scene.Within m id) :
      (t.scene.placeAll (t₀.scene.placements id)).node? m = t₀.scene.node? m := by
    obtain ⟨k₀, hk₀⟩ := Scene.node?_isSome (hm.lt_size hid)
    obtain ⟨k, hk, hmoved⟩ := hbranch.moved m k₀ hm hk₀
    rw [Scene.node?_placeAll_placements ((hf₀.mem_subtree hid).mpr hm) hk₀ hk hmoved, hk₀]
  have hforest := (t.scene.relaid_placeAll (t₀.scene.placements id)).sameLinks.isForest hf
  have hm₀ := (hbranch.within m).mp hm
  rw [resize_fresh hn₀ hfresh]
  simp only [resize, hn, restingOf, hkept, Option.getD_some, present]
  split
  · exact hsettled m hm₀
  · exact Scene.node?_relayout_congr hf₀ hforest hsettled width height hm₀

/-- After a resize the node rests, or it has the size that was asked for. -/
theorem size_resize (hf : t.scene.IsForest) {width height : α} {k : Node α}
    (hk : (t.resize id width height).scene.node? id = some k)
    (haway : (t.resize id width height).resting.lookup id ≠ none) :
    k.bounds.width = width ∧ k.bounds.height = height := by
  unfold resize at hk haway
  cases hn : t.scene.node? id with
  | none =>
    rw [hn] at hk
    exact absurd (hn.symm.trans hk) nofun
  | some n =>
    have hsettled := t.scene.relaid_placeAll (t.restingOf id n).layout
    obtain ⟨k', hk', -⟩ := hsettled.exists_node? hn
    rw [hn] at hk haway
    dsimp only at hk haway
    split at hk
    · rename_i hsame
      rw [if_pos hsame] at haway
      exact absurd (by rw [lookup_filter, if_pos rfl]) haway
    · rw [Scene.node?_relayout_self (hsettled.sameLinks.isForest hf) hk'] at hk
      obtain rfl := Option.some.inj hk
      exact ⟨rfl, rfl⟩

/-! ### A resize to the present size -/

/-- A resize of the node to the size that it has leaves everything where it is. -/
def KeepsBounds (t : ElasticScene α) (id : NodeId) (n : Node α) : Prop :=
  ∀ m, (t.resize id n.bounds.width n.bounds.height).scene.bounds? m = t.scene.bounds? m

/-- The branch of the node stands where a resize in `t₀` to its present size puts it. -/
def StandsAsLaidOut (t₀ t : ElasticScene α) (id : NodeId) (n : Node α) : Prop :=
  ∀ m, t.scene.Within m id →
    t.scene.bounds? m = (t₀.resize id n.bounds.width n.bounds.height).scene.bounds? m

section
variable (h₀ : t₀.Built) {cs : List (Change α)} (hcs : Along Fits t₀ cs)
  (haway : t₀.AwaySince id cs) (hadds : Along (fun t c => ¬ AddsBelow id t c) t₀ cs)
include h₀ hcs haway hadds

/-- A branch that is away is laid out as if none of the changes since had been made. -/
theorem node?_resize_changeAll (width height : α) (hm : (t₀.changeAll cs).scene.Within m id) :
    ((t₀.changeAll cs).resize id width height).scene.node? m =
      (t₀.resize id width height).scene.node? m := by
  by_cases hne : cs = []
  · subst hne
    rfl
  · obtain ⟨n₀, hn₀, hkept⟩ := haway.lookup_changeAll hne
    have hid := Scene.lt_size_of_node? hn₀
    exact node?_resize_of_kept h₀.isForest (h₀.changeAll hcs).isForest haway.fresh hn₀ hkept
      (branchRelaid_changeAll h₀ hid hcs hadds) width height hm

theorem keepsBounds_iff_standsAsLaidOut (n : Node α) :
    KeepsBounds (t₀.changeAll cs) id n ↔ StandsAsLaidOut t₀ (t₀.changeAll cs) id n := by
  have hlaid (m : NodeId) (hm : (t₀.changeAll cs).scene.Within m id) :=
    node?_resize_changeAll h₀ hcs haway hadds n.bounds.width n.bounds.height hm
  constructor
  · intro h m hm
    rw [← h m, Scene.bounds?, hlaid m hm]
    rfl
  · intro h m
    by_cases hm : (t₀.changeAll cs).scene.Within m id
    · rw [h m hm, Scene.bounds?, hlaid m hm]
      rfl
    · rw [Scene.bounds?, node?_resize_of_not_within (h₀.changeAll hcs) _ _ hm]
      rfl

end

section
variable (h : t.Built) {width height : α} (hid : id < t.scene.size) {rest : List (Change α)}
  (hrest : Along Fits (t.resize id width height) rest)
  (hapart : Along (Apart id) (t.resize id width height) rest)
include h hid hrest hapart

/-- What is done apart from the branch after a resize leaves its nodes as they are. -/
theorem node?_changeAll_after_resize (hm : t.scene.Within m id) :
    ((t.resize id width height).changeAll rest).scene.node? m =
      (t.resize id width height).scene.node? m := by
  have hlt := Nat.lt_of_lt_of_le hid (size_le_change t (.resize id width height))
  have hm' := ((t.relaid_resize id width height).sameLinks.within_iff m id).mpr hm
  exact node?_changeAll_of_apart (h.resize id width height) hrest hlt hapart hm'

theorem within_changeAll_after_resize
    (hm : ((t.resize id width height).changeAll rest).scene.Within m id) :
    t.scene.Within m id := by
  have hlt := Nat.lt_of_lt_of_le hid (size_le_change t (.resize id width height))
  have hbranch := branchRelaid_changeAll (h.resize id width height) hlt hrest
    (hapart.mono fun t c => Apart.not_addsBelow)
  exact ((t.relaid_resize id width height).sameLinks.within_iff m id).mp ((hbranch.within m).mp hm)

end

/-- What is done apart from the branch after a resize of the node leaves it as laid out. -/
theorem standsAsLaidOut_of_apart (h₀ : t₀.Built) {first rest : List (Change α)} {width height : α}
    (hcs : Along Fits t₀ (first ++ .resize id width height :: rest))
    (haway : t₀.AwaySince id (first ++ .resize id width height :: rest))
    (hadds : Along (fun t c => ¬ AddsBelow id t c) t₀ (first ++ .resize id width height :: rest))
    (hapart : Along (Apart id) ((t₀.changeAll first).resize id width height) rest) {n : Node α}
    (hn : (t₀.changeAll (first ++ .resize id width height :: rest)).scene.node? id = some n) :
    StandsAsLaidOut t₀ (t₀.changeAll (first ++ .resize id width height :: rest)) id n := by
  obtain ⟨n₀, hn₀, -⟩ := haway.lookup_changeAll (List.append_ne_nil_of_right_ne_nil _ nofun)
  obtain ⟨hfirst, -, hrest⟩ := along_append.mp hcs
  obtain ⟨hawayFirst, hawayHere, -⟩ := along_append.mp haway.away
  obtain ⟨haddsFirst, -, -⟩ := along_append.mp hadds
  have hlaid (m : NodeId) (hm : (t₀.changeAll first).scene.Within m id) :=
    node?_resize_changeAll h₀ hfirst ⟨haway.fresh, hawayFirst⟩ haddsFirst width height hm
  have h₁ := h₀.changeAll hfirst
  have hid := Nat.lt_of_lt_of_le (Scene.lt_size_of_node? hn₀) (size_le_changeAll t₀ first)
  rw [changeAll_append] at hn ⊢
  -- `t₁` is the scene in which the node is resized for the last time.
  generalize t₀.changeAll first = t₁ at *
  have hsize : n.bounds.width = width ∧ n.bounds.height = height :=
    size_resize h₁.isForest
      ((node?_changeAll_after_resize h₁ hid hrest hapart .refl).symm.trans hn) hawayHere
  intro m hm
  have hm₁ : t₁.scene.Within m id := within_changeAll_after_resize h₁ hid hrest hapart hm
  have hnode : ((t₁.resize id width height).changeAll rest).scene.node? m = _ :=
    (node?_changeAll_after_resize h₁ hid hrest hapart hm₁).trans (hlaid m hm₁)
  rw [hsize.1, hsize.2]
  exact congrArg (Option.map (·.bounds)) hnode

/-- For every run of changes that begins with the empty scene and inserts under nodes that are there
only, and for every node: the run falls into what was made before the node has last rested and what
was made since. When it rests now, a resize to its own size changes nothing (but for a size that is
not the same as itself). Otherwise, if nothing was put below the node since, such a resize changes
nothing just when the branch stands as laid out; and that is so when all changes after the last
resize of the node were made apart from its branch. -/
theorem keepsBounds_iff {changes : List (Change α)} (hfits : Along Fits .empty changes)
    (id : NodeId) {n : Node α} (hn : (changeAll .empty changes).scene.node? id = some n) :
    (∃ before after, changes = before ++ after ∧ (changeAll .empty before).AwaySince id after) ∧
    ∀ before after, changes = before ++ after → (changeAll .empty before).AwaySince id after →
      (after = [] → Scalar.same n.bounds.width n.bounds.width = true →
        Scalar.same n.bounds.height n.bounds.height = true →
        KeepsBounds (changeAll .empty changes) id n) ∧
      (Along (fun t c => ¬ AddsBelow id t c) (changeAll .empty before) after →
        (KeepsBounds (changeAll .empty changes) id n ↔
          StandsAsLaidOut (changeAll .empty before) (changeAll .empty changes) id n) ∧
        ∀ first width height rest, after = first ++ .resize id width height :: rest →
          Along (Apart id) (((changeAll .empty before).changeAll first).resize id width height)
            rest →
          KeepsBounds (changeAll .empty changes) id n) := by
  refine ⟨exists_awaySince rfl changes, ?_⟩
  rintro before after rfl haway
  obtain ⟨hbefore, hafter⟩ := along_append.mp hfits
  rw [changeAll_append] at hn ⊢
  have h₀ : (changeAll .empty before : ElasticScene α).Built := Built.empty.changeAll hbefore
  refine ⟨?_, fun hadds => ?_⟩
  · rintro rfl hwidth hheight m
    rw [resize_own_size hn haway.fresh hwidth hheight]
  · have hiff := keepsBounds_iff_standsAsLaidOut h₀ hafter haway hadds n
    refine ⟨hiff, ?_⟩
    rintro first width height rest rfl hapart
    exact hiff.mpr (standsAsLaidOut_of_apart h₀ hafter haway hadds hapart hn)

/-! ### Two boards -/

/-- Two boards, the second one with a dot that stays in the middle. -/
def twoBoards : List (Change Float) :=
  [.insert none { name := "A", kind := .artboard, bounds := ⟨-500.0, 0.0, 400.0, 300.0⟩ },
   .insert none { name := "S", kind := .artboard, bounds := ⟨0.0, 0.0, 400.0, 300.0⟩ },
   .insert (some 1)
     { name := "dot", kind := .rectangle, bounds := ⟨10.0, 10.0, 10.0, 10.0⟩,
       constraints := { horizontal := .center } }]

theorem fits_twoBoards : Along Fits .empty twoBoards := by
  refine ⟨by simp [Fits], by simp [Fits], fun p hp => ?_, trivial⟩
  obtain rfl := Option.some.inj hp
  decide

/-- The second board is made wider, the first one is moved, and the second one gets its own size
once more. -/
theorem wide_board_keeps_bounds :
    ∃ n, (changeAll .empty (twoBoards ++ [.resize 1 500.0 400.0, .shift 0 5.0 0.0])).scene.node? 1
        = some n ∧
      KeepsBounds (changeAll .empty (twoBoards ++ [.resize 1 500.0 400.0, .shift 0 5.0 0.0])) 1
        n := by
  have hfits : Along Fits .empty (twoBoards ++ [.resize 1 500.0 400.0, .shift 0 5.0 0.0]) :=
    along_append.mpr ⟨fits_twoBoards, trivial, trivial, trivial⟩
  obtain ⟨n, hn⟩ : ∃ n, (changeAll .empty
      (twoBoards ++ [.resize 1 500.0 400.0, .shift 0 5.0 0.0])).scene.node? 1 = some n :=
    Scene.node?_isSome (by decide +kernel)
  have haway : (changeAll .empty twoBoards).AwaySince 1
      [.resize 1 500.0 400.0, .shift 0 5.0 0.0] :=
    ⟨rfl, Option.isSome_iff_ne_none.mp (by decide +kernel),
      Option.isSome_iff_ne_none.mp (by decide +kernel), trivial⟩
  have hapart : Along (Apart 1) ((changeAll .empty twoBoards).resize 1 500.0 400.0)
      [.shift 0 5.0 0.0] := by
    have hforest := ((Built.empty.changeAll fits_twoBoards).resize 1 500.0 400.0).isForest
    refine ⟨⟨fun h => ?_, fun h => ?_⟩, trivial⟩
    · exact absurd (hforest.le_of_within h) (by decide)
    · have hparent : ((((changeAll .empty twoBoards).resize 1 500.0 400.0).scene.node? 1).map
          (·.parent)) = some none := by decide +kernel
      obtain hne | ⟨p, ⟨k, hk, hp⟩, -⟩ := Relation.ReflTransGen.cases_head h
      · cases hne
      · rw [hk, Option.map_some, hp] at hparent
        cases hparent
  refine ⟨n, hn, ?_⟩
  exact (((keepsBounds_iff hfits 1 hn).2 _ _ rfl haway).2 ⟨not_false, not_false, trivial⟩).2
    [] 500.0 400.0 _ rfl hapart

/-- The dot is moved, and jumps back when its board gets its own size once more. -/
theorem dragged_dot_jumps_back :
    ¬ ∀ (changes : List (Change Float)) id n, Along Fits .empty changes →
      (changeAll .empty changes).scene.node? id = some n →
      KeepsBounds (changeAll .empty changes) id n := by
  intro h
  have hfits : Along Fits .empty (twoBoards ++ [.resize 1 500.0 400.0, .shift 2 5.0 0.0]) :=
    along_append.mpr ⟨fits_twoBoards, trivial, trivial, trivial⟩
  have hsize : ((changeAll .empty
      (twoBoards ++ [.resize 1 500.0 400.0, .shift 2 5.0 0.0])).scene.node? 1).map
        (fun n => (n.bounds.width, n.bounds.height)) = some (500.0, 400.0) := by
    decide +kernel
  obtain ⟨n, hn, hnsize⟩ := Option.map_eq_some_iff.mp hsize
  obtain ⟨hwidth, hheight⟩ := Prod.mk.inj hnsize
  have hkeeps := h _ 1 n hfits hn 2
  rw [hwidth, hheight] at hkeeps
  exact absurd hkeeps (by decide +kernel)

end DesignLayout.ElasticScene
