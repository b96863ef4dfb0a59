import DesignLayout.Proofs.Placing
import DesignLayout.Scene.Snapshot

/-! The scenes that can come up.

A scene is only ever made from the empty one by inserting under nodes that are there, by moving and
by resizing. `Built` says so of a scene; every built scene is a forest (`Built.isForest`), and every
snapshot that loads gives a built scene at rest (`built_of_load`). -/
namespace DesignLayout

namespace ElasticScene
variable {α : Type} [Scalar α] {t : ElasticScene α}

theorem relaid_resize (t : ElasticScene α) (id : NodeId) (width height : α) :
    t.scene.Relaid (t.resize id width height).scene := by
  unfold resize
  split
  · exact .refl t.scene
  · rename_i n hn
    have hsettled := t.scene.relaid_placeAll (t.restingOf id n).layout
    dsimp only
    split
    · exact hsettled
    · exact hsettled.trans (Scene.relaid_relayout _ id width height)

/-- What can be made of the empty scene. -/
inductive Built : ElasticScene α → Prop
  | empty : Built .empty
  | insert {t : ElasticScene α} (h : Built t) (parent : Option NodeId) (d : Draft α)
      (hp : ∀ p ∈ parent, p < t.scene.size) : Built (t.insert parent d)
  | shift {t : ElasticScene α} (h : Built t) (id : NodeId) (dx dy : α) : Built (t.shift id dx dy)
  | resize {t : ElasticScene α} (h : Built t) (id : NodeId) (width height : α) :
      Built (t.resize id width height)

theorem Built.isForest (h : t.Built) : t.scene.IsForest := by
  induction h with
  | empty => exact Scene.IsForest.empty
  | insert _ parent d hp ih => exact ih.insert d hp
  | shift _ id dx dy ih => exact (Scene.relaid_shift _ id dx dy).sameLinks.isForest ih
  | resize _ id width height ih => exact (relaid_resize _ id width height).sameLinks.isForest ih

/-- No node is away from its resting size. -/
def AtRest (t : ElasticScene α) : Prop := t.resting = []

end ElasticScene

/-! ### Loaded snapshots -/

namespace Snapshot
variable {α : Type}

theorem Loading.scene_add {l l' : Loading α} {parent : Option NodeId} {d : Draft α}
    (h : l.add parent d = .ok l') : l'.scene = l.scene.insert parent d := by
  unfold add at h
  split at h
  · cases h
  · split at h
    · cases h
      rfl
    · split at h
      · cases h
      · cases h
        rfl

variable [Scalar α]

/-- What loading keeps: the scene so far is built, and it does not lose nodes. -/
def Loading.Grows (l l' : Loading α) : Prop :=
  (ElasticScene.mk l.scene []).Built → (ElasticScene.mk l'.scene []).Built ∧
    l.scene.size ≤ l'.scene.size

theorem Loading.grows_add {l l' : Loading α} {parent : Option NodeId} {d : Draft α}
    (hp : ∀ p ∈ parent, p < l.scene.size) (h : l.add parent d = .ok l') : l.Grows l' := by
  intro hb
  rw [scene_add h]
  exact ⟨hb.insert parent d hp, by simp⟩

mutual

theorem grows_loadEntry (parent : Option NodeId) (l l' : Loading α) :
    ∀ e : Entry α, (∀ p ∈ parent, p < l.scene.size) → loadEntry parent l e = .ok l' → l.Grows l'
  | .mk own children, hp, h => by
    rw [loadEntry] at h
    cases hadd : l.add parent own with
    | error e => rw [hadd] at h; cases h
    | ok first =>
      rw [hadd] at h
      have hsize : first.scene.size = l.scene.size + 1 := by
        rw [Loading.scene_add hadd, Scene.size_insert]
      have hbelow := grows_loadEntries (some l.scene.size) first l' children
        (fun p hp => by cases hp; rw [hsize]; exact Nat.lt_succ_self _) h
      intro hb
      obtain ⟨hb₁, hle₁⟩ := Loading.grows_add hp hadd hb
      obtain ⟨hb₂, hle₂⟩ := hbelow hb₁
      exact ⟨hb₂, Nat.le_trans hle₁ hle₂⟩

theorem grows_loadEntries (parent : Option NodeId) (l l' : Loading α) :
    ∀ es : List (Entry α), (∀ p ∈ parent, p < l.scene.size) →
      loadEntries parent l es = .ok l' → l.Grows l'
  | [], _, h => by
    rw [loadEntries] at h
    cases h
    exact fun hb => ⟨hb, Nat.le_refl _⟩
  | e :: rest, hp, h => by
    rw [loadEntries] at h
    cases hfirst : loadEntry parent l e with
    | error err => rw [hfirst] at h; cases h
    | ok first =>
      rw [hfirst] at h
      intro hb
      obtain ⟨hb₁, hle₁⟩ := grows_loadEntry parent l first e hp hfirst hb
      obtain ⟨hb₂, hle₂⟩ := grows_loadEntries parent first l' rest
        (fun p hm => Nat.lt_of_lt_of_le (hp p hm) hle₁) h hb₁
      exact ⟨hb₂, Nat.le_trans hle₁ hle₂⟩

end

/-- Every snapshot that loads gives a built scene at rest. -/
theorem built_of_load {entries : List (Entry α)} {t : ElasticScene α} (h : load entries = .ok t) :
    t.Built ∧ t.AtRest := by
  unfold load at h
  split at h
  · cases h
  · cases hl : loadEntries none ⟨.empty, []⟩ entries with
    | error e => rw [hl] at h; cases h
    | ok l =>
      rw [hl] at h
      cases h
      exact ⟨(grows_loadEntries none _ l entries (fun p hp => nomatch hp) hl .empty).1, rfl⟩

end Snapshot
end DesignLayout
