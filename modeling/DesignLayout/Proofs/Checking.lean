import DesignLayout.Proofs.Building
import Mathlib.Data.List.Induction

/-! Which record of a snapshot is refused.

Loading goes through the records of a forest in order, with parents first, and puts each under its
parent; so it is a fold over the records with the numbers of their parents
(`Snapshot.loadEntries_eq`). The ids that it has seen are those of the records before. The fold
stops at the first record that has a fault by what is in those before it
(`Snapshot.Loading.addAll_of_firstFault`), and when none has one, all records are inserted
(`Snapshot.Loading.addAll_of_sound`). -/
namespace DesignLayout

namespace Snapshot
variable {α : Type}

/-! ### Records -/

namespace Entry

mutual

/-- The records of an entry, parents first. -/
def records : Entry α → List (Draft α)
  | .mk own children => own :: recordsAll children

def recordsAll : List (Entry α) → List (Draft α)
  | [] => []
  | e :: rest => records e ++ recordsAll rest

end

mutual

/-- The records with the numbers of their parents, when they are numbered from `first` on. -/
def placed (parent : Option NodeId) (first : NodeId) : Entry α → List (Option NodeId × Draft α)
  | .mk own children => (parent, own) :: placedAll (some first) (first + 1) children

def placedAll (parent : Option NodeId) (first : NodeId) :
    List (Entry α) → List (Option NodeId × Draft α)
  | [] => []
  | e :: rest => placed parent first e ++ placedAll parent (first + e.records.length) rest

end

mutual

theorem map_snd_placed (parent : Option NodeId) (first : NodeId) :
    ∀ e : Entry α, (e.placed parent first).map (·.2) = e.records
  | .mk own children => by
    rw [placed, records, List.map_cons, map_snd_placedAll (some first) (first + 1) children]

theorem map_snd_placedAll (parent : Option NodeId) (first : NodeId) :
    ∀ es : List (Entry α), (placedAll parent first es).map (·.2) = recordsAll es
  | [] => rfl
  | e :: rest => by
    rw [placedAll, recordsAll, List.map_append, map_snd_placed parent first e,
      map_snd_placedAll parent (first + e.records.length) rest]

end

theorem length_placed (parent : Option NodeId) (first : NodeId) (e : Entry α) :
    (e.placed parent first).length = e.records.length := by
  rw [← map_snd_placed parent first e, List.length_map]

end Entry

/-! ### Faults -/

/-- What is wrong with a record that comes after these others. A missing text counts before an id
that another record has. -/
inductive Fault (earlier : List (Draft α)) (d : Draft α) : SnapshotError → Prop
  | missingText (hkind : d.kind = .text) (htext : d.text = none) :
      Fault earlier d (.missingText d.name)
  | duplicateId (hwritten : d.kind = .text → d.text ≠ none) {id : String} (hid : d.guid = some id)
      {other : Draft α} (hother : other ∈ earlier) (hsame : other.guid = some id) :
      Fault earlier d (.duplicateId id)

/-- No record has a fault after those before it. -/
def Sound (ds : List (Draft α)) : Prop :=
  ∀ before d after, ds = before ++ d :: after → ∀ e, ¬ Fault before d e

/-- This is the fault of the first record that has one. -/
def FirstFault (ds : List (Draft α)) (e : SnapshotError) : Prop :=
  ∃ before d after, ds = before ++ d :: after ∧ Sound before ∧ Fault before d e

theorem sound_nil : Sound ([] : List (Draft α)) := by
  intro before d after h
  cases before <;> cases h

theorem sound_concat {ds : List (Draft α)} {d : Draft α} :
    Sound (ds ++ [d]) ↔ Sound ds ∧ ∀ e, ¬ Fault ds d e := by
  constructor
  · intro h
    refine ⟨fun before c after hds => h before c (after ++ [d]) ?_, h ds d [] rfl⟩
    rw [hds, List.append_assoc, List.cons_append]
  · -- A record of the longer list is its last one, or a record of the shorter list.
    rintro ⟨hds, hd⟩ before c after h
    rcases List.eq_nil_or_concat after with rfl | ⟨after, x, rfl⟩
    · obtain ⟨rfl, hc⟩ := List.append_inj' h rfl
      rwa [← List.head_eq_of_cons_eq hc]
    · rw [List.concat_eq_append, ← List.cons_append, ← List.append_assoc] at h
      exact hds before c after (List.append_inj' h rfl).1

theorem sound_or_firstFault (ds : List (Draft α)) : Sound ds ∨ ∃ e, FirstFault ds e := by
  induction ds using List.reverseRecOn with
  | nil => exact .inl sound_nil
  | append_singleton ds d ih =>
    rcases ih with hds | ⟨e, before, c, after, rfl, hbefore, hfault⟩
    · by_cases hd : ∃ e, Fault ds d e
      · obtain ⟨e, he⟩ := hd
        exact .inr ⟨e, ds, d, [], rfl, hds, he⟩
      · exact .inl (sound_concat.mpr ⟨hds, not_exists.mp hd⟩)
    · exact .inr ⟨e, before, c, after ++ [d], by simp, hbefore, hfault⟩

end Snapshot

/-! ### Loading as a fold -/

def Scene.insertAll {α : Type} (s : Scene α) (ps : List (Option NodeId × Draft α)) : Scene α :=
  ps.foldl (fun s p => s.insert p.1 p.2) s

namespace Snapshot
variable {α : Type} {ps : List (Option NodeId × Draft α)}

namespace Loading

def addAll (l : Loading α) (ps : List (Option NodeId × Draft α)) :
    Except SnapshotError (Loading α) :=
  ps.foldlM (fun l p => l.add p.1 p.2) l

theorem addAll_append (l : Loading α) (ps qs : List (Option NodeId × Draft α)) :
    l.addAll (ps ++ qs) = l.addAll ps >>= fun l' => l'.addAll qs :=
  List.foldlM_append

theorem size_addAll {l l' : Loading α} (h : l.addAll ps = .ok l') :
    l'.scene.size = l.scene.size + ps.length := by
  induction ps generalizing l with
  | nil =>
    cases h
    rfl
  | cons p ps ih =>
    rw [addAll, List.foldlM_cons] at h
    cases hadd : l.add p.1 p.2 with
    | error e =>
      rw [hadd] at h
      cases h
    | ok first =>
      rw [hadd] at h
      rw [ih h, scene_add hadd, Scene.size_insert, List.length_cons]
      omega

end Loading

mutual

/-- To load an entry is to add its records where they are placed, one after the other. -/
theorem loadEntry_eq (parent : Option NodeId) (l : Loading α) :
    ∀ e : Entry α, loadEntry parent l e = l.addAll (e.placed parent l.scene.size)
  | .mk own children => by
    rw [loadEntry, Entry.placed, Loading.addAll, List.foldlM_cons]
    cases hadd : l.add parent own with
    | error err => rfl
    | ok first =>
      -- The record got the number by which its children are placed.
      have hsize : first.scene.size = l.scene.size + 1 := by
        rw [Loading.scene_add hadd, Scene.size_insert]
      rw [← hsize]
      exact loadEntries_eq (some l.scene.size) first children

theorem loadEntries_eq (parent : Option NodeId) (l : Loading α) :
    ∀ es : List (Entry α),
      loadEntries parent l es = l.addAll (Entry.placedAll parent l.scene.size es)
  | [] => by rw [loadEntries]; rfl
  | e :: rest => by
    rw [loadEntries, Entry.placedAll, Loading.addAll_append, loadEntry_eq parent l e]
    cases hfirst : l.addAll (e.placed parent l.scene.size) with
    | error err => rfl
    | ok first =>
      have hsize := Loading.size_addAll hfirst
      rw [Entry.length_placed] at hsize
      rw [← hsize]
      exact loadEntries_eq parent first rest

end

/-- What there is when these records were put under their parents. -/
def Loading.after (ps : List (Option NodeId × Draft α)) : Loading α :=
  ⟨Scene.empty.insertAll ps, ((ps.map (·.2)).filterMap (·.guid)).reverse⟩

theorem Loading.mem_given_after {id : String} :
    id ∈ (after ps).given ↔ ∃ d ∈ ps.map (·.2), d.guid = some id := by
  rw [after, List.mem_reverse, List.mem_filterMap]

theorem Loading.add_of_fault {d : Draft α} {e : SnapshotError} (h : Fault (ps.map (·.2)) d e)
    (parent : Option NodeId) : (after ps).add parent d = .error e := by
  cases h with
  | missingText hkind htext => rw [add, if_pos ⟨hkind, by rw [htext]; rfl⟩]
  | @duplicateId hwritten id hid other hother hsame =>
    have hgiven : (after ps).given.contains id = true :=
      List.contains_iff_mem.mpr (mem_given_after.mpr ⟨other, hother, hsame⟩)
    rw [add, if_neg (fun h => hwritten h.1 (Option.isNone_iff_eq_none.mp h.2)), hid]
    dsimp only
    rw [if_pos hgiven]

theorem Loading.add_of_sound {d : Draft α} (h : ∀ e, ¬ Fault (ps.map (·.2)) d e)
    (parent : Option NodeId) : (after ps).add parent d = .ok (after (ps ++ [(parent, d)])) := by
  have hwritten : ¬ (d.kind = .text ∧ d.text.isNone) := fun hd =>
    h _ (.missingText hd.1 (Option.isNone_iff_eq_none.mp hd.2))
  rw [add, if_neg hwritten]
  cases hid : d.guid with
  | none => simp [after, hid, Scene.insertAll]
  | some id =>
    have hgiven : ¬ (after ps).given.contains id = true := by
      rw [List.contains_iff_mem, mem_given_after]
      rintro ⟨other, hother, hsame⟩
      exact h _ (.duplicateId (fun hkind htext => hwritten ⟨hkind, by rw [htext]; rfl⟩) hid hother
        hsame)
    dsimp only
    rw [if_neg hgiven]
    simp [after, hid, Scene.insertAll]

theorem Loading.addAll_of_sound (h : Sound (ps.map (·.2))) :
    (after []).addAll ps = .ok (after ps) := by
  induction ps using List.reverseRecOn with
  | nil => rfl
  | append_singleton ps p ih =>
    rw [List.map_append] at h
    obtain ⟨hps, hp⟩ := sound_concat.mp h
    rw [addAll_append, ih hps]
    exact (bind_pure _).trans (add_of_sound hp p.1)

theorem Loading.addAll_of_firstFault {e : SnapshotError} (h : FirstFault (ps.map (·.2)) e) :
    (after []).addAll ps = .error e := by
  obtain ⟨before, d, later, hps, hbefore, hfault⟩ := h
  obtain ⟨qs, rest, rfl, rfl, hrest⟩ := List.map_eq_append_iff.mp hps
  obtain ⟨p, rs, rfl, rfl, -⟩ := List.map_eq_cons_iff.mp hrest
  rw [addAll_append, addAll_of_sound hbefore]
  show (after qs).addAll (p :: rs) = _
  rw [addAll, List.foldlM_cons, add_of_fault hfault]
  rfl

end Snapshot
end DesignLayout
