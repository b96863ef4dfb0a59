import DesignLayout.Json.Record
import Mathlib.Data.List.Nodup

/-! Reading the fields that were written.

An object whose fields have distinct names is sorted into a record without a fault: the record holds
the value of every field that it knows, and the other fields in their order (`Holds`). So a reader
of records gives what its body makes of such a record (`readObject_eq`, `readRecord_eq`), and what
the body makes of one field follows from the value that was written under its name
(`Holds.required`, `Holds.optional`, `Holds.flag`). -/
namespace DesignLayout.Json

namespace Source

mutual

@[simp] theorem passes_ofJson : ∀ v : Json, (ofJson v).passes = true
  | .null | .bool _ | .whole _ | .real _ | .text _ => rfl
  | .array items => itemsPass_ofItems items
  | .object fields => fieldsPass_ofFields fields

@[simp] theorem itemsPass_ofItems : ∀ items : List Json, itemsPass (ofItems items) = true
  | [] => rfl
  | item :: rest => by simp [ofItems, itemsPass, passes_ofJson item, itemsPass_ofItems rest]

@[simp] theorem fieldsPass_ofFields :
    ∀ fields : List (String × Json), fieldsPass (ofFields fields) = true
  | [] => rfl
  | (_, value) :: rest => by
    simp [ofFields, fieldsPass, passes_ofJson value, fieldsPass_ofFields rest]

end

theorem ofItems_eq (items : List Json) : ofItems items = items.map ofJson := by
  induction items with
  | nil => rfl
  | cons item rest ih => rw [ofItems, ih, List.map_cons]

theorem ofFields_eq (fields : List (String × Json)) :
    ofFields fields = fields.map fun f => (some f.1, ofJson f.2) := by
  induction fields with
  | nil => rfl
  | cons f rest ih => rw [ofFields, ih, List.map_cons]

theorem depth_le_of_mem_items {v : Source} {items : List Source} (h : v ∈ items) :
    v.depth ≤ depthOfItems items := by
  induction items with
  | nil => cases h
  | cons item rest ih =>
    rw [depthOfItems]
    rcases List.mem_cons.mp h with rfl | h
    · exact Nat.le_max_left ..
    · exact Nat.le_trans (ih h) (Nat.le_max_right ..)

theorem depth_le_of_mem_fields {name : Option String} {v : Source}
    {fields : List (Option String × Source)} (h : (name, v) ∈ fields) :
    v.depth ≤ depthOfFields fields := by
  induction fields with
  | nil => cases h
  | cons f rest ih =>
    obtain ⟨other, value⟩ := f
    rw [depthOfFields]
    rcases List.mem_cons.mp h with heq | h
    · cases heq
      exact Nat.le_max_left ..
    · exact Nat.le_trans (ih h) (Nat.le_max_right ..)

end Source

/-- What is read item by item is read as a list. -/
theorem readList_eq {β : Type} {read : Reader β} {toJson : β → Json} {bs : List β}
    (h : ∀ b ∈ bs, read (Source.ofJson (toJson b)) = .ok b) :
    readList read (Source.ofJson (.array (bs.map toJson))) = .ok bs := by
  rw [Source.ofJson, Source.ofItems_eq, readList]
  induction bs with
  | nil => rfl
  | cons b rest ih =>
    have hb := h b List.mem_cons_self
    have hrest := ih fun b hb => h b (List.mem_cons_of_mem _ hb)
    rw [List.map_cons, List.map_cons, List.mapM_cons, hb, hrest]
    rfl

namespace Parts

variable {β γ : Type}

@[simp] theorem map_all (f : β → γ) (b : β) : f <$> all b = all (f b) := rfl

@[simp] theorem all_seq_all (f : β → γ) (b : β) : all f <*> all b = all (f b) := rfl

@[simp] theorem all_seqRight (x : Parts β) : all () *> x = x := by
  cases x <;> rfl

@[simp] theorem toExcept_all (b : β) : (all b).toExcept = .ok b := rfl

end Parts

/-! ### Looking up -/

@[simp] theorem lookup_cons_eq_ite {γ : Type} (name first : String) (b : γ)
    (rest : List (String × γ)) :
    ((first, b) :: rest).lookup name = if name = first then some b else rest.lookup name := by
  by_cases h : name = first
  · simp [h]
  · rw [List.lookup_cons, beq_false_of_ne h, if_neg h]

theorem lookup_eq_none_of_notMem {γ : Type} {name : String} {fs : List (String × γ)}
    (h : name ∉ fs.map (·.1)) : fs.lookup name = none := by
  rw [List.lookup_eq_none_iff]
  intro f hf
  have hne : f.1 ≠ name := fun hname => h (hname ▸ List.mem_map_of_mem hf)
  simpa using hne.symm

/-! ### Sorting fields out -/

namespace Record

variable {β : Type} {known : List String} {fs : List (String × Json)} {r : Record} {name : String}

/-- The record has sorted out the fields `fs`. -/
structure Holds (r : Record) (known : List String) (fs : List (String × Json)) : Prop where
  field : ∀ name ∈ known,
    (r.fields.lookup name).map (·.2) = (fs.lookup name).map Source.ofJson
  others : r.others = Source.ofFields (fs.filter fun f => !known.contains f.1)

theorem find?_known (known : List String) (name : String) :
    (known.map ([·])).find? (·.contains name) = if name ∈ known then some [name] else none := by
  induction known with
  | nil => rfl
  | cons first rest ih =>
    rw [List.map_cons, List.find?_cons, ih]
    by_cases h : name = first <;> simp [h]

/-- Fields with distinct names that are new to the record are taken up without a fault. -/
theorem collect_ofFields {keeps : Source → Bool} (hkeeps : ∀ v, keeps (Source.ofJson v) = true)
    (known : List String) (fs : List (String × Json)) (hnodup : (fs.map (·.1)).Nodup) (r : Record)
    (hnew : ∀ name ∈ fs.map (·.1), r.fields.lookup name = none) :
    ∃ r', collect (known.map ([·])) keeps r (Source.ofFields fs) = (r', .all ()) ∧
      (∀ name ∈ known, (r'.fields.lookup name).map (·.2) =
        ((fs.lookup name).map Source.ofJson).or ((r.fields.lookup name).map (·.2))) ∧
      r'.others = r.others ++ Source.ofFields (fs.filter fun f => !known.contains f.1) := by
  induction fs generalizing r with
  | nil => exact ⟨r, rfl, by simp, by simp [Source.ofFields]⟩
  | cons f rest ih =>
    obtain ⟨first, v⟩ := f
    obtain ⟨hfirst, hrest⟩ := List.nodup_cons.mp hnodup
    have hnone : r.fields.lookup first = none := hnew first List.mem_cons_self
    have hlater : ∀ name ∈ rest.map (·.1), r.fields.lookup name = none := fun name hname =>
      hnew name (List.mem_cons_of_mem _ hname)
    simp only [Source.ofFields, collect, find?_known]
    by_cases hknown : first ∈ known
    · simp only [if_pos hknown, List.headD_cons, hnone, Option.isSome_none, Bool.false_eq_true,
        if_false]
      have hnew' : ∀ name ∈ rest.map (·.1),
          ((first, r.finish, Source.ofJson v) :: r.fields).lookup name = none := by
        intro name hname
        have hne : name ≠ first := fun h => hfirst (h ▸ hname)
        rw [lookup_cons_eq_ite, if_neg hne, hlater name hname]
      obtain ⟨r', heq, hfields, hothers⟩ := ih hrest
        { r with fields := (first, r.finish, Source.ofJson v) :: r.fields
                 finish := r.finish + 1 } hnew'
      refine ⟨r', heq, fun name hname => ?_, ?_⟩
      · rw [hfields name hname]
        by_cases hfield : name = first
        · subst hfield
          simp [lookup_eq_none_of_notMem hfirst]
        · simp [hfield]
      · rw [hothers]
        simp [hknown]
    · simp only [if_neg hknown, hkeeps, if_true]
      obtain ⟨r', heq, hfields, hothers⟩ := ih hrest
        { r with others := r.others ++ [(some first, Source.ofJson v)]
                 finish := r.finish + 1 } hlater
      refine ⟨r', heq, fun name hname => ?_, ?_⟩
      · have hne : name ≠ first := fun h => hknown (h ▸ hname)
        rw [hfields name hname, lookup_cons_eq_ite, if_neg hne]
      · rw [hothers]
        simp [hknown, Source.ofFields]

theorem holds_collect {keeps : Source → Bool} (hkeeps : ∀ v, keeps (Source.ofJson v) = true)
    (known : List String) {fs : List (String × Json)} (hnodup : (fs.map (·.1)).Nodup) :
    ∃ r, collect (known.map ([·])) keeps ⟨[], [], 0⟩ (Source.ofFields fs) = (r, .all ()) ∧
      r.Holds known fs := by
  obtain ⟨r, heq, hfields, hothers⟩ :=
    collect_ofFields hkeeps known fs hnodup ⟨[], [], 0⟩ (by simp)
  refine ⟨r, heq, fun name hname => ?_, by simpa using hothers⟩
  simpa using hfields name hname

/-! ### The fields of a record -/

theorem Holds.required (h : r.Holds known fs) (hknown : name ∈ known) {v : Json}
    (hv : fs.lookup name = some v) {read : Reader β} {b : β}
    (hread : read (Source.ofJson v) = .ok b) : r.required name read = .all b := by
  have hfield := h.field name hknown
  rw [hv, Option.map_some, Option.map_eq_some_iff] at hfield
  obtain ⟨⟨place, w⟩, hlookup, rfl⟩ := hfield
  rw [Record.required, hlookup]
  exact congrArg (Parts.placed place) hread

theorem Holds.text (h : r.Holds known fs) (hknown : name ∈ known) {s : String}
    (hv : fs.lookup name = some (.text s)) : r.required name readText = .all s :=
  h.required hknown hv rfl

theorem Holds.orElse_absent (h : r.Holds known fs) (hknown : name ∈ known)
    (hv : fs.lookup name = none) (default : β) (read : Reader β) :
    r.orElse name default read = .all default := by
  have hfield := h.field name hknown
  rw [hv, Option.map_none, Option.map_eq_none_iff] at hfield
  rw [Record.orElse, hfield]

theorem Holds.orElse (h : r.Holds known fs) (hknown : name ∈ known) {v : Json}
    (hv : fs.lookup name = some v) {read : Reader β} {b : β} (default : β)
    (hread : read (Source.ofJson v) = .ok b) : r.orElse name default read = .all b := by
  have hfield := h.field name hknown
  rw [hv, Option.map_some, Option.map_eq_some_iff] at hfield
  obtain ⟨⟨place, w⟩, hlookup, rfl⟩ := hfield
  rw [Record.orElse, hlookup]
  exact congrArg (Parts.placed place) hread

/-- A field that is left out when there is no value. -/
theorem Holds.optional (h : r.Holds known fs) (hknown : name ∈ known) {o : Option β}
    {toJson : β → Json} (hv : fs.lookup name = o.map toJson) {read : Reader β}
    (hread : ∀ b ∈ o, toJson b ≠ .null ∧ read (Source.ofJson (toJson b)) = .ok b) :
    r.orElse name none (readOptional read) = .all o := by
  cases o with
  | none => exact h.orElse_absent hknown hv none _
  | some b =>
    obtain ⟨hnull, hread⟩ := hread b rfl
    refine h.orElse hknown hv none ?_
    cases hjson : toJson b with
    | null => exact absurd hjson hnull
    | _ =>
      rw [hjson] at hread
      exact congrArg (some <$> ·) hread

/-- A flag that is left out when it is off. -/
theorem Holds.flag (h : r.Holds known fs) (hknown : name ∈ known) {on : Bool}
    (hv : fs.lookup name = if on then some (.bool true) else none) :
    r.orElse name false readBool = .all on := by
  cases on with
  | false => exact h.orElse_absent hknown hv false _
  | true => exact h.orElse hknown hv false rfl

theorem Holds.rest (h : r.Holds known fs) {read : Reader β} {b : β}
    (hread : read (Source.ofJson (.object (fs.filter fun f => !known.contains f.1))) = .ok b) :
    r.rest read = .all b := by
  rw [Record.rest, h.others]
  exact congrArg (Parts.placed r.finish) hread

end Record

variable {β : Type}

/-- A record is read from the fields that it knows, whatever other fields there are. -/
theorem readObject_eq (known : List String) {fs : List (String × Json)}
    (hnodup : (fs.map (·.1)).Nodup) {body : Record → Parts β} {b : β}
    (hbody : ∀ r : Record, r.Holds known fs → body r = .all b) :
    readObject (known.map ([·])) body (Source.ofJson (.object fs)) = .ok b := by
  obtain ⟨r, hcollect, hr⟩ := Record.holds_collect Source.isSound_ofJson known hnodup
  simp only [readObject, Source.ofJson, hcollect, hbody r hr, Parts.all_seqRight,
    Parts.toExcept_all]

theorem readRecord_eq (known : List String) {fs : List (String × Json)}
    (hnodup : (fs.map (·.1)).Nodup) {body : Record → Parts β} {b : β}
    (hbody : ∀ r : Record, r.Holds known fs → body r = .all b) :
    readRecord (known.map ([·])) body (Source.ofJson (.object fs)) = .ok b := by
  obtain ⟨r, hcollect, hr⟩ := Record.holds_collect Source.passes_ofJson known hnodup
  simp only [readRecord, Source.ofJson, hcollect, hbody r hr, Parts.all_seqRight,
    Parts.toExcept_all]

end DesignLayout.Json
