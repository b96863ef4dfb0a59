import DesignLayout.Proofs.Commenting
import DesignLayout.Proofs.Keeping
import DesignLayout.Proofs.Loading
import DesignLayout.Proofs.Scanning

/-! What the ids of a loaded document identify.

A node whose record gives no id gets one that is made of its number, so that no two generated ids
are the same (`number_eq_of_generatedGuid_eq`). Loading refuses an id that two records give. It does
not compare a given id with a generated one, and that is the only way in which two nodes come to
have one id (`Snapshot.guid_eq_iff`). Without it every id leads back to its node, and so does the id
in every request for a picture (`Snapshot.guids_identify`). -/
namespace DesignLayout

open Json.Token (hexValue? hexValue?_digitChar)

/-! ### Generated ids -/

/-- The number that hexadecimal digits stand for. -/
def hexNumber (cs : List Char) : Nat :=
  cs.foldl (fun v c => 16 * v + (hexValue? c).getD 0) 0

theorem hexNumber_concat (cs : List Char) (c : Char) :
    hexNumber (cs ++ [c]) = 16 * hexNumber cs + (hexValue? c).getD 0 := by
  rw [hexNumber, List.foldl_append]
  rfl

theorem hexNumber_zeros_append (k : Nat) (cs : List Char) :
    hexNumber (List.replicate k '0' ++ cs) = hexNumber cs := by
  induction k with
  | zero => rfl
  | succ k ih =>
    rw [List.replicate_succ, List.cons_append]
    exact ih

theorem hexDigits_concat {n : Nat} (h : 16 ≤ n) :
    Text.hexDigits n = Text.hexDigits (n / 16) ++ [Nat.digitChar (n % 16)] :=
  Nat.toDigits_of_base_le (by decide) h

theorem hexDigits_of_lt {n : Nat} (h : n < 16) : Text.hexDigits n = [Nat.digitChar n] :=
  Nat.toDigits_of_lt_base h

theorem hexNumber_hexDigits (n : Nat) : hexNumber (Text.hexDigits n) = n := by
  induction n using Nat.strongRecOn with
  | _ n ih =>
    by_cases hn : n < 16
    · rw [hexDigits_of_lt hn, ← List.nil_append [_], hexNumber_concat, hexValue?_digitChar hn]
      exact Nat.zero_add n
    · have hle := Nat.le_of_not_lt hn
      rw [hexDigits_concat hle, hexNumber_concat, ih (n / 16) (by omega),
        hexValue?_digitChar (Nat.mod_lt n (by decide)), Option.getD_some]
      omega

theorem exists_digitChar_of_mem_hexDigits (n : Nat) :
    ∀ c ∈ Text.hexDigits n, ∃ d < 16, c = Nat.digitChar d := by
  induction n using Nat.strongRecOn with
  | _ n ih =>
    intro c hc
    by_cases hn : n < 16
    · rw [hexDigits_of_lt hn] at hc
      exact ⟨n, hn, List.mem_singleton.mp hc⟩
    · rw [hexDigits_concat (Nat.le_of_not_lt hn)] at hc
      rcases List.mem_append.mp hc with hc | hc
      · exact ih (n / 16) (by omega) c hc
      · exact ⟨n % 16, Nat.mod_lt n (by decide), List.mem_singleton.mp hc⟩

/-- The digits with which a generated id begins. -/
def paddedDigits (id : NodeId) : List Char :=
  List.replicate (5 - (Text.hexDigits id).length) '0' ++ Text.hexDigits id

theorem hexNumber_paddedDigits (id : NodeId) : hexNumber (paddedDigits id) = id := by
  rw [paddedDigits, hexNumber_zeros_append, hexNumber_hexDigits]

theorem hyphen_notMem_paddedDigits (id : NodeId) : '-' ∉ paddedDigits id := by
  intro h
  rcases List.mem_append.mp h with h | h
  · exact absurd (List.eq_of_mem_replicate h) (by decide)
  · obtain ⟨d, hd, hc⟩ := exists_digitChar_of_mem_hexDigits id '-' h
    have hall : ∀ d < 16, '-' ≠ Nat.digitChar d := by decide
    exact hall d hd hc

theorem toList_generatedGuid (id : NodeId) (name : String) :
    (generatedGuid id name).toList =
      paddedDigits id ++ '-' :: (Nat.repr name.utf8ByteSize).toList := by
  rw [generatedGuid, String.toList_append, String.toList_append, String.toList_ofList,
    List.append_assoc]
  rfl

theorem hyphen_notMem_repr (n : Nat) : '-' ∉ (Nat.repr n).toList := by
  intro h
  rw [Nat.toList_repr] at h
  exact absurd (Nat.isDigit_of_mem_toDigits (by decide) (by decide) h) (by decide)

/-- Ids that are generated for different nodes are different, whatever the nodes are called. -/
theorem number_eq_of_generatedGuid_eq {i j : NodeId} {a b : String}
    (h : generatedGuid i a = generatedGuid j b) : i = j := by
  have hchars := congrArg String.toList h
  rw [toList_generatedGuid, toList_generatedGuid,
    List.append_cons_inj_of_notMem (hyphen_notMem_paddedDigits i) (hyphen_notMem_repr _)] at hchars
  rw [← hexNumber_paddedDigits i, hchars.1, hexNumber_paddedDigits]

/-! ### Given ids -/

namespace Snapshot
variable {α : Type}

/-- No two records of a sound list give the same id. -/
theorem Sound.index_eq {ds : List (Draft α)} (h : Sound ds) {j k : Nat} {d e : Draft α}
    {id : String} (hd : ds[j]? = some d) (he : ds[k]? = some e) (hdid : d.guid = some id)
    (heid : e.guid = some id) : j = k := by
  have hlt {j k : Nat} {d e : Draft α} (hd : ds[j]? = some d) (he : ds[k]? = some e)
      (hdid : d.guid = some id) (heid : e.guid = some id) : ¬ j < k := by
    intro hjk
    obtain ⟨hk, rfl⟩ := List.getElem?_eq_some_iff.mp he
    have hsplit : ds = ds.take k ++ ds[k] :: ds.drop (k + 1) := by
      rw [List.cons_getElem_drop_succ, List.take_append_drop]
    have hmem : d ∈ ds.take k := by
      refine List.mem_of_getElem? (i := j) ?_
      rwa [List.getElem?_take_of_lt hjk]
    by_cases hmissing : ds[k].kind = .text ∧ ds[k].text = none
    · exact h _ _ _ hsplit _ (.missingText hmissing.1 hmissing.2)
    · have hwritten (hkind : ds[k].kind = .text) : ds[k].text ≠ none := fun htext =>
        hmissing ⟨hkind, htext⟩
      exact h _ _ _ hsplit _ (.duplicateId hwritten heid hmem hdid)
  rcases Nat.lt_trichotomy j k with hjk | hjk | hjk
  · exact absurd hjk (hlt hd he hdid heid)
  · exact hjk
  · exact absurd hjk (hlt he hd heid hdid)

/-- The record at `j` gives the id that is generated for the one at `k`, which gives none. -/
def GivesGenerated (ds : List (Draft α)) (j k : Nat) : Prop :=
  ∃ d e, ds[j]? = some d ∧ ds[k]? = some e ∧ e.guid = none ∧
    d.guid = some (generatedGuid k e.name)

theorem givesGenerated_iff {ds : List (Draft α)} {j k : Nat} :
    GivesGenerated ds j k ↔ (ds[j]?.any fun d => ds[k]?.any fun e =>
      decide (e.guid = none ∧ d.guid = some (generatedGuid k e.name))) = true := by
  cases hd : ds[j]? <;> cases he : ds[k]? <;> simp [GivesGenerated, hd, he]

instance (ds : List (Draft α)) (j k : Nat) : Decidable (GivesGenerated ds j k) :=
  decidable_of_iff _ givesGenerated_iff.symm

/-- It is a matter of finitely many records. -/
theorem not_givesGenerated_of_lt {ds : List (Draft α)}
    (h : ∀ j < ds.length, ∀ k < ds.length, ¬ GivesGenerated ds j k) :
    ∀ j k, ¬ GivesGenerated ds j k := by
  intro j k hgives
  have hgives' := hgives
  obtain ⟨d, e, hd, he, -⟩ := hgives'
  exact h j (List.getElem?_eq_some_iff.mp hd).1 k (List.getElem?_eq_some_iff.mp he).1 hgives

/-- Every node of a loaded scene has its record. -/
theorem Loaded.exists_record {entries : List (Entry α)} {t : ElasticScene α}
    (h : Loaded entries t) {k : NodeId} {n : Node α} (hn : t.scene.node? k = some n) :
    ∃ d, (Entry.recordsAll entries)[k]? = some d ∧
      n.guid = d.guid.getD (generatedGuid k d.name) := by
  have hk : k < (Entry.recordsAll entries).length := by
    rw [← h.size]
    exact Scene.lt_size_of_node? hn
  have hd := List.getElem?_eq_getElem hk
  obtain ⟨m, hm, hshown⟩ := h.record k _ hd
  obtain rfl := Option.some.inj (hn.symm.trans hm)
  exact ⟨_, hd, hshown.guid⟩

/-- Two nodes have one id just when one of them was given the id that the other one got. -/
theorem guid_eq_iff {entries : List (Entry α)} {t : ElasticScene α} (h : Loaded entries t)
    (hsound : Sound (Entry.recordsAll entries)) {j k : NodeId} {m n : Node α}
    (hm : t.scene.node? j = some m) (hn : t.scene.node? k = some n) (hne : j ≠ k) :
    m.guid = n.guid ↔ GivesGenerated (Entry.recordsAll entries) j k ∨
      GivesGenerated (Entry.recordsAll entries) k j := by
  obtain ⟨d, hd, hmguid⟩ := h.exists_record hm
  obtain ⟨e, he, hnguid⟩ := h.exists_record hn
  rw [hmguid, hnguid]
  constructor
  · intro hsame
    cases hdid : d.guid with
    | none =>
      cases heid : e.guid with
      | none =>
        rw [hdid, heid] at hsame
        exact absurd (number_eq_of_generatedGuid_eq hsame) hne
      | some given =>
        rw [hdid, heid] at hsame
        exact .inr ⟨e, d, he, hd, hdid, heid.trans (congrArg some hsame.symm)⟩
    | some given =>
      cases heid : e.guid with
      | none =>
        rw [hdid, heid] at hsame
        exact .inl ⟨d, e, hd, he, heid, hdid.trans (congrArg some hsame)⟩
      | some other =>
        rw [hdid, heid] at hsame
        obtain rfl : given = other := hsame
        exact absurd (hsound.index_eq hd he hdid heid) hne
  · rintro (⟨d', e', hd', he', hnone, hgiven⟩ | ⟨e', d', he', hd', hnone, hgiven⟩)
    all_goals
      obtain rfl := Option.some.inj (hd.symm.trans hd')
      obtain rfl := Option.some.inj (he.symm.trans he')
      rw [hnone, hgiven]
      rfl

end Snapshot

/-! ### From an id to its node -/

namespace Scene
variable {α : Type} {s : Scene α}

/-- No two nodes have one id. -/
def GuidsDistinct (s : Scene α) : Prop :=
  ∀ j k m n, s.node? j = some m → s.node? k = some n → m.guid = n.guid → j = k

/-- Where no two nodes have one id, the id of a node leads to the node. -/
theorem GuidsDistinct.withGuid? (h : s.GuidsDistinct) {id : NodeId} {n : Node α}
    (hn : s.node? id = some n) : s.withGuid? n.guid = some id := by
  cases hfound : s.withGuid? n.guid with
  | none =>
    have hself : (s.node? id).any (·.guid == n.guid) = true := by
      rw [hn, Option.any_some]
      exact beq_self_eq_true _
    exact absurd hself (List.find?_eq_none.mp hfound id (List.mem_range.mpr (lt_size_of_node? hn)))
  | some k =>
    have hk := List.find?_some hfound
    cases hm : s.node? k with
    | none =>
      rw [hm] at hk
      cases hk
    | some m =>
      rw [hm, Option.any_some, beq_iff_eq] at hk
      rw [h k id m n hm hn hk]

/-- A node of a scene that was moved about is a node of the scene before, with the same id. -/
theorem Relaid.exists_node?_before {u : Scene α} (h : s.Relaid u) {id : NodeId} {k : Node α}
    (hk : u.node? id = some k) : ∃ n, s.node? id = some n ∧ k.guid = n.guid := by
  rcases h.cases_node? id with ⟨-, hnone⟩ | ⟨n, k', hn, hk', hmoved⟩
  · rw [hnone] at hk
    cases hk
  · obtain rfl := Option.some.inj (hk.symm.trans hk')
    refine ⟨n, hn, ?_⟩
    rw [← hmoved]

end Scene

/-! ### The ids in requests -/

/-- Every request has a node of the scene with its id. -/
def Ledger.NamesNodes {α : Type} (s : Scene α) (l : Ledger α) : Prop :=
  ∀ q ∈ l.manifest.requests, ∃ n, s.node? q.node = some n ∧ q.guid = n.guid

namespace Compiler
open Compile

variable {α : Type} [Scalar α] {c : Compiler α}

theorem namesNodes_picture (t : Target α) {id : NodeId} {n : Node α}
    (hn : c.scene.node? id = some n) (name : String) :
    (c.picture t id n name).Keeps (Ledger.NamesNodes c.scene) := by
  intro l hl q hq
  rcases List.mem_append.mp hq with hq | hq
  · exact hl q hq
  · obtain rfl := List.mem_singleton.mp hq
    exact ⟨n, hn, rfl⟩

theorem namesNodes_roots (ids : List NodeId) :
    (c.roots (c.scene.branches ids)).Keeps (Ledger.NamesNodes c.scene) := by
  refine keeps_roots (fun b hb p hp => ?_) fun _ _ hl => hl
  obtain ⟨id, -, hbranch⟩ := List.mem_filterMap.mp hb
  exact namesNodes_picture _ (Branch.node?_of_mem_nodes hbranch hp)

end Compiler

namespace Export
variable {α : Type} [Scalar α] {t after : ElasticScene α}

/-- Whatever is exported, each request has a node of the document as it was, with the node's id. -/
theorem requests_nameNodes {selection : List NodeId} {context : Context α} {e : Export α}
    (h : ofSelection t selection context = .ok (after, e)) :
    ∀ q ∈ e.manifest.requests, ∃ n, t.scene.node? q.node = some n ∧ q.guid = n.guid := by
  obtain ⟨r, -, hmeasure, he⟩ := ofSelection_eq_ok h
  have hrelaid : t.scene.Relaid after.scene := by
    have := relaid_measure t context r
    rwa [hmeasure] at this
  intro q hq
  rw [he] at hq
  obtain ⟨k, hk, hguid⟩ := Compiler.namesNodes_roots (c := ⟨after.scene, context, e.measurements⟩)
    r.ids Ledger.empty (fun _ hq => nomatch hq) q hq
  obtain ⟨n, hn, hsame⟩ := hrelaid.exists_node?_before hk
  exact ⟨n, hn, hguid.trans hsame⟩

end Export

/-! ### A loaded document -/

namespace Snapshot
variable {α : Type} [Scalar α]

/-- For every snapshot that loads: two nodes have one id just when the record of one of them gives
the id that is generated for the other one, whose record gives none. When no record does that, no
two nodes have one id, the id of a node leads to the node, and so does the id in every request of
every export of the document, to the node that the picture is of. -/
theorem guids_identify {entries : List (Entry α)} {t : ElasticScene α} (h : load entries = .ok t) :
    (∀ j k m n, t.scene.node? j = some m → t.scene.node? k = some n → j ≠ k →
      (m.guid = n.guid ↔ GivesGenerated (Entry.recordsAll entries) j k ∨
        GivesGenerated (Entry.recordsAll entries) k j)) ∧
    ((∀ j k, ¬ GivesGenerated (Entry.recordsAll entries) j k) →
      t.scene.GuidsDistinct ∧
      (∀ id n, t.scene.node? id = some n → t.scene.withGuid? n.guid = some id) ∧
      ∀ selection context after e, Export.ofSelection t selection context = .ok (after, e) →
        ∀ q ∈ e.manifest.requests, ∃ n, t.scene.node? q.node = some n ∧ q.guid = n.guid ∧
          t.scene.withGuid? q.guid = some q.node) := by
  obtain ⟨hne, hsound⟩ := sound_of_load h
  obtain ⟨u, hu, hloaded⟩ := exists_loaded hne hsound
  obtain rfl := Except.ok.inj (h.symm.trans hu)
  refine ⟨fun j k m n hm hn hne => guid_eq_iff hloaded hsound hm hn hne, fun hclear => ?_⟩
  have hdistinct : t.scene.GuidsDistinct := by
    intro j k m n hm hn hguid
    by_contra hne
    exact ((guid_eq_iff hloaded hsound hm hn hne).mp hguid).elim (hclear j k) (hclear k j)
  refine ⟨hdistinct, fun id n => hdistinct.withGuid?, fun selection context after e he q hq => ?_⟩
  obtain ⟨n, hn, hguid⟩ := Export.requests_nameNodes he q hq
  refine ⟨n, hn, hguid, ?_⟩
  rw [hguid]
  exact hdistinct.withGuid? hn

/-- The screen gives two ids and leaves out one; the pictures are asked for by the id that was given
and by the one that was not. -/
theorem title_screen_identified :
    ∃ t after e, load titleScreen = .ok t ∧ t.scene.GuidsDistinct ∧
      Export.ofSelection t [] Export.wholeContext = .ok (after, e) ∧
      e.manifest.requests.map (·.guid) = ["title", "00001-4"] ∧
      ∀ q ∈ e.manifest.requests, t.scene.withGuid? q.guid = some q.node := by
  obtain ⟨t, ht⟩ : ∃ t, load titleScreen = .ok t := ⟨_, rfl⟩
  have hclear : ∀ j k, ¬ GivesGenerated (Entry.recordsAll titleScreen) j k :=
    not_givesGenerated_of_lt (by decide +kernel)
  have hrequests : ((load titleScreen).toOption.bind fun t =>
      (Export.ofSelection t [] Export.wholeContext).toOption.map
        (·.2.manifest.requests.map (·.guid))) = some ["title", "00001-4"] := by
    decide +kernel
  rw [ht] at hrequests
  obtain ⟨⟨after, e⟩, he, hguids⟩ := eq_ok_of_map_toOption hrequests
  obtain ⟨-, hidentify⟩ := guids_identify ht
  obtain ⟨hdistinct, -, hrequest⟩ := hidentify hclear
  refine ⟨t, after, e, ht, hdistinct, he, hguids, fun q hq => ?_⟩
  obtain ⟨-, -, -, hfound⟩ := hrequest [] Export.wholeContext after e he q hq
  exact hfound

/-- Two boards. The first one gives the id that the second one gets, having none. -/
def namesakes : List (Entry Float) :=
  [.mk { guid := some "00001-1", name := "a", kind := .artboard,
         bounds := ⟨0.0, 0.0, 10.0, 10.0⟩ } [],
   .mk { name := "b", kind := .artboard, bounds := ⟨20.0, 0.0, 10.0, 10.0⟩ } []]

/-- The two boards are loaded and have one id, and it leads to the first one. -/
theorem namesakes_not_distinct :
    ¬ ∀ (entries : List (Entry Float)) t, load entries = .ok t →
      t.scene.GuidsDistinct ∧
        ∀ id n, t.scene.node? id = some n → t.scene.withGuid? n.guid = some id := by
  intro h
  obtain ⟨t, ht⟩ : ∃ t, load namesakes = .ok t := ⟨_, rfl⟩
  have hguid : ((load namesakes).toOption.bind fun t => (t.scene.node? 1).map (·.guid)) =
      some "00001-1" := by
    decide +kernel
  have hfirst : ((load namesakes).toOption.bind fun t => t.scene.withGuid? "00001-1") = some 0 := by
    decide +kernel
  rw [ht] at hguid hfirst
  obtain ⟨n, hn, hname⟩ := Option.map_eq_some_iff.mp hguid
  have hsecond := (h namesakes t ht).2 1 n hn
  rw [hname] at hsecond
  exact absurd (hfirst.symm.trans hsecond) (by decide)

end Snapshot
end DesignLayout
