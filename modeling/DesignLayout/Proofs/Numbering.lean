import DesignLayout.Proofs.Confinement
import Mathlib.Logic.Function.Iterate

/-! Which names pictures get.

A picture is asked for with the label of its parent, a name of its own and the id of its node. From
these follow the names that it may get: the plain one, then that with a fragment of the id, then
that with a number, from 2 on (`Registration.names`). The search goes on from a name to the next one
while the name is taken. The names differ from one another, so after no more turns than there are
requests it stands at the first one that is free, and stays there (`Manifest.search_ends`). A call
adds one request, under that name, behind those that are there (`Manifest.requests_add`). So after
every run of calls no two requests have one name, all names can stand on disk as they are, and each
was the first free one when it was given (`Manifest.names_first_free`). -/
namespace DesignLayout

/-! ### Names that are kept -/

namespace Text

theorem fileNameChar_true_eq_self_iff (c : Char) :
    fileNameChar true c = c ↔ isReserved c = false ∧ c ≠ '.' := by
  unfold fileNameChar
  constructor
  · intro h
    split at h
    · subst h
      decide
    · rename_i hkept
      simpa using hkept
  · rintro ⟨hplain, hdot⟩
    simp [hplain, hdot]

theorem isReserved_eq_false_iff (c : Char) : isReserved c = false ↔
    c ∉ ['\\', '/', ':', '*', '?', '"', '<', '>', '|', '#'] ∧ 0x20 ≤ c.toNat ∧ c.toNat ≠ 0x7F := by
  simp [isReserved, and_assoc]

theorem fileNameChar_true_ne_dot (c : Char) : fileNameChar true c ≠ '.' := by
  unfold fileNameChar
  split
  · decide
  · rename_i hkept
    rw [Bool.or_eq_true, not_or, Bool.true_and, beq_iff_eq] at hkept
    exact hkept.2

/-- A name is kept when it holds neither reserved characters nor dots. -/
theorem pictureName_eq_self_iff (name : String) :
    pictureName name = name ↔ ∀ c ∈ name.toList, isReserved c = false ∧ c ≠ '.' := by
  simp only [← fileNameChar_true_eq_self_iff]
  rw [← String.toList_inj, pictureName, fileName, String.toList_ofList]
  constructor
  · intro h
    exact List.map_inj_left.mp (h.trans (List.map_id _).symm)
  · intro h
    exact (List.map_inj_left.mpr h).trans (List.map_id _)

theorem pictureName_append (a b : String) :
    pictureName (a ++ b) = pictureName a ++ pictureName b := by
  rw [pictureName, fileName, String.toList_append, List.map_append, String.ofList_append]
  rfl

theorem pictureName_pictureName (name : String) :
    pictureName (pictureName name) = pictureName name := by
  rw [pictureName_eq_self_iff, pictureName, fileName, String.toList_ofList]
  intro c hc
  obtain ⟨d, -, rfl⟩ := List.mem_map.mp hc
  exact ⟨isReserved_fileNameChar true d, fileNameChar_true_ne_dot d⟩

theorem pictureName_repr (n : Nat) : pictureName (Nat.repr n) = Nat.repr n := by
  rw [pictureName_eq_self_iff]
  intro c hc
  refine ⟨isPlain_repr n c hc, ?_⟩
  rintro rfl
  rw [Nat.toList_repr] at hc
  exact absurd (Nat.isDigit_of_mem_toDigits (by decide) (by decide) hc) (by decide)

theorem pictureName_underscore : pictureName "_" = "_" := by
  rw [pictureName_eq_self_iff]
  intro c hc
  obtain rfl : c = '_' := List.mem_singleton.mp hc
  exact ⟨by decide, by decide⟩

end Text

/-! ### The names that a picture may get -/

/-- What one call asks for: a picture of a node, to be named after the label of its parent and a
name of its own. -/
structure Registration (α : Type) where
  node : NodeId
  /-- The id by which the design tool knows the node. -/
  guid : String
  parent : String
  role : String
  folder : String
  scale : α

namespace Registration
variable {α : Type}

/-- The plain name. -/
def base (r : Registration α) : String :=
  Text.pictureName (r.parent ++ " - " ++ r.role)

/-- The first five characters of the node's id, as they can stand in a name. -/
def fragment (r : Registration α) : String :=
  Text.pictureName (String.ofList (r.guid.toList.take 5))

/-- The names that the picture may get, one after the other. -/
def names (r : Registration α) : Nat → String
  | 0 => r.base
  | 1 => r.base ++ "_" ++ r.fragment
  | n + 2 => r.base ++ "_" ++ r.fragment ++ "_" ++ Nat.repr (n + 2)

/-- The request that comes of it under a name. -/
def request (r : Registration α) (file : String) : RenditionRequest α :=
  ⟨file, r.node, r.guid, r.folder, r.scale⟩

theorem stemName_eq (r : Registration α) :
    Manifest.stemName r.base r.guid = r.base ++ "_" ++ r.fragment := by
  rw [Manifest.stemName, Text.pictureName_append, Text.pictureName_append, base,
    Text.pictureName_pictureName, Text.pictureName_underscore]
  rfl

theorem candidate_eq (r : Registration α) (n : Nat) :
    Manifest.candidate (Manifest.baseName r.parent r.role) r.guid n = r.names n := by
  have hstem := r.stemName_eq
  rcases n with _ | _ | n
  · rfl
  · exact hstem
  · exact congrArg (· ++ "_" ++ Nat.repr (n + 2)) hstem

/-- Every one of the names can stand on disk as it is. -/
theorem pictureName_names (r : Registration α) (n : Nat) :
    Text.pictureName (r.names n) = r.names n := by
  have hbase : Text.pictureName r.base = r.base := Text.pictureName_pictureName _
  have hfragment : Text.pictureName r.fragment = r.fragment := Text.pictureName_pictureName _
  rcases n with _ | _ | n <;>
    simp only [names, Text.pictureName_append, Text.pictureName_underscore, Text.pictureName_repr,
      hbase, hfragment]

end Registration

/-! ### One call -/

namespace Manifest
variable {α : Type} {m : Manifest α} {r : Registration α} {n : Nat}

/-- Queues what the call asks for and returns its name. -/
def add (m : Manifest α) (r : Registration α) : String × Manifest α :=
  m.register r.node r.guid r.parent r.role r.folder r.scale

/-- One turn of the search for a name: from a name that is taken to the next one. -/
def turn (m : Manifest α) (r : Registration α) (n : Nat) : Nat :=
  if m.contains (r.names n) then n + 1 else n

/-- This is the first one of the names that no request has. -/
structure FirstFree (m : Manifest α) (r : Registration α) (n : Nat) : Prop where
  free : r.names n ∉ m.files
  taken : ∀ k < n, r.names k ∈ m.files

/-- The search stands at this number after at most as many turns as there are requests, and stays
there: at the first free name. -/
structure SearchEnds (m : Manifest α) (r : Registration α) (n : Nat) : Prop where
  le_size : n ≤ m.size
  stays : ∀ k, n ≤ k → (m.turn r)^[k] 0 = n
  firstFree : m.FirstFree r n

/-- One of the first names is free, one more than there are requests; the first such name is the one
that is given. -/
theorem exists_firstFree (m : Manifest α) (r : Registration α) :
    ∃ n ≤ m.size, m.FirstFree r n ∧ (m.add r).1 = r.names n := by
  obtain ⟨i, hi, hfree⟩ := m.exists_free (baseName r.parent r.role) r.guid
  have hsome : ((List.range (m.size + 1)).find? fun n =>
      !m.contains (candidate (baseName r.parent r.role) r.guid n)).isSome := by
    rw [List.find?_isSome]
    exact ⟨i, hi, by simpa [contains] using hfree⟩
  obtain ⟨n, hn⟩ := Option.isSome_iff_exists.mp hsome
  obtain ⟨hnfree, hnmem, htaken⟩ := List.find?_range_eq_some.mp hn
  simp only [r.candidate_eq, contains, List.contains_eq_mem, Bool.not_eq_true',
    decide_eq_false_iff_not, Bool.not_not, decide_eq_true_eq] at hnfree htaken
  refine ⟨n, Nat.lt_succ_iff.mp (List.mem_range.mp hnmem), ⟨hnfree, htaken⟩, ?_⟩
  show m.freeName _ _ = _
  rw [freeName, hn, Option.getD_some, r.candidate_eq]

/-- After `k` turns the search stands at name number `k`, unless it has ended before. -/
theorem FirstFree.iterate_turn (h : m.FirstFree r n) (k : Nat) : (m.turn r)^[k] 0 = min k n := by
  induction k with
  | zero =>
    rw [Nat.zero_min]
    rfl
  | succ k ih =>
    rw [Function.iterate_succ_apply', ih, turn, contains, List.contains_eq_mem]
    by_cases hk : k < n
    · rw [Nat.min_eq_left (Nat.le_of_lt hk), Nat.min_eq_left hk, decide_eq_true (h.taken k hk)]
      rfl
    · rw [Nat.not_lt] at hk
      rw [Nat.min_eq_right hk, Nat.min_eq_right (Nat.le_succ_of_le hk), decide_eq_false h.free]
      rfl

theorem search_ends (m : Manifest α) (r : Registration α) :
    ∃ n, m.SearchEnds r n ∧ (m.add r).1 = r.names n := by
  obtain ⟨n, hle, hfirst, hname⟩ := m.exists_firstFree r
  refine ⟨n, ⟨hle, fun k hk => ?_, hfirst⟩, hname⟩
  rw [hfirst.iterate_turn, Nat.min_eq_right hk]

theorem requests_add (m : Manifest α) (r : Registration α) :
    (m.add r).2.requests = m.requests ++ [r.request (m.add r).1] := rfl

theorem files_add (m : Manifest α) (r : Registration α) :
    (m.add r).2.files = m.files ++ [(m.add r).1] := by
  rw [files, requests_add, List.map_append]
  rfl

/-! ### A run of calls -/

def addAll (m : Manifest α) (rs : List (Registration α)) : Manifest α :=
  rs.foldl (fun m r => (m.add r).2) m

theorem addAll_append (m : Manifest α) (rs rs' : List (Registration α)) :
    m.addAll (rs ++ rs') = (m.addAll rs).addAll rs' :=
  List.foldl_append

/-- No two requests have one name, and all names can stand on disk as they are. -/
structure WellNamed (m : Manifest α) : Prop where
  nodup : m.files.Nodup
  kept : ∀ file ∈ m.files, Text.pictureName file = file

theorem WellNamed.empty : (empty : Manifest α).WellNamed :=
  ⟨List.nodup_nil, nofun⟩

theorem WellNamed.add (h : m.WellNamed) (r : Registration α) : (m.add r).2.WellNamed where
  nodup := nodup_files_register h.nodup _ _ _ _ _ _
  kept := by
    intro file hfile
    rw [files_add, List.mem_append, List.mem_singleton] at hfile
    rcases hfile with hold | rfl
    · exact h.kept file hold
    · obtain ⟨n, -, hname⟩ := m.search_ends r
      rw [hname, r.pictureName_names]

theorem WellNamed.addAll (h : m.WellNamed) (rs : List (Registration α)) :
    (m.addAll rs).WellNamed := by
  induction rs generalizing m with
  | nil => exact h
  | cons r rest ih => exact ih (h.add r)

/-- Whatever is asked for later, the requests that are there stay as they are, in front. -/
theorem requests_isPrefix_addAll (m : Manifest α) (rs : List (Registration α)) :
    m.requests <+: (m.addAll rs).requests := by
  induction rs generalizing m with
  | nil => exact List.prefix_rfl
  | cons r rest ih =>
    have hfirst : m.requests <+: (m.add r).2.requests := List.prefix_append _ _
    exact hfirst.trans (ih (m.add r).2)

/-- For every run of calls that begins without any request: no two of the requests have one name; no
name holds a separator, another character that is reserved in file names, a dot or an ASCII control,
so that every name is kept where names of pictures are made; exactly the names of the requests count as taken. And for every call of the run:
its search ends, at the first name that is free among those that its picture may get; the picture
gets that name, and its request comes behind those before it, which stay in front to the end of the
run. -/
theorem names_first_free (rs : List (Registration α)) :
    (addAll empty rs).files.Nodup ∧
    (∀ file ∈ (addAll empty rs).files, Text.pictureName file = file ∧
      ∀ c ∈ file.toList, c ∉ ['\\', '/', ':', '*', '?', '"', '<', '>', '|', '#', '.'] ∧
        0x20 ≤ c.toNat ∧ c.toNat ≠ 0x7F) ∧
    (∀ file, (addAll empty rs).contains file = true ↔
      ∃ q ∈ (addAll empty rs).requests, q.file = file) ∧
    ∀ before r after, rs = before ++ r :: after →
      ∃ n, (addAll empty before).SearchEnds r n ∧
        ((addAll empty before).add r).1 = r.names n ∧
        ((addAll empty before).add r).2.requests =
          (addAll empty before).requests ++ [r.request (r.names n)] ∧
        (addAll empty before).requests ++ [r.request (r.names n)] <+:
          (addAll empty rs).requests := by
  obtain ⟨hnodup, hkept⟩ := WellNamed.empty.addAll rs
  refine ⟨hnodup, fun file hfile => ?_, fun file => ?_, ?_⟩
  · have hname := hkept file hfile
    refine ⟨hname, fun c hc => ?_⟩
    obtain ⟨hplain, hdot⟩ := (Text.pictureName_eq_self_iff file).mp hname c hc
    obtain ⟨hseparators, hcontrols⟩ := (Text.isReserved_eq_false_iff c).mp hplain
    exact ⟨fun hmem => (List.mem_append.mp hmem).elim hseparators
      fun hlast => hdot (List.mem_singleton.mp hlast), hcontrols⟩
  · rw [contains, List.contains_iff_mem, files, List.mem_map]
  · rintro before r after rfl
    obtain ⟨n, hends, hname⟩ := (addAll empty before).search_ends r
    have hrequests := (addAll empty before).requests_add r
    have hlater := requests_isPrefix_addAll ((addAll empty before).add r).2 after
    rw [hrequests, hname] at hlater
    refine ⟨n, hends, hname, hname ▸ hrequests, ?_⟩
    rw [addAll_append]
    exact hlater

/-- Two dots whose ids begin alike, after a layer that is called what the second dot would be. -/
def threeDots : List (Registration Float) :=
  [⟨0, "7d3f0-12", "Row", "dot_same-", "Screen", 2.0⟩,
   ⟨1, "same-prefix", "Row", "dot", "Screen", 2.0⟩,
   ⟨2, "same-prefix", "Row", "dot", "Screen", 2.0⟩]

theorem third_dot_numbered :
    (addAll empty threeDots).files = ["Row - dot_same-", "Row - dot", "Row - dot_same-_2"] ∧
    (addAll empty threeDots).files.Nodup ∧
    ∃ n, (addAll empty (threeDots.take 2)).SearchEnds (threeDots[2]) n ∧
      (threeDots[2]).names n = "Row - dot_same-_2" := by
  have hfiles : (addAll empty threeDots).files =
      ["Row - dot_same-", "Row - dot", "Row - dot_same-_2"] := by
    decide +kernel
  have hname : ((addAll empty (threeDots.take 2)).add threeDots[2]).1 = "Row - dot_same-_2" := by
    decide +kernel
  obtain ⟨hnodup, -, -, hcalls⟩ := names_first_free threeDots
  obtain ⟨n, hends, hfile, -⟩ := hcalls (threeDots.take 2) threeDots[2] [] rfl
  exact ⟨hfiles, hnodup, n, hends, hfile.symm.trans hname⟩

end Manifest
end DesignLayout
