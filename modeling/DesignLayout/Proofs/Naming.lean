import DesignLayout.Rendition
import Mathlib.Data.List.Nodup
import Mathlib.Data.List.Perm.Subperm
import Std.Data.String.ToNat

/-! The names of the pictures.

The candidates for a name differ from one another (`candidate_injective`), the first two and the
numbered ones by their lengths and the numbered ones by their numbers. So among one more candidates
than there are requests one is free, the name that is given is not taken (`freeName_notMem_files`),
and the names of a manifest stay without repetitions (`nodup_files_register`). -/
namespace DesignLayout

theorem Text.length_fileName (replaceDots : Bool) (name : String) :
    (fileName replaceDots name).length = name.length := by
  rw [fileName, String.length_ofList, List.length_map, String.length_toList]

namespace Manifest
variable {α : Type}

theorem candidate_zero (base guid : String) : candidate base guid 0 = base := rfl

theorem candidate_one (base guid : String) : candidate base guid 1 = stemName base guid := rfl

theorem candidate_add_two (base guid : String) (n : Nat) :
    candidate base guid (n + 2) = stemName base guid ++ "_" ++ Nat.repr (n + 2) := rfl

theorem length_lt_stemName (base guid : String) : base.length < (stemName base guid).length := by
  have : "_".length = 1 := by decide
  rw [stemName, Text.pictureName, Text.length_fileName, String.length_append, String.length_append]
  omega

theorem length_stemName_lt (base guid : String) (n : Nat) :
    (stemName base guid).length < (candidate base guid (n + 2)).length := by
  have : "_".length = 1 := by decide
  rw [candidate_add_two, String.length_append, String.length_append]
  omega

theorem candidate_injective (base guid : String) : Function.Injective (candidate base guid) := by
  have hstem := length_lt_stemName base guid
  have hnumbered := length_stemName_lt base guid
  -- The numbered candidates are longer than the first two, and differ in their numbers.
  have key : ∀ m n, m < n → candidate base guid m ≠ candidate base guid n := by
    intro m n hlt h
    have hlen := congrArg String.length h
    rcases n with _ | _ | n
    · omega
    · obtain rfl : m = 0 := by omega
      rw [candidate_zero, candidate_one] at hlen
      omega
    · change _ = (candidate base guid (n + 2)).length at hlen
      have := hnumbered n
      rcases m with _ | _ | m
      · rw [candidate_zero] at hlen
        omega
      · rw [candidate_one] at hlen
        omega
      · rw [candidate_add_two, candidate_add_two, String.append_right_inj] at h
        have := Nat.repr_injective h
        omega
  intro m n h
  by_contra hne
  rcases Nat.lt_or_gt_of_ne hne with hlt | hgt
  · exact key m n hlt h
  · exact key n m hgt h.symm

/-- One of the candidates that are tried is free: they are more than the names taken. -/
theorem exists_free (m : Manifest α) (base guid : String) :
    ∃ n ∈ List.range (m.size + 1), candidate base guid n ∉ m.files := by
  by_contra hall
  push Not at hall
  have hsub : ((List.range (m.size + 1)).map (candidate base guid)).Subperm m.files := by
    refine (List.nodup_range.map (candidate_injective base guid)).subperm fun file hfile => ?_
    obtain ⟨n, hn, rfl⟩ := List.mem_map.mp hfile
    exact hall n hn
  have hle := hsub.length_le
  simp only [files, List.length_map, List.length_range] at hle
  exact absurd hle (Nat.not_succ_le_self _)

theorem freeName_notMem_files (m : Manifest α) (base guid : String) :
    m.freeName base guid ∉ m.files := by
  unfold freeName contains
  obtain ⟨n, hn, hfree⟩ := m.exists_free base guid
  cases hfind : (List.range (m.size + 1)).find? fun n =>
      !m.files.contains (candidate base guid n) with
  | none =>
    have htaken := List.find?_eq_none.mp hfind n hn
    simp [hfree] at htaken
  | some k =>
    have hk := List.find?_some hfind
    simpa using hk

@[simp] theorem files_empty : (empty : Manifest α).files = [] := rfl

theorem nodup_files_register {m : Manifest α} (h : m.files.Nodup) (node : NodeId)
    (guid parent role folder : String) (scale : α) :
    (m.register node guid parent role folder scale).2.files.Nodup := by
  rw [files, register, List.map_append]
  refine List.Nodup.append h (List.nodup_singleton _) ?_
  rw [List.map_singleton, List.disjoint_singleton]
  exact m.freeName_notMem_files _ _

end Manifest
end DesignLayout
