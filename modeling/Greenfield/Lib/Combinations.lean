import Mathlib.Data.Finset.Powerset
import Mathlib.Data.List.Sublists

/-!
# Combinations

The sublists of a given length in the order of the positions of their elements. Of a list without
duplicates they are its subsets of that size, each once (`countP_combinations`).
-/

namespace Combinations

variable {α : Type} {k : ℕ} {c l : List α}

def combinations : ℕ → List α → List (List α)
  | 0, _ => [[]]
  | _ + 1, [] => []
  | k + 1, x :: l => (combinations k l).map (x :: ·) ++ combinations (k + 1) l

theorem perm_sublistsLen (k : ℕ) (l : List α) : (combinations k l).Perm (l.sublistsLen k) := by
  induction l generalizing k with
  | nil => cases k <;> simp [combinations]
  | cons x l ih =>
    cases k with
    | zero => simp [combinations]
    | succ k =>
      rw [combinations, List.sublistsLen_succ_cons]
      exact (((ih k).map _).append (ih (k + 1))).trans List.perm_append_comm

theorem length_combinations (k : ℕ) (l : List α) :
    (combinations k l).length = l.length.choose k := by
  rw [(perm_sublistsLen k l).length_eq, List.length_sublistsLen]

theorem mem_combinations : c ∈ combinations k l ↔ c.Sublist l ∧ c.length = k := by
  rw [(perm_sublistsLen k l).mem_iff, List.mem_sublistsLen]

section

variable [DecidableEq α]

/-- A part of a list without duplicates is what the list has of its members. -/
theorem filter_members (hl : l.Nodup) (h : c.Sublist l) : l.filter (· ∈ c) = c := by
  have hsub : c.Sublist (l.filter (· ∈ c)) := by
    have hfilter := h.filter (· ∈ c)
    rwa [List.filter_eq_self.mpr (by simp)] at hfilter
  have hmembers : l.filter (· ∈ c) ⊆ c := fun x hx => by simpa using (List.mem_filter.mp hx).2
  exact (hsub.eq_of_length_le ((hl.filter _).subperm hmembers).length_le).symm

/-- **The combinations are the subsets of their size.** -/
theorem countP_combinations (hl : l.Nodup) (p : Finset α → Bool) :
    (combinations k l).countP (fun c => p c.toFinset) =
      ((l.toFinset.powersetCard k).filter (p ·)).card := by
  have hnodup : ((combinations k l).map List.toFinset).Nodup := by
    refine ((perm_sublistsLen k l).nodup_iff.mpr (List.nodup_sublistsLen k hl)).map_on ?_
    intro c hc d hd heq
    rw [← filter_members hl (mem_combinations.mp hc).1,
      ← filter_members hl (mem_combinations.mp hd).1]
    exact List.filter_congr fun x _ => by simp [← List.mem_toFinset, heq]
  have hset : ((combinations k l).map List.toFinset).toFinset = l.toFinset.powersetCard k := by
    ext t
    simp only [List.mem_toFinset, List.mem_map, mem_combinations, Finset.mem_powersetCard]
    constructor
    · rintro ⟨c, ⟨hsub, hlen⟩, rfl⟩
      refine ⟨fun x hx => ?_, ?_⟩
      · exact List.mem_toFinset.mpr (hsub.subset (List.mem_toFinset.mp hx))
      · rw [List.toFinset_card_of_nodup (hl.sublist hsub), hlen]
    · rintro ⟨hsub, hcard⟩
      have ht : (l.filter (· ∈ t)).toFinset = t := by
        ext x
        simpa using fun hx => List.mem_toFinset.mp (hsub hx)
      refine ⟨l.filter (· ∈ t), ⟨List.filter_sublist, ?_⟩, ht⟩
      rw [← List.toFinset_card_of_nodup (hl.filter _), ht, hcard]
  calc (combinations k l).countP (fun c => p c.toFinset)
      = (((combinations k l).map List.toFinset).filter p).length := by
        rw [← List.countP_eq_length_filter, List.countP_map]
        rfl
    _ = (((combinations k l).map List.toFinset).filter p).toFinset.card :=
        (List.toFinset_card_of_nodup (hnodup.filter _)).symm
    _ = ((l.toFinset.powersetCard k).filter (p ·)).card := by rw [List.toFinset_filter, hset]

end

end Combinations
