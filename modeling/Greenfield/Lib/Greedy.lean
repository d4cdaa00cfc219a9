import Mathlib.Data.List.Pairwise

/-!
# Greedy selection

Of a ranked list, each item that clashes with none of those taken before it is taken, up to a count.
What is left out clashes with an item that is ranked no later, or comes after the count is full
(`greedy_maximal`).
-/

namespace Greedy

variable {α : Type} (clash : α → α → Bool) (count : ℕ)

/-- What is taken after an item was looked at. -/
def takeOne (taken : List α) (x : α) : List α :=
  if taken.all fun t => !clash x t then taken ++ [x] else taken

/-- The items taken, after those of `taken`. -/
def greedy : List α → List α → List α
  | taken, [] => taken
  | taken, x :: rest =>
    if count ≤ (takeOne clash taken x).length then takeOne clash taken x
    else greedy (takeOne clash taken x) rest

variable {clash count}

/-! ## One item -/

theorem takeOne_cases (clash : α → α → Bool) (taken : List α) (x : α) :
    (takeOne clash taken x = taken ++ [x] ∧ ∀ t ∈ taken, clash x t = false) ∨
      (takeOne clash taken x = taken ∧ ∃ t ∈ taken, clash x t = true) := by
  unfold takeOne
  split
  · next hall =>
    exact .inl ⟨rfl, fun t ht => by simpa using List.all_eq_true.mp hall t ht⟩
  · next hall =>
    obtain ⟨t, ht, hclash⟩ := List.all_eq_false.mp (Bool.eq_false_iff.mpr hall)
    exact .inr ⟨rfl, t, ht, by simpa using hclash⟩

variable {taken : List α} {x t : α}

theorem mem_takeOne_of_mem (ht : t ∈ taken) : t ∈ takeOne clash taken x := by
  rcases takeOne_cases clash taken x with ⟨h, -⟩ | ⟨h, -⟩
  · rw [h]
    exact List.mem_append_left _ ht
  · rwa [h]

theorem mem_takeOne (h : t ∈ takeOne clash taken x) : t ∈ taken ∨ t = x := by
  rcases takeOne_cases clash taken x with ⟨heq, -⟩ | ⟨heq, -⟩
  · rw [heq, List.mem_append, List.mem_singleton] at h
    exact h
  · rw [heq] at h
    exact .inl h

theorem length_takeOne_le : (takeOne clash taken x).length ≤ taken.length + 1 := by
  rcases takeOne_cases clash taken x with ⟨h, -⟩ | ⟨h, -⟩
  · have hlength := congrArg List.length h
    rw [List.length_append, List.length_singleton] at hlength
    exact Nat.le_of_eq hlength
  · rw [h]
    exact Nat.le_succ _

/-! ## The run -/

theorem mem_greedy_of_mem : ∀ {ranked taken : List α}, t ∈ taken → t ∈ greedy clash count taken ranked
  | [], _, ht => ht
  | x :: rest, taken, ht => by
    unfold greedy
    split
    · exact mem_takeOne_of_mem ht
    · exact mem_greedy_of_mem (mem_takeOne_of_mem ht)

theorem mem_greedy : ∀ {ranked taken : List α}, t ∈ greedy clash count taken ranked →
    t ∈ taken ∨ t ∈ ranked
  | [], _, ht => .inl ht
  | x :: rest, taken, ht => by
    unfold greedy at ht
    have hone : t ∈ takeOne clash taken x → t ∈ taken ∨ t ∈ x :: rest := fun h =>
      (mem_takeOne h).imp id fun heq => List.mem_cons.mpr (.inl heq)
    split at ht
    · exact hone ht
    · exact (mem_greedy ht).elim hone fun h => .inr (List.mem_cons_of_mem x h)

theorem length_greedy_le : ∀ {ranked taken : List α}, taken.length < count →
    (greedy clash count taken ranked).length ≤ count
  | [], _, h => Nat.le_of_lt h
  | x :: rest, taken, h => by
    unfold greedy
    split
    · exact Nat.le_trans length_takeOne_le h
    · next hroom => exact length_greedy_le (Nat.not_le.mp hroom)

/-- **Items that are taken** do not clash with those before them. -/
theorem greedy_pairwise : ∀ {ranked taken : List α},
    (taken.Pairwise fun t x => clash x t = false) →
      (greedy clash count taken ranked).Pairwise fun t x => clash x t = false
  | [], _, h => h
  | x :: rest, taken, h => by
    have hone : (takeOne clash taken x).Pairwise fun t x => clash x t = false := by
      rcases takeOne_cases clash taken x with ⟨heq, hfree⟩ | ⟨heq, -⟩
      · rw [heq]
        refine List.pairwise_append.mpr ⟨h, List.pairwise_singleton _ x, fun t ht y hy => ?_⟩
        rw [List.mem_singleton.mp hy]
        exact hfree t ht
      · rwa [heq]
    unfold greedy
    split
    · exact hone
    · exact greedy_pairwise hone

/-- **What is left out** clashes with an item ranked no later, or comes after the count is full. -/
theorem greedy_maximal {le : α → α → Prop} : ∀ {ranked taken : List α},
    ranked.Pairwise le → (∀ t ∈ taken, ∀ x ∈ ranked, le t x) → taken.length < count →
      ∀ x ∈ ranked, x ∉ greedy clash count taken ranked →
        (∃ t ∈ greedy clash count taken ranked, clash x t = true ∧ le t x) ∨
          (greedy clash count taken ranked).length = count ∧
            ∀ t ∈ greedy clash count taken ranked, le t x
  | [], _, _, _, _, x, hx, _ => absurd hx List.not_mem_nil
  | y :: rest, taken, hranked, hbefore, hcount, x, hx, hout => by
    obtain ⟨hy, hrest⟩ := List.pairwise_cons.mp hranked
    have hone : ∀ t ∈ takeOne clash taken y, ∀ z ∈ rest, le t z := by
      intro t ht z hz
      rcases mem_takeOne ht with ht | rfl
      · exact hbefore t ht z (List.mem_cons_of_mem y hz)
      · exact hy z hz
    have hsub : ∀ t ∈ takeOne clash taken y, t ∈ greedy clash count taken (y :: rest) := by
      intro t ht
      unfold greedy
      split
      · exact ht
      · exact mem_greedy_of_mem ht
    rcases List.mem_cons.mp hx with rfl | hx
    · rcases takeOne_cases clash taken x with ⟨heq, -⟩ | ⟨heq, t, ht, hclash⟩
      · rw [heq] at hsub
        exact absurd (hsub x (List.mem_append_right _ List.mem_cons_self)) hout
      · rw [heq] at hsub
        exact .inl ⟨t, hsub t ht, hclash, hbefore t ht x List.mem_cons_self⟩
    · unfold greedy at hout ⊢
      by_cases hfull : count ≤ (takeOne clash taken y).length
      · rw [if_pos hfull]
        exact .inr ⟨Nat.le_antisymm (Nat.le_trans length_takeOne_le hcount) hfull,
          fun t ht => hone t ht x hx⟩
      · rw [if_neg hfull] at hout ⊢
        exact greedy_maximal hrest hone (Nat.not_le.mp hfull) x hx hout

end Greedy
