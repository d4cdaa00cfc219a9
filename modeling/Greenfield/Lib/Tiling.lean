import Mathlib.Data.List.Basic
import Mathlib.Order.Lattice

/-!
# Tilings

`Tiles lo hi s e ws`: the half-open intervals from `lo w` to `hi w` are consecutive from `s` to
`e`. They cover exactly what is from `s` up to `e` (`Tiles.covers`), each point once
(`Tiles.pairwise`).
-/

namespace Tiling

variable {ι α : Type} [LinearOrder α] {lo hi : ι → α} {s e t : α} {w : ι} {ws : List ι}

inductive Tiles (lo hi : ι → α) : α → α → List ι → Prop where
  | nil (s : α) : Tiles lo hi s s []
  | cons {s e : α} {w : ι} {ws : List ι} (hstart : lo w = s) (hlt : lo w < hi w)
      (h : Tiles lo hi (hi w) e ws) : Tiles lo hi s e (w :: ws)

namespace Tiles

theorem le (h : Tiles lo hi s e ws) : s ≤ e := by
  induction h with
  | nil s => exact le_rfl
  | cons hstart hlt _ ih =>
    rw [← hstart]
    exact hlt.le.trans ih

/-- The intervals start at the first bound or later. -/
theorem le_lo (h : Tiles lo hi s e ws) : ∀ w ∈ ws, s ≤ lo w := by
  induction h with
  | nil s => exact nofun
  | cons hstart hlt _ ih =>
    refine List.forall_mem_cons.mpr ⟨hstart.ge, fun v hv => ?_⟩
    rw [← hstart]
    exact hlt.le.trans (ih v hv)

theorem hi_le (h : Tiles lo hi s e ws) : ∀ w ∈ ws, hi w ≤ e := by
  induction h with
  | nil s => exact nofun
  | cons _ _ h ih => exact List.forall_mem_cons.mpr ⟨h.le, ih⟩

theorem lo_lt (h : Tiles lo hi s e ws) : ∀ w ∈ ws, lo w < hi w := by
  induction h with
  | nil s => exact nofun
  | cons _ hlt _ ih => exact List.forall_mem_cons.mpr ⟨hlt, ih⟩

/-- The intervals do not overlap. -/
theorem pairwise (h : Tiles lo hi s e ws) : ws.Pairwise fun a b => hi a ≤ lo b := by
  induction h with
  | nil s => exact List.Pairwise.nil
  | cons _ _ h ih => exact List.pairwise_cons.mpr ⟨h.le_lo, ih⟩

theorem covers (h : Tiles lo hi s e ws) :
    (∃ w ∈ ws, lo w ≤ t ∧ t < hi w) ↔ s ≤ t ∧ t < e := by
  induction h with
  | nil s =>
    constructor
    · rintro ⟨w, hw, -⟩
      cases hw
    · rintro ⟨hs, he⟩
      exact absurd he (not_lt.mpr hs)
  | @cons s e w ws hstart hlt h ih =>
    rw [List.exists_mem_cons_iff, ih, ← hstart]
    constructor
    · rintro (⟨hlo, hhi⟩ | ⟨hhi, he⟩)
      · exact ⟨hlo, hhi.trans_le h.le⟩
      · exact ⟨hlt.le.trans hhi, he⟩
    · rintro ⟨hlo, he⟩
      rcases lt_or_ge t (hi w) with hhi | hhi
      · exact .inl ⟨hlo, hhi⟩
      · exact .inr ⟨hhi, he⟩

/-- A point is in one interval, or it is outside of the bounds. -/
theorem countP_covers (h : Tiles lo hi s e ws) (t : α) :
    ws.countP (fun w => decide (lo w ≤ t ∧ t < hi w)) = if s ≤ t ∧ t < e then 1 else 0 := by
  induction h with
  | nil s =>
    have hnone : ¬(s ≤ t ∧ t < s) := fun h => absurd h.2 (not_lt.mpr h.1)
    simp [hnone]
  | @cons s e w ws hstart hlt h ih =>
    rw [List.countP_cons, ih, ← hstart]
    have hle := h.le
    by_cases hlo : lo w ≤ t
    · by_cases hhi : t < hi w
      · simp [hlo, hhi, not_le.mpr hhi, hhi.trans_le hle]
      · simp [hlo, hhi, not_lt.mp hhi]
    · have hbefore : ¬hi w ≤ t := fun h => hlo (hlt.le.trans h)
      simp [hlo, hbefore]

/-- The last interval ends at the last bound. -/
theorem hi_getLast (h : Tiles lo hi s e ws) : ∀ w ∈ ws.getLast?, hi w = e := by
  induction h with
  | nil s => exact nofun
  | @cons s e w ws _ _ h ih =>
    cases h with
    | nil => simp
    | cons hstart hlt h => simpa using ih

end Tiles

end Tiling
