import Mathlib.Data.List.Basic
import Mathlib.Order.Lattice

/-!
# As-of joins

What is known at a time: of the items whose key is not after it, the last one. In a list in the
order of its keys this is found by bisection (`backward_eq_getElem`).
-/

namespace AsOf

variable {α τ κ : Type} [LinearOrder τ]

/-- The items up to a time. -/
def upTo (key : α → τ) (xs : List α) (d : τ) : List α := xs.filter fun x => decide (key x ≤ d)

variable {key : α → τ} {xs : List α}

theorem mem_upTo {d : τ} {x : α} :
    x ∈ upTo key xs d ↔ x ∈ xs ∧ key x ≤ d := by
  simp [upTo]

/-- The last item up to a time. -/
def backward (key : α → τ) (xs : List α) (d : τ) : Option α := (upTo key xs d).getLast?

/-- The item is the greatest of those that are visible. -/
structure Latest [LE κ] (rank : α → κ) (visible : List α) (x : α) : Prop where
  seen : x ∈ visible
  greatest : ∀ y ∈ visible, rank y ≤ rank x

variable {rank : α → κ}

theorem Latest.congr [LE κ] {visible visible' : List α} {x : α}
    (hmem : ∀ y, y ∈ visible ↔ y ∈ visible') (h : Latest rank visible x) :
    Latest rank visible' x :=
  ⟨(hmem x).mp h.seen, fun y hy => h.greatest y ((hmem y).mpr hy)⟩

/-- Where the ranks are distinct, only one item is the latest. -/
theorem Latest.unique [PartialOrder κ] {visible : List α} {x y : α}
    (hinj : ∀ a ∈ visible, ∀ b ∈ visible, rank a = rank b → a = b)
    (hx : Latest rank visible x) (hy : Latest rank visible y) : x = y :=
  hinj x hx.seen y hy.seen
    (le_antisymm (hy.greatest x hx.seen) (hx.greatest y hy.seen))

/-- The last item of a list in the order of its ranks is the latest. -/
theorem latest_getLast [Preorder κ] : ∀ {xs : List α} {x : α},
    xs.Pairwise (fun a b => rank a ≤ rank b) → xs.getLast? = some x → Latest rank xs x
  | [], _, _, hlast => by cases hlast
  | [y], x, _, hlast => by
    cases hlast
    refine ⟨List.mem_singleton_self _, fun z hz => ?_⟩
    rw [List.mem_singleton.mp hz]
    exact le_refl (rank y)
  | y :: z :: zs, x, hsorted, hlast => by
    obtain ⟨hy, hrest⟩ := List.pairwise_cons.mp hsorted
    rw [List.getLast?_cons_cons] at hlast
    have ih := latest_getLast hrest hlast
    refine ⟨List.mem_cons_of_mem y ih.seen, fun w hw => ?_⟩
    rcases List.mem_cons.mp hw with rfl | hw
    · exact hy x ih.seen
    · exact ih.greatest w hw

/-! ## Bisection -/

/-- The loop of `bisect.bisect_right` between `lo` and `hi`. -/
def bisectLoop (times : List τ) (d : τ) : ℕ → ℕ → ℕ → ℕ
  | 0, lo, _ => lo
  | fuel + 1, lo, hi =>
    if lo < hi then
      let mid := (lo + hi) / 2
      match times[mid]? with
      | none => lo
      | some t => if d < t then bisectLoop times d fuel lo mid else bisectLoop times d fuel (mid + 1) hi
    else lo

/-- `bisect.bisect_right`. -/
def bisectRight (times : List τ) (d : τ) : ℕ := bisectLoop times d times.length 0 times.length

variable {times : List τ}

/-- **Bisection** splits the list: what is before the answer is not after the time, and what is
from it on is. -/
theorem bisectLoop_spec {d : τ} (hsorted : times.Pairwise (· ≤ ·)) :
    ∀ (fuel lo hi : ℕ), lo ≤ hi → hi ≤ times.length → hi - lo ≤ fuel →
      (∀ i (h : i < times.length), i < lo → times[i] ≤ d) →
      (∀ i (h : i < times.length), hi ≤ i → d < times[i]) →
      bisectLoop times d fuel lo hi ≤ times.length ∧
      (∀ i (h : i < times.length), i < bisectLoop times d fuel lo hi → times[i] ≤ d) ∧
      ∀ i (h : i < times.length), bisectLoop times d fuel lo hi ≤ i → d < times[i]
  | 0, lo, hi, hlh, hhi, hfuel, hlow, hhigh => by
    obtain rfl : lo = hi := by omega
    exact ⟨hhi, hlow, hhigh⟩
  | fuel + 1, lo, hi, hlh, hhi, hfuel, hlow, hhigh => by
    have hle : ∀ i j (hi : i < times.length) (hj : j < times.length), i ≤ j →
        times[i] ≤ times[j] := by
      intro i j hi hj hij
      rcases Nat.eq_or_lt_of_le hij with rfl | hij
      · exact le_refl _
      · exact List.pairwise_iff_getElem.mp hsorted i j hi hj hij
    unfold bisectLoop
    split
    · next hlt =>
      have hmid : (lo + hi) / 2 < times.length := by omega
      simp only [List.getElem?_eq_getElem hmid]
      split
      · next hafter =>
        refine bisectLoop_spec hsorted fuel lo ((lo + hi) / 2) (by omega) (by omega) (by omega)
          hlow fun i h hge => ?_
        exact lt_of_lt_of_le hafter (hle _ _ hmid h hge)
      · next hnot =>
        refine bisectLoop_spec hsorted fuel ((lo + hi) / 2 + 1) hi (by omega) hhi (by omega)
          (fun i h hlti => ?_) hhigh
        exact (hle _ _ h hmid (by omega)).trans (not_lt.mp hnot)
    · obtain rfl : lo = hi := by omega
      exact ⟨hhi, hlow, hhigh⟩

theorem bisectRight_spec (hsorted : times.Pairwise (· ≤ ·)) (d : τ) :
    bisectRight times d ≤ times.length ∧
    (∀ i (h : i < times.length), i < bisectRight times d → times[i] ≤ d) ∧
    ∀ i (h : i < times.length), bisectRight times d ≤ i → d < times[i] :=
  bisectLoop_spec hsorted _ 0 _ (Nat.zero_le _) (Nat.le_refl _) (by omega)
    (fun i _ hi => absurd hi (Nat.not_lt_zero i)) fun i h hi => absurd h (by omega)

/-- What is up to a time is what bisection puts before it. -/
theorem upTo_eq_take (hsorted : xs.Pairwise fun a b => key a ≤ key b)
    (d : τ) : upTo key xs d = xs.take (bisectRight (xs.map key) d) := by
  obtain ⟨-, hlow, hhigh⟩ := bisectRight_spec (List.pairwise_map.mpr hsorted) d
  generalize bisectRight (xs.map key) d = n at hlow hhigh ⊢
  have htake : (xs.take n).filter (fun x => decide (key x ≤ d)) = xs.take n := by
    refine List.filter_eq_self.mpr fun x hx => decide_eq_true ?_
    obtain ⟨i, hi, rfl⟩ := List.mem_iff_getElem.mp hx
    rw [List.length_take] at hi
    have hle := hlow i (by rw [List.length_map]; omega) (by omega)
    rw [List.getElem_map] at hle
    rw [List.getElem_take]
    exact hle
  have hdrop : (xs.drop n).filter (fun x => decide (key x ≤ d)) = [] := by
    refine List.filter_eq_nil_iff.mpr fun x hx => ?_
    obtain ⟨i, hi, rfl⟩ := List.mem_iff_getElem.mp hx
    have hlength : n + i < xs.length := by
      rw [List.length_drop] at hi
      omega
    have hlt := hhigh (n + i) (by rw [List.length_map]; omega) (Nat.le_add_right n i)
    rw [List.getElem_map] at hlt
    rw [List.getElem_drop, decide_eq_true_eq]
    exact not_le.mpr hlt
  calc upTo key xs d = (xs.take n ++ xs.drop n).filter fun x => decide (key x ≤ d) := by
        rw [List.take_append_drop]
        rfl
    _ = xs.take n := by rw [List.filter_append, htake, hdrop, List.append_nil]

/-- **The last item up to a time** is the one before the answer of the bisection, if there is one. -/
theorem backward_eq_getElem
    (hsorted : xs.Pairwise fun a b => key a ≤ key b) (d : τ) : backward key xs d =
      if bisectRight (xs.map key) d = 0 then none else xs[bisectRight (xs.map key) d - 1]? := by
  have hlength := (bisectRight_spec (List.pairwise_map.mpr hsorted) d).1
  rw [List.length_map] at hlength
  unfold backward
  rw [upTo_eq_take hsorted]
  split
  · next hzero =>
    rw [hzero]
    rfl
  · next hpos =>
    rw [List.getLast?_eq_getElem?, List.length_take, Nat.min_eq_left hlength,
      List.getElem?_take_of_lt (by omega)]

end AsOf
