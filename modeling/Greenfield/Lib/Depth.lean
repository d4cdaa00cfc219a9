import Greenfield.Lib.Table
import Mathlib.Data.List.Induction

/-!
# Price levels

One side of an order book is a table of quantities by price. A write sets the quantity of a
price, and a zero removes it, so what a list of writes leaves at a price is decided by the last
write there (`find_writeAll`). `collect` skips the zeros instead. That leaves the same exactly
when the list is settled: a price whose last quantity is zero has no other (`same_collect`).
-/

namespace Depth

open Keyed

abbrev Side (κ ν : Type) := Table (Prod.fst : κ × ν → κ)

section Levels

variable {κ ν : Type} [DecidableEq κ] {a b c : Side κ ν} {levels : List (κ × ν)} {price : κ}

/-- The same quantities. -/
def Same (a b : Side κ ν) : Prop := ∀ price, a.find price = b.find price

theorem Same.refl (a : Side κ ν) : Same a a := fun _ => rfl

theorem Same.symm (h : Same a b) : Same b a := fun price => (h price).symm

theorem Same.trans (h : Same a b) (h' : Same b c) : Same a c :=
  fun price => (h price).trans (h' price)

theorem Same.mem (h : Same a b) {level : κ × ν} : level ∈ a.rows ↔ level ∈ b.rows := by
  rw [Table.mem_iff_find, Table.mem_iff_find, h]

theorem Same.rows_ne_nil (h : Same a b) (ha : a.rows ≠ []) : b.rows ≠ [] := by
  obtain ⟨level, hlevel⟩ := List.exists_mem_of_ne_nil _ ha
  exact List.ne_nil_of_mem (h.mem.mp hlevel)

/-- The last quantity at a price. -/
def lastWrite (levels : List (κ × ν)) (price : κ) : Option ν :=
  levels.foldl (fun last level => if level.1 = price then some level.2 else last) none

theorem lastWrite_append (level : κ × ν) : lastWrite (levels ++ [level]) price =
    if level.1 = price then some level.2 else lastWrite levels price := by
  simp [lastWrite]

theorem lastWrite_eq_none : lastWrite levels price = none ↔ ∀ level ∈ levels, level.1 ≠ price := by
  induction levels using List.reverseRecOn with
  | nil => simp [lastWrite]
  | append_singleton levels level ih =>
    rw [lastWrite_append, List.forall_mem_append, List.forall_mem_singleton, ← ih]
    by_cases h : level.1 = price
    · simp [h]
    · simp [h]

theorem lastWrite_mem {quantity : ν} (h : lastWrite levels price = some quantity) :
    (price, quantity) ∈ levels := by
  induction levels using List.reverseRecOn with
  | nil => cases h
  | append_singleton levels level ih =>
    rw [lastWrite_append] at h
    split at h
    · next hprice =>
      cases h
      rw [← hprice]
      exact List.mem_append_right _ (List.mem_singleton_self _)
    · exact List.mem_append_left _ (ih h)

end Levels

variable {κ ν : Type} [DecidableEq κ] [Zero ν] [DecidableEq ν]

def write (side : Side κ ν) (level : κ × ν) : Side κ ν :=
  if level.2 = 0 then side.erase level.1 else side.upsert level

def writeAll (side : Side κ ν) (levels : List (κ × ν)) : Side κ ν := levels.foldl write side

/-- The levels of a list that are not empty; of repeated prices the last one. -/
def collect (levels : List (κ × ν)) : Side κ ν :=
  levels.foldl (fun side level => if level.2 = 0 then side else side.upsert level) Table.empty

variable {side a b : Side κ ν} {levels more : List (κ × ν)} {price : κ}

theorem find_write (level : κ × ν) : (write side level).find price =
    if price = level.1 then (if level.2 = 0 then none else some level) else side.find price := by
  unfold write
  by_cases hzero : level.2 = 0
  · rw [if_pos hzero, if_pos hzero, Table.find_erase]
  · rw [if_neg hzero, if_neg hzero, Table.find_upsert]

theorem writeAll_append : writeAll side (levels ++ more) = writeAll (writeAll side levels) more :=
  List.foldl_append

theorem Same.writeAll (h : Same a b) (levels : List (κ × ν)) :
    Same (writeAll a levels) (writeAll b levels) := by
  induction levels generalizing a b with
  | nil => exact h
  | cons level levels ih =>
    apply ih
    intro price
    rw [find_write, find_write, h price]

/-- What writes leave at a price. -/
theorem find_writeAll : (writeAll side levels).find price =
    match lastWrite levels price with
    | none => side.find price
    | some quantity => if quantity = 0 then none else some (price, quantity) := by
  induction levels using List.reverseRecOn with
  | nil => rfl
  | append_singleton levels level ih =>
    rw [writeAll_append, lastWrite_append]
    show (write _ level).find price = _
    rw [find_write]
    by_cases h : level.1 = price
    · subst h
      simp
    · rw [if_neg (Ne.symm h), if_neg h, ih]

/-! ## Collecting -/

/-- The levels that are not empty. -/
def filled (levels : List (κ × ν)) : List (κ × ν) := levels.filter fun level => level.2 ≠ 0

omit [DecidableEq κ] in
theorem filled_append (level : κ × ν) : filled (levels ++ [level]) =
    if level.2 = 0 then filled levels else filled levels ++ [level] := by
  by_cases h : level.2 = 0
  · simp [filled, h]
  · simp [filled, h]

omit [DecidableEq κ] in
theorem mem_filled {level : κ × ν} : level ∈ filled levels ↔ level ∈ levels ∧ level.2 ≠ 0 := by
  simp [filled]

theorem collect_append (level : κ × ν) : collect (levels ++ [level]) =
    if level.2 = 0 then collect levels else (collect levels).upsert level := by
  simp [collect]

/-- What is collected at a price: the last quantity that is not zero. -/
theorem find_collect : (collect levels).find price =
    (lastWrite (filled levels) price).map fun quantity => (price, quantity) := by
  induction levels using List.reverseRecOn with
  | nil => rfl
  | append_singleton levels level ih =>
    rw [collect_append, filled_append]
    by_cases hzero : level.2 = 0
    · rw [if_pos hzero, if_pos hzero, ih]
    · rw [if_neg hzero, if_neg hzero, Table.find_upsert, lastWrite_append, ih]
      by_cases h : level.1 = price
      · subst h
        simp
      · rw [if_neg (Ne.symm h), if_neg h]

/-- Zeros that do not come last do not count. -/
theorem lastWrite_filled {quantity : ν} (h : lastWrite levels price = some quantity)
    (hzero : quantity ≠ 0) : lastWrite (filled levels) price = some quantity := by
  induction levels using List.reverseRecOn with
  | nil => cases h
  | append_singleton levels level ih =>
    rw [lastWrite_append] at h
    rw [filled_append]
    split at h
    · next hprice =>
      cases h
      rw [if_neg hzero, lastWrite_append, if_pos hprice]
    · next hprice =>
      by_cases hlevel : level.2 = 0
      · rw [if_pos hlevel, ih h]
      · rw [if_neg hlevel, lastWrite_append, if_neg hprice, ih h]

/-- A price whose last quantity is zero has no other. -/
def Settled (levels : List (κ × ν)) : Prop :=
  ∀ level ∈ levels, lastWrite levels level.1 = some 0 → level.2 = 0

instance (levels : List (κ × ν)) : Decidable (Settled levels) :=
  inferInstanceAs (Decidable (∀ level ∈ levels, lastWrite levels level.1 = some 0 → level.2 = 0))

/-- **Collecting** a list leaves what writing it leaves exactly when the list is settled. -/
theorem same_collect : Same (collect levels) (writeAll Table.empty levels) ↔ Settled levels := by
  constructor
  · intro hsame level hlevel hlast
    have hfind := hsame level.1
    rw [find_collect, find_writeAll, hlast] at hfind
    simp only [if_true, Option.map_eq_none_iff, lastWrite_eq_none] at hfind
    by_contra hzero
    exact hfind level (mem_filled.mpr ⟨hlevel, hzero⟩) rfl
  · intro hsettled price
    rw [find_collect, find_writeAll]
    cases hlast : lastWrite levels price with
    | none =>
      have hnone := lastWrite_eq_none.mp hlast
      have hfilled : lastWrite (filled levels) price = none :=
        lastWrite_eq_none.mpr fun level hlevel => hnone level (mem_filled.mp hlevel).1
      rw [hfilled]
      rfl
    | some quantity =>
      by_cases hzero : quantity = 0
      · subst hzero
        have hfilled : lastWrite (filled levels) price = none := by
          rw [lastWrite_eq_none]
          intro level hlevel hprice
          obtain ⟨hmem, hne⟩ := mem_filled.mp hlevel
          exact hne (hsettled level hmem (hprice ▸ hlast))
        rw [hfilled]
        simp
      · rw [lastWrite_filled hlast hzero]
        simp [hzero]

/-! ## Quantities -/

variable {P : ν → Prop}

/-- What holds of the quantities of a side and of the writes holds of what they leave. -/
theorem forall_writeAll (hside : ∀ level ∈ side.rows, P level.2)
    (hlevels : ∀ level ∈ levels, level.2 ≠ 0 → P level.2) :
    ∀ level ∈ (writeAll side levels).rows, P level.2 := by
  intro level hlevel
  have hfind := Table.mem_iff_find.mp hlevel
  rw [find_writeAll] at hfind
  split at hfind
  · exact hside level (Table.find_mem hfind)
  · next quantity hlast =>
    split_ifs at hfind with hzero
    rw [← Option.some.inj hfind]
    exact hlevels _ (lastWrite_mem hlast) hzero

theorem forall_collect (hlevels : ∀ level ∈ levels, level.2 ≠ 0 → P level.2) :
    ∀ level ∈ (collect levels).rows, P level.2 := by
  intro level hlevel
  have hfind := Table.mem_iff_find.mp hlevel
  rw [find_collect] at hfind
  obtain ⟨quantity, hlast, hlevel⟩ := Option.map_eq_some_iff.mp hfind
  obtain ⟨hmem, hzero⟩ := mem_filled.mp (lastWrite_mem hlast)
  rw [← hlevel]
  exact hlevels _ hmem hzero

/-! ## The total -/

section Total

variable {κ ν : Type} [DecidableEq κ] [AddCommGroup ν] [DecidableEq ν]

/-- What rests on a side. -/
def total (side : Side κ ν) : ν := (side.rows.map Prod.snd).sum

/-- What rests at a price. -/
def quantityAt (side : Side κ ν) (price : κ) : ν := ((side.find price).map Prod.snd).getD 0

omit [DecidableEq ν] [DecidableEq κ] in
@[simp] theorem total_empty : total (Table.empty : Side κ ν) = 0 := rfl

/-- **A write** changes the total by the change at its price. -/
theorem total_write (side : Side κ ν) (level : κ × ν) :
    total (write side level) = total side + (level.2 - quantityAt side level.1) := by
  unfold write total quantityAt
  split
  · next hzero =>
    rw [Table.sum_erase_find, hzero]
    abel
  · rw [Table.sum_upsert]
    abel

end Total

end Depth
