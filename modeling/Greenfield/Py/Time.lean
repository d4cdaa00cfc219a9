import Greenfield.Lib.JsonText
import Greenfield.Py.Basic

/-!
# ISO timestamps

`isoformat` of dates and of UTC datetimes, and `fromisoformat` for the spellings that it
writes, with any offset. Days are counted from the epoch; years run from March to February,
so that the leap day is the last of a year. Years beyond four digits, which no Python date
has, are written with a sign. Each reader inverts its writer.
-/

namespace Greenfield.Py

open JsonText

/-! ## Digits -/

/-- `f"{n:0{w}d}"`. -/
def pad (w n : Nat) : List Char := (Nat.toDigits 10 n).leftpad w '0'

/-- A number of `w` digits. -/
def readDigits (w : Nat) (s : List Char) : Option (Nat × List Char) :=
  if (s.take w).length = w ∧ (s.take w).all Char.isDigit then
    some (Nat.ofDigitChars 10 (s.take w) 0, s.drop w)
  else none

variable {w n : Nat}

theorem pad_length (hw : 0 < w) (h : n < 10 ^ w) : (pad w n).length = w := by
  have hle := (Nat.length_toDigits_le_iff (by decide) hw).mpr h
  rw [pad, List.length_leftpad]
  omega

variable {c : Char}

theorem pad_digits (h : c ∈ pad w n) : c.isDigit = true := by
  rw [pad, List.leftpad] at h
  rcases List.mem_append.mp h with h | h
  · rw [List.eq_of_mem_replicate h]
    rfl
  · exact Nat.isDigit_of_mem_toDigits (by decide) (by decide) h

theorem ofDigitChars_pad (w n : Nat) : Nat.ofDigitChars 10 (pad w n) 0 = n := by
  rw [pad, List.leftpad, Nat.ofDigitChars_append, Nat.ofDigitChars_replicate_zero, Nat.mul_zero,
    Nat.ofDigitChars_ten_toDigits]

theorem readDigits_pad (hw : 0 < w) (h : n < 10 ^ w) (rest : List Char) :
    readDigits w (pad w n ++ rest) = some (n, rest) := by
  have hlen := pad_length hw h
  have htake : (pad w n ++ rest).take w = pad w n := List.take_left' hlen
  have hdrop : (pad w n ++ rest).drop w = rest := List.drop_left' hlen
  rw [readDigits, htake, hdrop, ofDigitChars_pad, if_pos ⟨hlen, List.all_eq_true.mpr fun c hc =>
    pad_digits hc⟩]

/-! ## Dates -/

structure Date where
  year : Int
  month : Nat
  day : Nat
  deriving DecidableEq

/-- The year since March 2000, and the day in it, of a day since then. -/
def yearAndDay (day : Int) : Int × Int :=
  let r400 := day % 146097
  let n100 := min (r400 / 36524) 3
  let r100 := r400 - 36524 * n100
  let r4 := r100 % 1461
  let n1 := min (r4 / 365) 3
  (400 * (day / 146097) + 100 * n100 + 4 * (r100 / 1461) + n1, r4 - 365 * n1)

/-- The day since March 2000. -/
def dayOfYear (year day : Int) : Int :=
  146097 * (year / 400) + 365 * (year % 400) + year % 400 / 4 - year % 400 / 100 + day

/-- The date of a day in a year that starts in March. -/
def dateOfYear (year day : Int) : Date :=
  let month := (5 * day + 2) / 153
  { year := 2000 + year + if month < 10 then 0 else 1
    month := (if month < 10 then month + 3 else month - 9).toNat
    day := (day - (153 * month + 2) / 5 + 1).toNat }

/-- The date of a day since the epoch. The 1st of March 2000 is day 11017. -/
def dateOfDays (days : Int) : Date :=
  dateOfYear (yearAndDay (days - 11017)).1 (yearAndDay (days - 11017)).2

/-- The day of a date since the epoch. -/
def daysOfDate (d : Date) : Int :=
  let month : Int := if d.month ≤ 2 then d.month + 9 else d.month - 3
  11017 + dayOfYear (d.year - 2000 - if d.month ≤ 2 then 1 else 0)
    ((153 * month + 2) / 5 + d.day - 1)

theorem yearAndDay_range (day : Int) : 0 ≤ (yearAndDay day).2 ∧ (yearAndDay day).2 ≤ 365 := by
  simp only [yearAndDay]
  omega

theorem dayOfYear_yearAndDay (day : Int) :
    dayOfYear (yearAndDay day).1 (yearAndDay day).2 = day := by
  simp only [dayOfYear, yearAndDay]
  generalize hn400 : day / 146097 = n400
  generalize hr400 : day % 146097 = r400
  generalize hn100 : min (r400 / 36524) 3 = n100
  generalize hr100 : r400 - 36524 * n100 = r100
  generalize hn4 : r100 / 1461 = n4
  generalize hr4 : r100 % 1461 = r4
  generalize hn1 : min (r4 / 365) 3 = n1
  have h100 : 0 ≤ n100 ∧ n100 ≤ 3 := by omega
  have h4 : 0 ≤ n4 ∧ n4 ≤ 24 := by omega
  have h1 : 0 ≤ n1 ∧ n1 ≤ 3 := by omega
  have hdiv : (400 * n400 + 100 * n100 + 4 * n4 + n1) / 400 = n400 := by omega
  have hmod : (400 * n400 + 100 * n100 + 4 * n4 + n1) % 400 = 100 * n100 + 4 * n4 + n1 := by omega
  rw [hdiv, hmod]
  omega

theorem dateOfDays_range (days : Int) : (1 ≤ (dateOfDays days).month ∧ (dateOfDays days).month ≤ 12) ∧
    1 ≤ (dateOfDays days).day ∧ (dateOfDays days).day ≤ 31 := by
  have hday := yearAndDay_range (days - 11017)
  simp only [dateOfDays, dateOfYear]
  omega

theorem daysOfDate_dateOfYear {year day : Int} (h : 0 ≤ day ∧ day ≤ 365) :
    daysOfDate (dateOfYear year day) = 11017 + dayOfYear year day := by
  have hmonth : 0 ≤ (5 * day + 2) / 153 ∧ (5 * day + 2) / 153 ≤ 11 := by omega
  have hback : (153 * ((5 * day + 2) / 153) + 2) / 5 +
      ((day - (153 * ((5 * day + 2) / 153) + 2) / 5 + 1).toNat : Int) - 1 = day := by omega
  by_cases h10 : (5 * day + 2) / 153 < 10
  · have hlate : ¬ ((5 * day + 2) / 153 + 3).toNat ≤ 2 := by omega
    simp only [daysOfDate, dateOfYear, if_pos h10, if_neg hlate]
    rw [show (((5 * day + 2) / 153 + 3).toNat : Int) - 3 = (5 * day + 2) / 153 by omega, hback,
      show 2000 + year + 0 - 2000 - 0 = year by omega]
  · have hearly : ((5 * day + 2) / 153 - 9).toNat ≤ 2 := by omega
    simp only [daysOfDate, dateOfYear, if_neg h10, if_pos hearly]
    rw [show (((5 * day + 2) / 153 - 9).toNat : Int) + 9 = (5 * day + 2) / 153 by omega, hback,
      show 2000 + year + 1 - 2000 - 1 = year by omega]

theorem daysOfDate_dateOfDays (days : Int) : daysOfDate (dateOfDays days) = days := by
  rw [dateOfDays, daysOfDate_dateOfYear (yearAndDay_range _), dayOfYear_yearAndDay]
  omega

/-! ## Texts -/

/-- A year of four digits, or one with a sign. -/
def yearText (year : Int) : List Char :=
  if 0 ≤ year ∧ year ≤ 9999 then pad 4 year.toNat
  else (if year < 0 then '-' else '+') :: Nat.toDigits 10 year.natAbs

/-- The digits up to the first character that is none. -/
def readNat (s : List Char) : Nat × List Char :=
  (Nat.ofDigitChars 10 (s.takeWhile Char.isDigit) 0, s.dropWhile Char.isDigit)

def readYear : List Char → Option (Int × List Char)
  | '-' :: s => some (-((readNat s).1 : Int), (readNat s).2)
  | '+' :: s => some (((readNat s).1 : Int), (readNat s).2)
  | s => (readDigits 4 s).map fun p => ((p.1 : Int), p.2)

def skip (c : Char) : List Char → Option (List Char)
  | d :: s => if d = c then some s else none
  | [] => none

/-- `value.isoformat()` of a date. -/
def dateText (days : Int) : List Char :=
  let d := dateOfDays days
  yearText d.year ++ '-' :: (pad 2 d.month ++ '-' :: pad 2 d.day)

/-- A date that is in the calendar. -/
def readDate (s : List Char) : Option (Int × List Char) := do
  let (year, s) ← readYear s
  let (month, s) ← readDigits 2 (← skip '-' s)
  let (day, s) ← readDigits 2 (← skip '-' s)
  if dateOfDays (daysOfDate ⟨year, month, day⟩) = ⟨year, month, day⟩ then
    some (daysOfDate ⟨year, month, day⟩, s)
  else none

theorem readYear_yearText (year : Int) (rest : List Char)
    (h : ∀ c ∈ rest.head?, c.isDigit = false) : readYear (yearText year ++ rest) = some (year, rest) := by
  unfold yearText
  split
  · next hyear =>
    have hread := readDigits_pad (w := 4) (n := year.toNat) (by decide) (by omega) rest
    have hnat : (year.toNat : Int) = year := by omega
    obtain ⟨d, ds, hpad⟩ : ∃ d ds, pad 4 year.toNat = d :: ds := by
      cases hp : pad 4 year.toNat with
      | nil =>
        have hlen := pad_length (w := 4) (n := year.toNat) (by decide) (by omega)
        rw [hp] at hlen
        cases hlen
      | cons d ds => exact ⟨d, ds, rfl⟩
    have hd : d.isDigit = true := pad_digits (by rw [hpad]; exact List.mem_cons_self)
    rw [hpad, List.cons_append] at hread ⊢
    rw [readYear, hread, Option.map_some, hnat]
    · rintro s heq
      rw [(List.cons.inj heq).1] at hd
      cases hd
    · rintro s heq
      rw [(List.cons.inj heq).1] at hd
      cases hd
  · have hall : ∀ c ∈ Nat.toDigits 10 year.natAbs, c.isDigit = true :=
      fun c hc => Nat.isDigit_of_mem_toDigits (by decide) (by decide) hc
    have hdigits := takeWhile_digits hall h
    have hnat : readNat (Nat.toDigits 10 year.natAbs ++ rest) = (year.natAbs, rest) := by
      rw [readNat, hdigits.1, hdigits.2, Nat.ofDigitChars_ten_toDigits]
    split
    · next hneg =>
      rw [List.cons_append, readYear, hnat]
      show some (-(year.natAbs : Int), rest) = some (year, rest)
      rw [show -(year.natAbs : Int) = year by omega]
    · next hneg =>
      rw [List.cons_append, readYear, hnat]
      show some ((year.natAbs : Int), rest) = some (year, rest)
      rw [show (year.natAbs : Int) = year by omega]

/-- **Dates.** A written date is read back. -/
theorem readDate_dateText (days : Int) (rest : List Char) :
    readDate (dateText days ++ rest) = some (days, rest) := by
  obtain ⟨hmonth, hday⟩ := dateOfDays_range days
  have hyear := readYear_yearText (dateOfDays days).year
    ('-' :: (pad 2 (dateOfDays days).month ++ ('-' :: (pad 2 (dateOfDays days).day ++ rest))))
    fun c hc => by cases hc; rfl
  have hm := readDigits_pad (w := 2) (n := (dateOfDays days).month) (by decide) (by omega)
    ('-' :: (pad 2 (dateOfDays days).day ++ rest))
  have hd := readDigits_pad (w := 2) (n := (dateOfDays days).day) (by decide) (by omega) rest
  simp only [dateText, List.append_assoc, List.cons_append]
  have hsame : (⟨(dateOfDays days).year, (dateOfDays days).month, (dateOfDays days).day⟩ : Date) =
      dateOfDays days := rfl
  simp only [readDate, hyear, hm, hd, skip, if_true, Option.bind_eq_bind, Option.bind_some, hsame,
    daysOfDate_dateOfDays]

/-- `value.time().isoformat()` of a time of day in microseconds. -/
def timeText (micros : Int) : List Char :=
  let seconds := (micros / 1000000).toNat
  let fraction := (micros % 1000000).toNat
  pad 2 (seconds / 3600) ++ ':' :: (pad 2 (seconds / 60 % 60) ++ ':' :: (pad 2 (seconds % 60) ++
    if fraction = 0 then [] else '.' :: pad 6 fraction))

def readFraction : List Char → Option (Nat × List Char)
  | '.' :: s => readDigits 6 s
  | s => some (0, s)

def readTime (s : List Char) : Option (Int × List Char) := do
  let (hour, s) ← readDigits 2 s
  let (minute, s) ← readDigits 2 (← skip ':' s)
  let (second, s) ← readDigits 2 (← skip ':' s)
  let (fraction, s) ← readFraction s
  if hour < 24 ∧ minute < 60 ∧ second < 60 then
    some (((hour * 60 + minute) * 60 + second) * 1000000 + fraction, s)
  else none

theorem readTime_timeText {micros : Int} (h0 : 0 ≤ micros) (h1 : micros < microsPerDay)
    (rest : List Char) (hrest : ∀ c ∈ rest.head?, c ≠ '.') :
    readTime (timeText micros ++ rest) = some (micros, rest) := by
  have h1 : micros < 86400000000 := h1
  generalize hseconds : (micros / 1000000).toNat = seconds
  generalize hfraction : (micros % 1000000).toNat = fraction
  have hfrac : readFraction ((if fraction = 0 then [] else '.' :: pad 6 fraction) ++ rest) =
      some (fraction, rest) := by
    split
    · next hzero =>
      rw [hzero]
      cases rest with
      | nil => rfl
      | cons c cs =>
        rw [List.nil_append, readFraction]
        exact fun s heq => hrest c rfl (List.cons.inj heq).1
    · rw [List.cons_append, readFraction, readDigits_pad (by decide) (by omega)]
  have hhour := readDigits_pad (w := 2) (n := seconds / 3600) (by decide) (by omega)
  have hminute := readDigits_pad (w := 2) (n := seconds / 60 % 60) (by decide) (by omega)
  have hsecond := readDigits_pad (w := 2) (n := seconds % 60) (by decide) (by omega)
  have hvalid : seconds / 3600 < 24 ∧ seconds / 60 % 60 < 60 ∧ seconds % 60 < 60 := by omega
  have hvalue : (((seconds / 3600 : Nat) : Int) * 60 + (seconds / 60 % 60 : Nat)) * 60 +
      (seconds % 60 : Nat) = seconds := by omega
  have hmicros : (seconds : Int) * 1000000 + fraction = micros := by omega
  simp only [timeText, hseconds, hfraction, List.append_assoc, List.cons_append]
  simp only [readTime, hhour, hminute, hsecond, hfrac, skip, if_true, Option.bind_eq_bind,
    Option.bind_some, hvalid, and_self, hvalue, hmicros]

/-- `value.isoformat()` of a UTC datetime. -/
def isoformat (i : Instant) : String :=
  String.ofList (dateText (i / microsPerDay) ++ 'T' :: (timeText (i % microsPerDay) ++
    ['+', '0', '0', ':', '0', '0']))

def readOffset : List Char → Option (Option Int)
  | [] => some none
  | c :: s => do
    let (hour, s) ← readDigits 2 s
    let (minute, s) ← readDigits 2 (← skip ':' s)
    let offset : Int := (hour * 60 + minute) * 60000000
    if s = [] ∧ hour < 24 ∧ minute < 60 then
      if c = '+' then some (some offset) else if c = '-' then some (some (-offset)) else none
    else none

/-- `datetime.fromisoformat(value)`. -/
def fromisoformat (value : String) : Option Datetime := do
  let (days, s) ← readDate value.toList
  let (micros, s) ← readTime (← skip 'T' s)
  let utcOffset ← readOffset s
  some ⟨days * microsPerDay + micros, utcOffset⟩

/-- `date.isoformat()` and `date.fromisoformat`. -/
def dateIsoformat (days : Int) : String := String.ofList (dateText days)

def dateFromisoformat (value : String) : Option Int :=
  match readDate value.toList with
  | some (days, []) => some days
  | _ => none

/-- **Timestamps.** A UTC datetime is read back. -/
theorem fromisoformat_isoformat (i : Instant) :
    fromisoformat (isoformat i) = some (.ofInstant i) := by
  have hday : (0 : Int) ≤ i % microsPerDay ∧ (i : Int) % microsPerDay < microsPerDay :=
    ⟨Int.emod_nonneg _ (by decide), Int.emod_lt_of_pos _ (by decide)⟩
  have htime := readTime_timeText hday.1 hday.2 ['+', '0', '0', ':', '0', '0']
    fun c hc => by cases hc; decide
  have hsum : (i : Int) / microsPerDay * microsPerDay + i % microsPerDay = i :=
    Int.ediv_mul_add_emod _ _
  have hoffset : readOffset ['+', '0', '0', ':', '0', '0'] = some (some 0) := by decide
  simp only [fromisoformat, isoformat, String.toList_ofList, readDate_dateText, skip, if_true,
    htime, hoffset, Option.bind_eq_bind, Option.bind_some, hsum]
  rfl

example : isoformat 1500000 = "1970-01-01T00:00:01.500000+00:00" := by decide +kernel

theorem dateFromisoformat_dateIsoformat (days : Int) :
    dateFromisoformat (dateIsoformat days) = some days := by
  have hread := readDate_dateText days []
  rw [List.append_nil] at hread
  rw [dateFromisoformat, dateIsoformat, String.toList_ofList, hread]

/-- `value.replace("Z", "+00:00")`. -/
def replaceZ (value : String) : String :=
  String.ofList (value.toList.flatMap fun c =>
    if c = 'Z' then ['+', '0', '0', ':', '0', '0'] else [c])

theorem notZ_dateText {days : Int} (h : c ∈ dateText days) : c ≠ 'Z' := by
  have hdigit : ∀ {w n : Nat}, c ∈ pad w n → c ≠ 'Z' := by
    rintro w n hc rfl
    exact absurd (pad_digits hc) (by decide)
  have hyear : ∀ {year : Int}, c ∈ yearText year → c ≠ 'Z' := by
    intro year hc
    unfold yearText at hc
    split at hc
    · exact hdigit hc
    · rcases List.mem_cons.mp hc with rfl | hc
      · split <;> decide
      · rintro rfl
        exact absurd (Nat.isDigit_of_mem_toDigits (by decide) (by decide) hc) (by decide)
  simp only [dateText, List.mem_append, List.mem_cons] at h
  rcases h with h | rfl | h | rfl | h
  · exact hyear h
  · decide
  · exact hdigit h
  · decide
  · exact hdigit h

theorem notZ_timeText {micros : Int} (h : c ∈ timeText micros) : c ≠ 'Z' := by
  have hdigit : ∀ {w n : Nat}, c ∈ pad w n → c ≠ 'Z' := by
    rintro w n hc rfl
    exact absurd (pad_digits hc) (by decide)
  simp only [timeText, List.mem_append, List.mem_cons] at h
  rcases h with h | rfl | h | rfl | h | h
  · exact hdigit h
  · decide
  · exact hdigit h
  · decide
  · exact hdigit h
  · split at h
    · cases h
    · rcases List.mem_cons.mp h with rfl | h
      · decide
      · exact hdigit h

/-- A timestamp that `isoformat` writes has no `Z` to replace. -/
theorem replaceZ_isoformat (i : Instant) : replaceZ (isoformat i) = isoformat i := by
  have hall : ∀ c ∈ (isoformat i).toList, c ≠ 'Z' := by
    intro c hc
    simp only [isoformat, String.toList_ofList, List.mem_append, List.mem_cons] at hc
    rcases hc with hc | rfl | hc | hc
    · exact notZ_dateText hc
    · decide
    · exact notZ_timeText hc
    · rintro rfl
      exact absurd hc (by decide)
  have hflat : ∀ l : List Char, (∀ c ∈ l, c ≠ 'Z') → (l.flatMap fun c =>
      if c = 'Z' then ['+', '0', '0', ':', '0', '0'] else [c]) = l := by
    intro l
    induction l with
    | nil => exact fun _ => rfl
    | cons c l ih =>
      intro hl
      rw [List.flatMap_cons, if_neg (hl c List.mem_cons_self),
        ih fun d hd => hl d (List.mem_cons_of_mem _ hd)]
      rfl
  rw [replaceZ, hflat _ hall, String.ofList_toList]

end Greenfield.Py
