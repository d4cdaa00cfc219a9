import Mathlib.Data.List.Basic

/-!
# Strings and numbers of JSON texts

Text is a list of characters; a reader returns what it read and the text after it. Strings
are written with the escapes of an ASCII encoder, where a character beyond the basic plane
is two surrogates. A lone surrogate is no character, and is not read. Numbers are tokens:
the spelling of the exponent is not kept. Each reader inverts its writer (`readChars_write`,
`readNumber_text`).
-/

namespace JsonText

/-! ## Strings -/

/-- The hexadecimal digit of `n < 16`. -/
def hexDigit (n : Nat) : Char := if n < 10 then Char.ofNat (48 + n) else Char.ofNat (87 + n)

def hexValue (c : Char) : Option Nat :=
  if '0' ≤ c ∧ c ≤ '9' then some (c.toNat - 48)
  else if 'a' ≤ c ∧ c ≤ 'f' then some (c.toNat - 87)
  else if 'A' ≤ c ∧ c ≤ 'F' then some (c.toNat - 55)
  else none

/-- `\uXXXX`. -/
def unicodeEscape (n : Nat) : List Char :=
  ['\\', 'u', hexDigit (n / 4096 % 16), hexDigit (n / 256 % 16), hexDigit (n / 16 % 16),
    hexDigit (n % 16)]

def hexValues (a b c d : Char) : Option Nat :=
  match hexValue a, hexValue b, hexValue c, hexValue d with
  | some a, some b, some c, some d => some (4096 * a + 256 * b + 16 * c + d)
  | _, _, _, _ => none

/-- The escapes of one letter. -/
def shortEscapes : List (Char × Char) :=
  [('"', '"'), ('\\', '\\'), ('\n', 'n'), ('\r', 'r'), ('\t', 't'), (Char.ofNat 8, 'b'),
    (Char.ofNat 12, 'f')]

/-- UTF-16: a character beyond the basic plane is two surrogates. -/
def codeUnits (c : Char) : List Nat :=
  if c.toNat < 65536 then [c.toNat]
  else [55296 + (c.toNat - 65536) / 1024, 56320 + (c.toNat - 65536) % 1024]

def writeChar (c : Char) : List Char :=
  match shortEscapes.lookup c with
  | some e => ['\\', e]
  | none =>
    if 32 ≤ c.toNat ∧ c.toNat ≤ 126 then [c] else (codeUnits c).flatMap unicodeEscape

def writeChars (cs : List Char) : List Char := cs.flatMap writeChar

/-- The character of an escape of one letter. -/
def readShort (e : Char) : Option Char :=
  match shortEscapes.find? fun p => p.2 = e with
  | some p => some p.1
  | none => if e = '/' then some '/' else none

/-- The code units up to the closing quote, and the text after it. -/
def readUnits : List Char → Option (List Nat × List Char)
  | [] => none
  | '"' :: rest => some ([], rest)
  | '\\' :: 'u' :: a :: b :: c :: d :: rest =>
    (hexValues a b c d).bind fun n => (readUnits rest).map fun p => (n :: p.1, p.2)
  | '\\' :: e :: rest =>
    (readShort e).bind fun c => (readUnits rest).map fun p => (c.toNat :: p.1, p.2)
  | c :: rest =>
    if c.toNat < 32 ∨ c = '\\' then none
    else (readUnits rest).map fun p => (c.toNat :: p.1, p.2)

def isHigh (n : Nat) : Bool := 55296 ≤ n ∧ n ≤ 56319

def isLow (n : Nat) : Bool := 56320 ≤ n ∧ n ≤ 57343

/-- The characters of code units, without a lone surrogate. -/
def joinUnits : List Nat → Option (List Char)
  | [] => some []
  | [n] => if isHigh n ∨ isLow n then none else some [Char.ofNat n]
  | n :: m :: ns =>
    if isHigh n then
      if isLow m then
        (joinUnits ns).map (Char.ofNat (65536 + (n - 55296) * 1024 + (m - 56320)) :: ·)
      else none
    else if isLow n then none
    else (joinUnits (m :: ns)).map (Char.ofNat n :: ·)

/-- The characters up to the closing quote, and the text after it. -/
def readChars (s : List Char) : Option (List Char × List Char) :=
  (readUnits s).bind fun p => (joinUnits p.1).map fun cs => (cs, p.2)

/-! ### The reader inverts the writer -/

theorem hexValue_hexDigit : ∀ n < 16, hexValue (hexDigit n) = some n := by decide

theorem readUnits_escape {n : Nat} (h : n < 65536) (rest : List Char) :
    readUnits (unicodeEscape n ++ rest) = (readUnits rest).map fun p => (n :: p.1, p.2) := by
  have hvalues : hexValues (hexDigit (n / 4096 % 16)) (hexDigit (n / 256 % 16))
      (hexDigit (n / 16 % 16)) (hexDigit (n % 16)) = some n := by
    unfold hexValues
    rw [hexValue_hexDigit _ (Nat.mod_lt _ (by decide)), hexValue_hexDigit _ (Nat.mod_lt _ (by decide)),
      hexValue_hexDigit _ (Nat.mod_lt _ (by decide)), hexValue_hexDigit _ (Nat.mod_lt _ (by decide))]
    show some _ = some _
    congr 1
    omega
  simp only [unicodeEscape, List.cons_append, List.nil_append]
  rw [readUnits, hvalues]
  rfl

/-- An escape of one letter is read back, and is not that of a code unit. -/
theorem lookup_short {c e : Char} (h : shortEscapes.lookup c = some e) :
    readShort e = some c ∧ e ≠ 'u' ∧ codeUnits c = [c.toNat] := by
  have hall : ∀ p ∈ shortEscapes, readShort p.2 = some p.1 ∧ p.2 ≠ 'u' ∧
      codeUnits p.1 = [p.1.toNat] := by decide
  obtain ⟨l, r, hmem, -⟩ := List.lookup_eq_some_iff.mp h
  exact hall (c, e) (by rw [hmem]; exact List.mem_append_right _ List.mem_cons_self)

theorem char_valid (c : Char) : c.toNat < 55296 ∨ 57343 < c.toNat ∧ c.toNat < 1114112 := c.valid

theorem readUnits_writeChar (c : Char) (rest : List Char) :
    readUnits (writeChar c ++ rest) =
      (readUnits rest).map fun p => (codeUnits c ++ p.1, p.2) := by
  unfold writeChar
  cases hshort : shortEscapes.lookup c with
  | some e =>
    obtain ⟨hread, hne, hunits⟩ := lookup_short hshort
    simp only [List.cons_append, List.nil_append, hunits]
    rw [readUnits, hread]
    · rfl
    · exact fun _ _ _ _ _ hu => absurd hu hne
  | none =>
    simp only
    split
    · next hplain =>
      have hquote : c ≠ '"' := by rintro rfl; simp [shortEscapes] at hshort
      have hslash : c ≠ '\\' := by rintro rfl; simp [shortEscapes] at hshort
      have hunits : codeUnits c = [c.toNat] := if_pos (by omega)
      rw [hunits, List.singleton_append, readUnits, if_neg (by simp [hslash]; omega)]
      · rfl
      · exact hquote
      · exact fun _ _ _ _ _ h => absurd h hslash
      · exact fun _ _ h => absurd h hslash
    · have hvalid := char_valid c
      unfold codeUnits
      split
      · next hsmall =>
        rw [List.flatMap_singleton]
        exact readUnits_escape hsmall rest
      · rw [List.flatMap_cons, List.flatMap_singleton, List.append_assoc,
          readUnits_escape (by omega), readUnits_escape (by omega), Option.map_map]
        rfl

theorem readUnits_writeChars (cs : List Char) (rest : List Char) :
    readUnits (writeChars cs ++ '"' :: rest) = some (cs.flatMap codeUnits, rest) := by
  induction cs with
  | nil => rfl
  | cons c cs ih =>
    rw [writeChars, List.flatMap_cons, List.append_assoc, readUnits_writeChar]
    change Option.map _ (readUnits (writeChars cs ++ '"' :: rest)) = _
    rw [ih, Option.map_some, List.flatMap_cons]

theorem joinUnits_cons {n : Nat} (hhigh : isHigh n = false) (hlow : isLow n = false)
    (ns : List Nat) : joinUnits (n :: ns) = (joinUnits ns).map (Char.ofNat n :: ·) := by
  cases ns with
  | nil => simp [joinUnits, hhigh, hlow]
  | cons m ms => simp [joinUnits, hhigh, hlow]

theorem joinUnits_codeUnits (c : Char) (ns : List Nat) :
    joinUnits (codeUnits c ++ ns) = (joinUnits ns).map (c :: ·) := by
  have hvalid := char_valid c
  unfold codeUnits
  split
  · have hhigh : isHigh c.toNat = false := by simp [isHigh]; omega
    have hlow : isLow c.toNat = false := by simp [isLow]; omega
    rw [List.singleton_append, joinUnits_cons hhigh hlow, Char.ofNat_toNat]
  · have hhigh : isHigh (55296 + (c.toNat - 65536) / 1024) = true := by simp [isHigh]; omega
    have hlow : isLow (56320 + (c.toNat - 65536) % 1024) = true := by simp [isLow]; omega
    have hchar : 65536 + (55296 + (c.toNat - 65536) / 1024 - 55296) * 1024 +
        (56320 + (c.toNat - 65536) % 1024 - 56320) = c.toNat := by omega
    simp only [List.cons_append, List.nil_append, joinUnits, hhigh, hlow, if_true, hchar,
      Char.ofNat_toNat]

theorem joinUnits_flatMap (cs : List Char) : joinUnits (cs.flatMap codeUnits) = some cs := by
  induction cs with
  | nil => rfl
  | cons c cs ih => rw [List.flatMap_cons, joinUnits_codeUnits, ih, Option.map_some]

/-- **Strings.** A written string is read back, up to its closing quote. -/
theorem readChars_write (cs : List Char) (rest : List Char) :
    readChars (writeChars cs ++ '"' :: rest) = some (cs, rest) := by
  rw [readChars, readUnits_writeChars, Option.bind_some, joinUnits_flatMap, Option.map_some]

/-- A written string is printable ASCII. -/
theorem writeChars_ascii {cs : List Char} {c : Char} (h : c ∈ writeChars cs) :
    32 ≤ c.toNat ∧ c.toNat ≤ 126 := by
  have hshort : ∀ p ∈ shortEscapes, 32 ≤ p.2.toNat ∧ p.2.toNat ≤ 126 := by decide
  have hhex : ∀ n < 16, 32 ≤ (hexDigit n).toNat ∧ (hexDigit n).toNat ≤ 126 := by decide
  obtain ⟨d, -, hc⟩ := List.mem_flatMap.mp h
  unfold writeChar at hc
  split at hc
  · next e he =>
    obtain ⟨l, r, hmem, -⟩ := List.lookup_eq_some_iff.mp he
    simp only [List.mem_cons, List.not_mem_nil, or_false] at hc
    rcases hc with rfl | rfl
    · decide
    · exact hshort (d, c) (by rw [hmem]; exact List.mem_append_right _ List.mem_cons_self)
  · split at hc
    · next hplain =>
      rw [List.mem_singleton] at hc
      rw [hc]
      exact hplain
    · obtain ⟨n, -, hc⟩ := List.mem_flatMap.mp hc
      simp only [unicodeEscape, List.mem_cons, List.not_mem_nil, or_false] at hc
      rcases hc with rfl | rfl | rfl | rfl | rfl | rfl
      · decide
      · decide
      · exact hhex _ (Nat.mod_lt _ (by decide))
      · exact hhex _ (Nat.mod_lt _ (by decide))
      · exact hhex _ (Nat.mod_lt _ (by decide))
      · exact hhex _ (Nat.mod_lt _ (by decide))

/-! ## Numbers -/

/-- A number: its sign, the digits before and after the point, and the exponent's sign and
digits. -/
structure NumberToken where
  neg : Bool
  whole : List Char
  frac : List Char
  exp : Option (Bool × List Char)
  deriving DecidableEq

namespace NumberToken

def fracText (t : NumberToken) : List Char := if t.frac = [] then [] else '.' :: t.frac

def expText (t : NumberToken) : List Char :=
  match t.exp with
  | some (neg, digits) => 'e' :: (if neg then '-' else '+') :: digits
  | none => []

def text (t : NumberToken) : List Char :=
  (if t.neg then ['-'] else []) ++ (t.whole ++ (t.fracText ++ t.expText))

/-- The grammar of numbers. -/
structure Valid (t : NumberToken) : Prop where
  whole : t.whole = ['0'] ∨ ∃ d ds, t.whole = d :: ds ∧ d ≠ '0'
  wholeDigits : ∀ c ∈ t.whole, c.isDigit = true
  frac : ∀ c ∈ t.frac, c.isDigit = true
  exp : ∀ e ∈ t.exp, e.2 ≠ [] ∧ ∀ c ∈ e.2, c.isDigit = true

/-- A token with a fraction or an exponent is read as a float. -/
def isFloat (t : NumberToken) : Bool := t.frac ≠ [] ∨ t.exp ≠ none

/-- The token of an integer. -/
def ofInt (n : Int) : NumberToken where
  neg := n < 0
  whole := Nat.toDigits 10 n.natAbs
  frac := []
  exp := none

def toInt (t : NumberToken) : Int :=
  if t.neg then -(Nat.ofDigitChars 10 t.whole 0 : Int) else Nat.ofDigitChars 10 t.whole 0

end NumberToken

def readWhole : List Char → Option (List Char × List Char)
  | [] => none
  | '0' :: rest => some (['0'], rest)
  | c :: rest =>
    if c.isDigit then
      some ((c :: rest).takeWhile Char.isDigit, (c :: rest).dropWhile Char.isDigit)
    else none

def readFrac : List Char → List Char × List Char
  | '.' :: rest =>
    if rest.takeWhile Char.isDigit = [] then ([], '.' :: rest)
    else (rest.takeWhile Char.isDigit, rest.dropWhile Char.isDigit)
  | rest => ([], rest)

def readSign : List Char → Bool × List Char
  | '-' :: rest => (true, rest)
  | '+' :: rest => (false, rest)
  | rest => (false, rest)

def readExp : List Char → Option (Bool × List Char) × List Char
  | [] => (none, [])
  | c :: rest =>
    if (c = 'e' ∨ c = 'E') ∧ (readSign rest).2.takeWhile Char.isDigit ≠ [] then
      (some ((readSign rest).1, (readSign rest).2.takeWhile Char.isDigit),
        (readSign rest).2.dropWhile Char.isDigit)
    else (none, c :: rest)

def readUnsigned (neg : Bool) (s : List Char) : Option (NumberToken × List Char) :=
  (readWhole s).map fun p =>
    let frac := readFrac p.2
    let exp := readExp frac.2
    (⟨neg, p.1, frac.1, exp.1⟩, exp.2)

/-- The longest number at the start of a text. -/
def readNumber : List Char → Option (NumberToken × List Char)
  | '-' :: rest => readUnsigned true rest
  | rest => readUnsigned false rest

/-- What can stand after a number. -/
def EndsNumber (rest : List Char) : Prop :=
  ∀ c ∈ rest.head?, c.isDigit = false ∧ c ≠ '.' ∧ c ≠ 'e' ∧ c ≠ 'E'

/-! ### The reader inverts the writer -/

section

variable {ds rest : List Char} {t : NumberToken}

theorem takeWhile_digits (hds : ∀ c ∈ ds, c.isDigit = true)
    (hrest : ∀ c ∈ rest.head?, c.isDigit = false) :
    (ds ++ rest).takeWhile Char.isDigit = ds ∧ (ds ++ rest).dropWhile Char.isDigit = rest := by
  have hnone : rest.takeWhile Char.isDigit = [] ∧ rest.dropWhile Char.isDigit = rest := by
    cases rest with
    | nil => exact ⟨rfl, rfl⟩
    | cons c cs =>
      have hc : c.isDigit = false := hrest c rfl
      exact ⟨by simp [hc], by simp [hc]⟩
  rw [List.takeWhile_append_of_pos hds, List.dropWhile_append_of_pos hds, hnone.1, hnone.2,
    List.append_nil]
  exact ⟨rfl, rfl⟩

theorem readWhole_append (h : t.Valid) (hrest : ∀ c ∈ rest.head?, c.isDigit = false) :
    readWhole (t.whole ++ rest) = some (t.whole, rest) := by
  rcases h.whole with hzero | ⟨d, ds, hwhole, hne⟩
  · rw [hzero]
    rfl
  · have hdigits := takeWhile_digits h.wholeDigits hrest
    have hd : d.isDigit = true := h.wholeDigits d (by rw [hwhole]; exact List.mem_cons_self)
    rw [hwhole, List.cons_append] at hdigits ⊢
    rw [readWhole, if_pos hd, hdigits.1, hdigits.2]
    exact fun h => hne h

theorem readFrac_append (h : t.Valid) (hrest : ∀ c ∈ rest.head?, c.isDigit = false ∧ c ≠ '.') :
    readFrac (t.fracText ++ rest) = (t.frac, rest) := by
  unfold NumberToken.fracText
  split
  · next hnil =>
    rw [hnil, List.nil_append]
    cases rest with
    | nil => rfl
    | cons c cs =>
      rw [readFrac]
      exact fun r hr => (hrest c rfl).2 (List.cons.inj hr).1
  · next hne =>
    have hdigits := takeWhile_digits h.frac fun c hc => (hrest c hc).1
    rw [List.cons_append, readFrac, hdigits.1, hdigits.2, if_neg hne]

theorem readExp_append (h : t.Valid) (hrest : EndsNumber rest) :
    readExp (t.expText ++ rest) = (t.exp, rest) := by
  unfold NumberToken.expText
  cases hexp : t.exp with
  | none =>
    rw [List.nil_append]
    cases rest with
    | nil => rfl
    | cons c cs =>
      obtain ⟨-, -, he, hE⟩ := hrest c rfl
      rw [readExp, if_neg fun h => h.1.elim he hE]
  | some e =>
    obtain ⟨neg, digits⟩ := e
    obtain ⟨hne, hall⟩ := h.exp _ hexp
    have hdigits := takeWhile_digits hall fun c hc => (hrest c hc).1
    have hsign : readSign ((if neg then '-' else '+') :: (digits ++ rest)) = (neg, digits ++ rest) := by
      cases neg <;> rfl
    simp only [List.cons_append]
    rw [readExp, hsign, hdigits.1, hdigits.2, if_pos ⟨.inl rfl, hne⟩]

/-- **Numbers.** A written number is read back, whatever ends it. -/
theorem readNumber_text (h : t.Valid) (hrest : EndsNumber rest) :
    readNumber (t.text ++ rest) = some (t, rest) := by
  have hexp : ∀ c ∈ (t.expText ++ rest).head?, c.isDigit = false ∧ c ≠ '.' := by
    unfold NumberToken.expText
    split
    · intro c hc
      cases hc
      decide
    · exact fun c hc => ⟨(hrest c hc).1, (hrest c hc).2.1⟩
  have hfrac : ∀ c ∈ (t.fracText ++ (t.expText ++ rest)).head?, c.isDigit = false := by
    unfold NumberToken.fracText
    split
    · exact fun c hc => (hexp c hc).1
    · intro c hc
      cases hc
      decide
  have hread : readUnsigned t.neg (t.whole ++ (t.fracText ++ (t.expText ++ rest))) =
      some (t, rest) := by
    rw [readUnsigned, readWhole_append h hfrac, Option.map_some]
    simp only [readFrac_append h hexp, readExp_append h hrest]
  unfold NumberToken.text
  simp only [List.append_assoc]
  cases hneg : t.neg with
  | true =>
    rw [hneg] at hread
    exact hread
  | false =>
    rw [hneg] at hread
    rw [if_neg (by decide), List.nil_append]
    -- An unsigned number starts with a digit, which is no sign.
    obtain ⟨d, ds, hwhole⟩ : ∃ d ds, t.whole = d :: ds := by
      rcases h.whole with hzero | ⟨d, ds, hwhole, -⟩
      · exact ⟨'0', [], hzero⟩
      · exact ⟨d, ds, hwhole⟩
    have hd : d.isDigit = true := h.wholeDigits d (by rw [hwhole]; exact List.mem_cons_self)
    rw [hwhole, List.cons_append] at hread ⊢
    rw [readNumber]
    · exact hread
    · rintro r heq
      rw [(List.cons.inj heq).1] at hd
      cases hd

/-- A number other than zero does not start with a zero. -/
theorem toDigits_head {n : Nat} (h : n ≠ 0) : ∃ d ds, Nat.toDigits 10 n = d :: ds ∧ d ≠ '0' := by
  induction n using Nat.strongRecOn with
  | ind n ih =>
    by_cases hlt : n < 10
    · refine ⟨n.digitChar, [], Nat.toDigits_of_lt_base hlt, ?_⟩
      have hall : ∀ n < 10, n ≠ 0 → n.digitChar ≠ '0' := by decide
      exact hall n hlt h
    · obtain ⟨d, ds, hd, hne⟩ := ih (n / 10) (by omega) (by omega)
      refine ⟨d, ds ++ [(n % 10).digitChar], ?_, hne⟩
      rw [Nat.toDigits_of_base_le (by decide) (by omega), hd, List.cons_append]

theorem valid_ofInt (n : Int) : (NumberToken.ofInt n).Valid where
  whole := by
    by_cases h : n.natAbs = 0
    · exact .inl (by rw [NumberToken.ofInt, h]; rfl)
    · exact .inr (toDigits_head h)
  wholeDigits := fun _ hc => Nat.isDigit_of_mem_toDigits (by decide) (by decide) hc
  frac := fun _ hc => absurd hc List.not_mem_nil
  exp := fun _ he => by cases he

theorem toInt_ofInt (n : Int) : (NumberToken.ofInt n).toInt = n := by
  have hdigits : Nat.ofDigitChars 10 (Nat.toDigits 10 n.natAbs) 0 = n.natAbs :=
    Nat.ofDigitChars_ten_toDigits
  simp only [NumberToken.toInt, NumberToken.ofInt, hdigits, decide_eq_true_eq]
  split <;> omega

theorem digit_ascii {c : Char} (h : c.isDigit = true) : 32 ≤ c.toNat ∧ c.toNat ≤ 126 := by
  have h : 48 ≤ c.toNat ∧ c.toNat ≤ 57 := by
    simpa [Char.isDigit, UInt32.le_iff_toNat_le] using h
  omega

/-- A written number is printable ASCII. -/
theorem text_ascii (h : t.Valid) {c : Char} (hc : c ∈ t.text) : 32 ≤ c.toNat ∧ c.toNat ≤ 126 := by
  simp only [NumberToken.text, List.mem_append] at hc
  rcases hc with hc | hc | hc | hc
  · split at hc
    · rw [List.mem_singleton.mp hc]; decide
    · cases hc
  · exact digit_ascii (h.wholeDigits c hc)
  · unfold NumberToken.fracText at hc
    split at hc
    · cases hc
    · rcases List.mem_cons.mp hc with rfl | hc
      · decide
      · exact digit_ascii (h.frac c hc)
  · unfold NumberToken.expText at hc
    split at hc
    · next neg digits hexp =>
      rcases List.mem_cons.mp hc with rfl | hc
      · decide
      · rcases List.mem_cons.mp hc with rfl | hc
        · cases neg <;> decide
        · exact digit_ascii ((h.exp _ hexp).2 c hc)
    · cases hc

end

end JsonText
