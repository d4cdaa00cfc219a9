import Greenfield.Lib.Json

/-!
# JSON texts that are cut

A reader that is done with a value does not look at what comes after it, so the value is
read from any longer text as well (`readValue_extend`); of a number this is so where
something follows that ends it. A written object is read up to its last brace and no
further, hence a text that is cut before the brace is not one of JSON (`loads_cut`), and
neither are two written values side by side (`loads_glued`).
-/

namespace JsonText

/-! ## Strings -/

variable {s : List Char}

theorem readUnits_extend : ∀ {us : List Nat} {rest : List Char} (t : List Char),
    readUnits s = some (us, rest) → readUnits (s ++ t) = some (us, rest ++ t) := by
  fun_induction readUnits s with
  | case1 => intro us rest t h; cases h
  | case2 rest => intro us rest' t h; cases h; rfl
  | case3 a b c d s ih =>
    intro us rest t h
    obtain ⟨n, hn, h⟩ := Option.bind_eq_some_iff.mp h
    obtain ⟨p, hp, h⟩ := Option.map_eq_some_iff.mp h
    cases h
    simp only [List.cons_append, readUnits, hn, Option.bind_some, ih t hp, Option.map_some]
  | case4 e s hne ih =>
    intro us rest t h
    obtain ⟨c, hc, h⟩ := Option.bind_eq_some_iff.mp h
    obtain ⟨p, hp, h⟩ := Option.map_eq_some_iff.mp h
    cases h
    have hu : e ≠ 'u' := by
      rintro rfl
      cases hc
    rw [List.cons_append, List.cons_append, readUnits, hc, Option.bind_some, ih t hp,
      Option.map_some]
    exact fun _ _ _ _ _ he => absurd he hu
  | case5 c s hquote hescape hshort hbad => intro us rest t h; cases h
  | case6 c s hquote hescape hshort hgood ih =>
    intro us rest t h
    obtain ⟨p, hp, h⟩ := Option.map_eq_some_iff.mp h
    cases h
    have hslash : c ≠ '\\' := fun hc => hgood (.inr hc)
    rw [List.cons_append, readUnits, if_neg hgood, ih t hp, Option.map_some]
    · exact hquote
    · exact fun _ _ _ _ _ hc => absurd hc hslash
    · exact fun _ _ hc => absurd hc hslash

theorem readChars_extend {s cs rest : List Char} (t : List Char)
    (h : readChars s = some (cs, rest)) : readChars (s ++ t) = some (cs, rest ++ t) := by
  obtain ⟨p, hp, h⟩ := Option.bind_eq_some_iff.mp h
  obtain ⟨us, hus, h⟩ := Option.map_eq_some_iff.mp h
  cases h
  rw [readChars, readUnits_extend t hp, Option.bind_some, hus, Option.map_some]

/-! ## Numbers -/

/-- What follows a number, and ends it. -/
def Stops (rest : List Char) : Prop := rest ≠ [] ∧ EndsNumber rest

theorem digits_extend (t : List Char) (h : s.dropWhile Char.isDigit ≠ []) :
    (s ++ t).takeWhile Char.isDigit = s.takeWhile Char.isDigit ∧
      (s ++ t).dropWhile Char.isDigit = s.dropWhile Char.isDigit ++ t := by
  induction s with
  | nil => exact absurd rfl h
  | cons c s ih =>
    by_cases hc : c.isDigit = true
    · rw [List.dropWhile_cons_of_pos hc] at h
      obtain ⟨htake, hdrop⟩ := ih h
      simp only [List.cons_append, List.takeWhile_cons, List.dropWhile_cons, hc, if_true, htake,
        hdrop, and_self]
    · simp only [List.cons_append, List.takeWhile_cons, List.dropWhile_cons, hc,
        Bool.false_eq_true, if_false, and_self]

theorem readWhole_extend {s ds rest : List Char} (t : List Char)
    (h : readWhole s = some (ds, rest)) (hrest : rest ≠ []) :
    readWhole (s ++ t) = some (ds, rest ++ t) := by
  unfold readWhole at h
  split at h
  · cases h
  · cases h
    rfl
  · next c s hzero =>
    split at h
    · next hc =>
      cases h
      obtain ⟨htake, hdrop⟩ := digits_extend t hrest
      rw [List.cons_append] at htake hdrop ⊢
      rw [readWhole, if_pos hc, htake, hdrop]
      exact fun heq => hzero heq
    · cases h

theorem readExp_extend (t : List Char) (hrest : Stops (readExp s).2) :
    readExp (s ++ t) = ((readExp s).1, (readExp s).2 ++ t) := by
  cases s with
  | nil => exact absurd rfl hrest.1
  | cons c s =>
    rw [readExp] at hrest ⊢
    by_cases hexp : (c = 'e' ∨ c = 'E') ∧ (readSign s).2.takeWhile Char.isDigit ≠ []
    · rw [if_pos hexp] at hrest ⊢
      have hsign : readSign (s ++ t) = ((readSign s).1, (readSign s).2 ++ t) := by
        cases s with
        | nil => exact absurd rfl hexp.2
        | cons d s =>
          unfold readSign
          rw [List.cons_append]
          split <;> split <;> simp_all
      obtain ⟨htake, hdrop⟩ := digits_extend t hrest.1
      rw [List.cons_append, readExp, hsign]
      simp only [htake, hdrop, if_pos hexp]
    · rw [if_neg hexp] at hrest ⊢
      obtain ⟨-, -, he, hE⟩ := hrest.2 c rfl
      rw [List.cons_append, readExp, if_neg fun h => h.1.elim he hE]

theorem readExp_nil (h : (readExp s).2 ≠ []) : s ≠ [] := by
  rintro rfl
  exact h rfl

theorem readFrac_extend (t : List Char) (hrest : Stops (readExp (readFrac s).2).2) :
    readFrac (s ++ t) = ((readFrac s).1, (readFrac s).2 ++ t) := by
  have hne := readExp_nil hrest.1
  cases s with
  | nil => exact absurd rfl hne
  | cons c s =>
    by_cases hpoint : c = '.'
    · subst hpoint
      rw [List.cons_append, readFrac, readFrac]
      by_cases hdigits : s.takeWhile Char.isDigit = []
      · -- A point without digits is left, and does not end a number.
        rw [readFrac, if_pos hdigits, readExp, if_neg fun h => h.1.elim (by decide) (by decide)] at hrest
        exact absurd rfl (hrest.2 '.' rfl).2.1
      · rw [readFrac, if_neg hdigits] at hne
        obtain ⟨htake, hdrop⟩ := digits_extend t hne
        rw [htake, hdrop, if_neg hdigits, if_neg hdigits]
    · have hread : ∀ r : List Char, readFrac (c :: r) = ([], c :: r) := by
        intro r
        rw [readFrac]
        exact fun s' heq => absurd (List.cons.inj heq).1 hpoint
      rw [List.cons_append, hread, hread]
      rfl

variable {s rest : List Char} {n : NumberToken}

theorem readUnsigned_extend {neg : Bool} (t : List Char)
    (h : readUnsigned neg s = some (n, rest)) (hrest : Stops rest) :
    readUnsigned neg (s ++ t) = some (n, rest ++ t) := by
  obtain ⟨p, hp, h⟩ := Option.map_eq_some_iff.mp h
  cases h
  have hwhole : p.2 ≠ [] := by
    intro hnil
    rw [hnil] at hrest
    exact hrest.1 rfl
  rw [readUnsigned, readWhole_extend t hp hwhole, Option.map_some]
  simp only [readFrac_extend t hrest, readExp_extend t hrest]

theorem readNumber_extend (t : List Char)
    (h : readNumber s = some (n, rest)) (hrest : Stops rest) :
    readNumber (s ++ t) = some (n, rest ++ t) := by
  unfold readNumber at h
  split at h
  · exact readUnsigned_extend t h hrest
  · next hsign =>
    have hread := readUnsigned_extend t h hrest
    unfold readNumber
    split
    · next s' heq =>
      cases s with
      | nil => cases h
      | cons c s => exact absurd (by rw [(List.cons.inj heq).1]) (hsign s)
    · exact hread

end JsonText

namespace Json

open JsonText

variable {φ : Type} {F : FloatFormat φ}

/-! ## Values -/

variable {s : List Char}

theorem skipWhite_append (t : List Char) (h : skipWhite s ≠ []) :
    skipWhite (s ++ t) = skipWhite s ++ t := by
  unfold skipWhite at h ⊢
  rw [List.dropWhile_append, if_neg (by simpa using h)]

variable {c : Char}

theorem skipWhite_extend {s' : List Char} (t : List Char)
    (h : skipWhite s = c :: s') : skipWhite (s ++ t) = c :: (s' ++ t) := by
  rw [skipWhite_append t (by rw [h]; exact List.cons_ne_nil _ _), h, List.cons_append]

theorem readValue_nil (n : Nat) : readValue F n [] = none := by
  cases n <;> rfl

theorem readElems_nil (n : Nat) : readElems F n [] = none := by
  cases n with
  | zero => rfl
  | succ n => rw [readElems, readValue_nil, Option.bind_none]

theorem readItems_nil (n : Nat) : readItems F n [] = none := by
  cases n <;> rfl

/-- A text from which something is read is not empty. -/
theorem ne_nil_of_read {α : Type} {read : List Char → Option α} (hnil : read [] = none)
    {a : α} (h : read s = some a) : s ≠ [] := by
  rintro rfl
  rw [hnil] at h
  cases h

/-- White space, a comma and a closing bracket end a number. -/
theorem stops_of_skipWhite {rest s : List Char} (h : skipWhite rest = c :: s)
    (hc : EndsNumber [c]) : Stops rest := by
  cases rest with
  | nil => cases h
  | cons d rest =>
    refine ⟨List.cons_ne_nil _ _, fun e he => ?_⟩
    cases he
    cases hd : isWhite d with
    | true =>
      have hcases : d = ' ' ∨ d = '\t' ∨ d = '\n' ∨ d = '\r' := by
        simpa [isWhite, or_assoc] using hd
      rcases hcases with rfl | rfl | rfl | rfl <;> decide
    | false =>
      rw [skipWhite_cons hd] at h
      obtain ⟨rfl, -⟩ := List.cons.inj h
      exact hc d rfl

theorem endsNumber_singleton (h : c.isDigit = false ∧ c ≠ '.' ∧ c ≠ 'e' ∧ c ≠ 'E') :
    EndsNumber [c] := by
  intro d hd
  cases hd
  exact h

/-- What starts like a number is read as one. -/
theorem readValue_scalar {p : NumberToken × List Char}
    (h : readNumber s = some p) (n : Nat) (t : List Char) :
    readValue F (n + 1) (s ++ t) = readScalar F (s ++ t) := by
  have hwhole : ∀ {s : List Char} {neg : Bool} {p : NumberToken × List Char},
      readUnsigned neg s = some p → ∃ d ds, s = d :: ds ∧ d.isDigit = true := by
    intro s neg p h
    obtain ⟨q, hq, -⟩ := Option.map_eq_some_iff.mp h
    unfold readWhole at hq
    split at hq
    · cases hq
    · exact ⟨'0', _, rfl, by decide⟩
    · split at hq
      · next hd => exact ⟨_, _, rfl, hd⟩
      · cases hq
  unfold readNumber at h
  split at h
  · obtain ⟨d, ds, rfl, hd⟩ := hwhole h
    have hd := isDigit_cases hd
    simp only [List.mem_cons, List.not_mem_nil, or_false] at hd
    rcases hd with rfl | rfl | rfl | rfl | rfl | rfl | rfl | rfl | rfl | rfl <;> rfl
  · obtain ⟨d, ds, rfl, hd⟩ := hwhole h
    have hd := isDigit_cases hd
    simp only [List.mem_cons, List.not_mem_nil, or_false] at hd
    rcases hd with rfl | rfl | rfl | rfl | rfl | rfl | rfl | rfl | rfl | rfl <;> rfl

variable {v : Value φ}

theorem readScalar_extend {s rest : List Char} (t : List Char)
    (h : readScalar F s = some (v, rest)) (hrest : Stops rest) :
    readScalar F (s ++ t) = some (v, rest ++ t) := by
  obtain ⟨p, hp, h⟩ := Option.map_eq_some_iff.mp h
  cases h
  rw [readScalar, readNumber_extend t hp hrest, Option.map_some]

/-- **What is read stays read** when the text goes on, and with more turns. Each reader is given
`n` turns for the one before. -/
theorem read_extend (n : Nat) :
    (∀ s v rest t m, readValue F n s = some (v, rest) → s.head? = some '{' ∨ Stops rest → n ≤ m →
      readValue F m (s ++ t) = some (v, rest ++ t)) ∧
    (∀ s vs rest t m, readElems F n s = some (vs, rest) → n ≤ m →
      readElems F m (s ++ t) = some (vs, rest ++ t)) ∧
    ∀ s items rest t m, readItems F n s = some (items, rest) → n ≤ m →
      readItems F m (s ++ t) = some (items, rest ++ t) := by
  have hcomma : EndsNumber [','] := endsNumber_singleton (by decide)
  have hbracket : EndsNumber [']'] := endsNumber_singleton (by decide)
  have hbrace : EndsNumber ['}'] := endsNumber_singleton (by decide)
  induction n with
  | zero =>
    refine ⟨fun s v rest t m h => ?_, fun s vs rest t m h => ?_, fun s items rest t m h => ?_⟩
    · cases h
    · cases h
    · cases h
  | succ n ih =>
    obtain ⟨hvalue, helems, hitems⟩ := ih
    refine ⟨fun s v rest t m h hrest hm => ?_, fun s vs rest t m h hm => ?_,
      fun s items rest t m h hm => ?_⟩
    · obtain ⟨k, rfl⟩ : ∃ k, m = k + 1 := ⟨m - 1, by omega⟩
      have hk : n ≤ k := by omega
      unfold readValue at h
      split at h
      · obtain ⟨p, hp, h⟩ := Option.map_eq_some_iff.mp h
        cases h
        rw [List.cons_append, readValue, readChars_extend t hp, Option.map_some]
      · next s =>
        rw [List.cons_append, readValue]
        split at h
        · next heq =>
          cases h
          simp only [skipWhite_extend t heq]
        · next hne =>
          obtain ⟨p, hp, h⟩ := Option.map_eq_some_iff.mp h
          cases h
          have hread := helems _ _ _ t k hp hk
          cases hskip : skipWhite s with
          | nil => exact absurd hskip (ne_nil_of_read (readElems_nil n) hp)
          | cons c s' =>
            rw [hskip, List.cons_append] at hread
            rw [skipWhite_extend t hskip]
            split
            · next heq => exact absurd (by rw [hskip, (List.cons.inj heq).1]) (hne s')
            · rw [hread, Option.map_some]
      · next s =>
        rw [List.cons_append, readValue]
        split at h
        · next heq =>
          cases h
          simp only [skipWhite_extend t heq]
        · next hne =>
          obtain ⟨p, hp, h⟩ := Option.map_eq_some_iff.mp h
          cases h
          have hread := hitems _ _ _ t k hp hk
          cases hskip : skipWhite s with
          | nil => exact absurd hskip (ne_nil_of_read (readItems_nil n) hp)
          | cons c s' =>
            rw [hskip, List.cons_append] at hread
            rw [skipWhite_extend t hskip]
            split
            · next heq => exact absurd (by rw [hskip, (List.cons.inj heq).1]) (hne s')
            · rw [hread, Option.map_some]
      · cases h; rfl
      · cases h; rfl
      · cases h; rfl
      · cases h; rfl
      · cases h; rfl
      · cases h; rfl
      · obtain ⟨p, hp, -⟩ := Option.map_eq_some_iff.mp h
        have hbrace : s.head? ≠ some '{' := by
          intro heq
          obtain ⟨s', rfl⟩ := List.head?_eq_some_iff.mp heq
          cases hp
        rw [readValue_scalar hp, readScalar_extend t h (hrest.resolve_left hbrace)]
    · obtain ⟨k, rfl⟩ : ∃ k, m = k + 1 := ⟨m - 1, by omega⟩
      have hk : n ≤ k := by omega
      rw [readElems, Option.bind_eq_some_iff] at h
      obtain ⟨p, hp, h⟩ := h
      split at h
      · next s' hskip =>
        obtain ⟨q, hq, h⟩ := Option.map_eq_some_iff.mp h
        cases h
        have hread := hvalue _ _ _ t k hp (.inr (stops_of_skipWhite hskip hcomma)) hk
        have hmore := skipWhite_append t (ne_nil_of_read (readElems_nil n) hq)
        rw [readElems, hread, Option.bind_some]
        simp only [skipWhite_extend t hskip, hmore, helems _ _ _ t k hq hk, Option.map_some]
      · next hskip =>
        cases h
        have hread := hvalue _ _ _ t k hp (.inr (stops_of_skipWhite hskip hbracket)) hk
        rw [readElems, hread, Option.bind_some]
        simp only [skipWhite_extend t hskip]
      · cases h
    · obtain ⟨k, rfl⟩ : ∃ k, m = k + 1 := ⟨m - 1, by omega⟩
      have hk : n ≤ k := by omega
      unfold readItems at h
      split at h
      · obtain ⟨key, hkey, h⟩ := Option.bind_eq_some_iff.mp h
        rw [List.cons_append, readItems, readChars_extend t hkey, Option.bind_some]
        split at h
        · next s₁ hcolon =>
          obtain ⟨p, hp, h⟩ := Option.bind_eq_some_iff.mp h
          have hmore := skipWhite_append t (ne_nil_of_read (readValue_nil n) hp)
          simp only [skipWhite_extend t hcolon, hmore]
          split at h
          · next s₂ hskip =>
            obtain ⟨q, hq, h⟩ := Option.map_eq_some_iff.mp h
            cases h
            have hread := hvalue _ _ _ t k hp (.inr (stops_of_skipWhite hskip hcomma)) hk
            have hmore := skipWhite_append t (ne_nil_of_read (readItems_nil n) hq)
            rw [hread, Option.bind_some]
            simp only [skipWhite_extend t hskip, hmore, hitems _ _ _ t k hq hk, Option.map_some]
          · next hskip =>
            cases h
            have hread := hvalue _ _ _ t k hp (.inr (stops_of_skipWhite hskip hbrace)) hk
            rw [hread, Option.bind_some]
            simp only [skipWhite_extend t hskip]
          · cases h
        · cases h
      · cases h

/-! ## Texts -/

variable {w : List Char} (hw : ∀ c ∈ w, isWhite c = true)

theorem writeSep_obj (items : List (String × Value φ)) :
    ∃ cs, writeSep F w (.obj items) = '{' :: cs := by
  rcases items with _ | ⟨⟨k, v⟩, items⟩
  · exact ⟨_, rfl⟩
  · exact ⟨_, rfl⟩

theorem write_obj (items : List (String × Value φ)) : ∃ cs, write F (.obj items) = '{' :: cs := by
  rw [write_eq_sep]
  exact writeSep_obj items

variable {items : List (String × Value φ)} {p t : List Char}

include hw in
/-- **Cut texts.** A written object that is cut is not valid. -/
theorem loads_cutSep (hv : Canonical (.obj items))
    (h : writeSep F w (.obj items) = p ++ t) (ht : t ≠ []) :
    loads F (String.ofList p) = none := by
  obtain ⟨cs, hcs⟩ := writeSep_obj (F := F) (w := w) items
  unfold loads
  rw [String.toList_ofList]
  generalize 2 * (String.ofList p).length + 1 = n
  cases p with
  | nil =>
    have hnil : skipWhite [] = [] := rfl
    rw [hnil, readValue_nil]
  | cons c p =>
    obtain ⟨rfl, -⟩ := List.cons.inj (hcs.symm.trans h)
    rw [skipWhite_cons (by decide)]
    cases hread : readValue F n ('{' :: p) with
    | none => rfl
    | some q =>
      obtain ⟨v, rest⟩ := q
      -- The whole text would be read up to `rest ++ t`, and it is read up to its end.
      have hlong := (read_extend n).1 _ _ _ t (n + (writeSep F w (.obj items)).length) hread
        (.inl rfl) (Nat.le_add_right _ _)
      have hwhole := readValue_writeSep (F := F) hw hv (n + (writeSep F w (.obj items)).length) []
        (Nat.le_add_left _ _) fun c hc => by cases hc
      rw [List.append_nil] at hwhole
      rw [← h, hwhole] at hlong
      have hend : rest ++ t = [] := (Prod.mk.inj (Option.some.inj hlong)).2.symm
      exact absurd (List.append_eq_nil_iff.mp hend).2 ht

include hw in
/-- **Glued texts.** A written value that is followed by an object is not valid. -/
theorem loads_gluedSep (hv : Canonical v) (s : List Char) :
    loads F (String.ofList (writeSep F w v ++ '{' :: s)) = none := by
  have hends : EndsNumber ('{' :: s) := by
    intro c hc
    cases hc
    decide
  have hread := readValue_writeSep (F := F) hw hv
    (2 * (String.ofList (writeSep F w v ++ '{' :: s)).length + 1) ('{' :: s) (by
      rw [String.length_ofList, List.length_append]
      omega) hends
  have hwhite : skipWhite ('{' :: s) ≠ [] := by
    rw [skipWhite_cons (by decide)]
    exact List.cons_ne_nil _ _
  unfold loads
  rw [String.toList_ofList, skipWhite_write, hread]
  exact if_neg hwhite

theorem loads_cut (hv : Canonical (.obj items))
    (h : write F (.obj items) = p ++ t) (ht : t ≠ []) :
    loads F (String.ofList p) = none :=
  loads_cutSep (fun c hc => by cases hc) hv ((write_eq_sep F _).symm.trans h) ht

theorem loads_glued (hv : Canonical v) (s : List Char) :
    loads F (String.ofList (write F v ++ '{' :: s)) = none := by
  rw [write_eq_sep]
  exact loads_gluedSep (fun c hc => by cases hc) hv s

end Json
