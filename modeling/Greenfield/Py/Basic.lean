import Mathlib.Algebra.Order.Ring.Rat
import Mathlib.Algebra.Order.Field.Rat
import Mathlib.Algebra.Order.AbsoluteValue.Basic
import Mathlib.Data.List.Forall2
import Mathlib.Data.List.Sort
import Mathlib.Order.Lattice

/-!
# Python values

What the modelled modules use of Python and its standard library. Floats and
`Decimal`s are read as exact rationals, so every value is finite and `isfinite` tests
hold; the text of a `Decimal` is identified with its value. A `datetime` is a reading
in microseconds with an optional UTC offset; an aware one denotes an `Instant`
(microseconds in UTC), and stored ISO timestamps are identified with the instant.
Digests (`uuid5`, SHA-256) are parameters.
-/

namespace Greenfield.Py

/-- Exceptions, with their message. -/
inductive PyError where
  | valueError (msg : String)
  | typeError (msg : String)
  | keyError (msg : String)
  | assertionError
  | integrityError (msg : String)
  | paperReconciliation (msg : String)
  /-- `DemoExecutionLagError`, a `PaperReconciliationError`. -/
  | demoExecutionLag (msg : String)
  | autonomousDemoState (msg : String)
  /-- `AutonomousDemoEntryNotAuthorizedError`, an `AutonomousDemoStateError`. -/
  | entryNotAuthorized (msg : String)
  | bybitDemoGateway (msg : String)
  | liveTradingBlocked (msg : String)
  | portfolioRiskState (msg : String)
  | osError
  | shadowAudit (msg : String)
  | shadowLoopFatal (msg : String)
  | shadowWorkStore (msg : String)
  /-- An error of the database, after which the transaction is rolled back. -/
  | databaseError (msg : String)
  deriving DecidableEq, Repr

/-! ## Strings -/

/-- `c.isspace()`. -/
def isSpace (c : Char) : Bool :=
  let n := c.toNat
  (9 ≤ n && n ≤ 13) || (28 ≤ n && n ≤ 32) || n == 0x85 || n == 0xA0 || n == 0x1680 ||
    (0x2000 ≤ n && n ≤ 0x200A) || n == 0x2028 || n == 0x2029 || n == 0x202F || n == 0x205F ||
    n == 0x3000

/-- `not s.strip()`. -/
def isBlank (s : String) : Bool := s.toList.all isSpace

theorem isBlank_append (a b : String) : isBlank (a ++ b) = (isBlank a && isBlank b) := by
  unfold isBlank
  rw [String.toList_append, List.all_append]

theorem toString_injective {i j : Nat} (h : toString i = toString j) : i = j := by
  have hdigits := congrArg String.toList h
  simp only [Nat.toString_eq_ofList_toDigits, String.toList_ofList] at hdigits
  have hi := @Nat.ofDigitChars_ten_toDigits i
  rw [hdigits, Nat.ofDigitChars_ten_toDigits] at hi
  exact hi.symm

/-- Texts that are read up to a character that neither has. -/
theorem append_cons_inj {c : Char} : ∀ {x y s t : List Char}, c ∉ x → c ∉ y →
    x ++ c :: s = y ++ c :: t → x = y ∧ s = t
  | [], [], _, _, _, _, h => ⟨rfl, (List.cons.inj h).2⟩
  | [], d :: y, _, _, _, hy, h => by
    rw [(List.cons.inj h).1] at hy
    exact absurd List.mem_cons_self hy
  | d :: x, [], _, _, hx, _, h => by
    rw [← (List.cons.inj h).1] at hx
    exact absurd List.mem_cons_self hx
  | d :: x, e :: y, _, _, hx, hy, h => by
    obtain ⟨rfl, hrest⟩ := List.cons.inj h
    obtain ⟨rfl, rfl⟩ := append_cons_inj (fun hd => hx (List.mem_cons_of_mem _ hd))
      (fun hd => hy (List.mem_cons_of_mem _ hd)) hrest
    exact ⟨rfl, rfl⟩

/-- `s.strip()`. -/
def strip (s : String) : String :=
  String.ofList ((s.toList.dropWhile isSpace).reverse.dropWhile isSpace).reverse

/-- The truth of an `Optional[str]`. -/
def truthy (s : Option String) : Bool := s ≠ none ∧ s ≠ some ""

/-- `s.startswith(p)`. -/
def startsWith (s p : String) : Bool := p.toList.isPrefixOf s.toList

/-- `f"{s!r}"` of a string without quotes or escapes. -/
def quoted (s : String) : String := "'" ++ s ++ "'"

/-- What `splitlines` ends a line at. -/
def isLineEnd (c : Char) : Bool :=
  let n := c.toNat
  (10 ≤ n && n ≤ 13) || (28 ≤ n && n ≤ 30) || n == 0x85 || n == 0x2028 || n == 0x2029

/-- The lines of a text, of which `line` was read backwards. -/
def linesFrom (line : List Char) : List Char → List (List Char)
  | [] => if line = [] then [] else [line.reverse]
  | '\r' :: '\n' :: s => line.reverse :: linesFrom [] s
  | c :: s => if isLineEnd c then line.reverse :: linesFrom [] s else linesFrom (c :: line) s

/-- `s.splitlines()`. -/
def splitlines (s : String) : List String := (linesFrom [] s.toList).map String.ofList

theorem linesFrom_line {cs : List Char} (h : ∀ c ∈ cs, isLineEnd c = false) (line s : List Char) :
    linesFrom line (cs ++ '\n' :: s) = (line.reverse ++ cs) :: linesFrom [] s := by
  induction cs generalizing line with
  | nil =>
    have hend : isLineEnd '\n' = true := by decide
    rw [List.nil_append, List.append_nil, linesFrom, if_pos hend]
    intro s' hr
    cases hr
  | cons c cs ih =>
    have hc := h c List.mem_cons_self
    rw [List.cons_append, linesFrom, if_neg (by rw [hc]; decide),
      ih (fun d hd => h d (List.mem_cons_of_mem c hd)), List.reverse_cons, List.append_assoc]
    · rfl
    · rintro s' rfl
      cases hc

theorem linesFrom_ne_nil {line s : List Char} (h : line ≠ [] ∨ s ≠ []) : linesFrom line s ≠ [] := by
  induction s generalizing line with
  | nil =>
    rw [linesFrom, if_neg (h.resolve_right fun hs => hs rfl)]
    exact List.cons_ne_nil _ _
  | cons c s ih =>
    unfold linesFrom
    split
    · next heq => cases heq
    · exact List.cons_ne_nil _ _
    · next heq =>
      cases heq
      split
      · exact List.cons_ne_nil _ _
      · exact ih (.inl (List.cons_ne_nil _ _))

/-- Only the empty text has no lines. -/
theorem splitlines_eq_nil {s : String} (h : splitlines s = []) : s = "" := by
  have hlines : linesFrom [] s.toList = [] := List.map_eq_nil_iff.mp h
  by_cases hs : s.toList = []
  · exact String.toList_injective hs
  · exact absurd hlines (linesFrom_ne_nil (.inr hs))

/-- Lines that are written each with a line feed. -/
def joinLines (lines : List String) : String :=
  String.ofList (lines.flatMap fun l => l.toList ++ ['\n'])

theorem joinLines_append (lines : List String) (l : String) :
    joinLines (lines ++ [l]) = joinLines lines ++ (l ++ "\n") := by
  apply String.toList_injective
  simp only [joinLines, String.toList_ofList, String.toList_append, List.flatMap_append,
    List.flatMap_cons, List.flatMap_nil, List.append_nil]
  rfl

theorem splitlines_joinLines {lines : List String}
    (h : ∀ l ∈ lines, ∀ c ∈ l.toList, isLineEnd c = false) :
    splitlines (joinLines lines) = lines := by
  unfold splitlines joinLines
  rw [String.toList_ofList]
  induction lines with
  | nil => rfl
  | cons l lines ih =>
    rw [List.flatMap_cons, List.append_assoc, List.singleton_append,
      linesFrom_line (h l List.mem_cons_self), List.map_cons, List.reverse_nil, List.nil_append,
      String.ofList_toList, ih fun k hk => h k (List.mem_cons_of_mem l hk)]

/-! ## Numbers -/

/-- `math.isclose(a, b, rel_tol=.., abs_tol=..)`. -/
def isclose (a b relTol absTol : ℚ) : Bool :=
  a = b ∨ |b - a| ≤ |relTol * b| ∨ |b - a| ≤ |relTol * a| ∨ |b - a| ≤ absTol

@[simp] theorem isclose_self (a r t : ℚ) : isclose a a r t = true := by
  simp [isclose]

/-- `x.to_integral_value(rounding=ROUND_DOWN)`. -/
def roundDown (x : ℚ) : ℤ := if 0 ≤ x then x.floor else x.ceil

/-- `round(x)`: to the nearest integer, and to the even one of two. -/
def roundHalfEven (x : ℚ) : ℤ :=
  if x - x.floor < 1 / 2 ∨ x - x.floor = 1 / 2 ∧ x.floor % 2 = 0 then x.floor else x.floor + 1

/-! ## Time -/

/-- Microseconds since the epoch, UTC. -/
abbrev Instant := Int

structure Datetime where
  micros : Int
  /-- `tzinfo` as an offset in microseconds; `none` is naive. -/
  utcOffset : Option Int
  deriving DecidableEq, Repr

/-- The aware datetime of an instant. -/
def Datetime.ofInstant (i : Instant) : Datetime := ⟨i, some 0⟩

/-- `value.astimezone(UTC)` after the `tzinfo` test, with the module's message. -/
def utcOr (value : Datetime) (msg : String) : Except PyError Instant :=
  match value.utcOffset with
  | none => .error (.valueError msg)
  | some o => .ok (value.micros - o)

/-- `_utc(value, name)`. -/
def utc (value : Datetime) (name : String) : Except PyError Instant :=
  utcOr value (name ++ " must be timezone-aware")

theorem epoch_aware : (Datetime.ofInstant 0).utcOffset ≠ none := Option.some_ne_none 0

@[simp] theorem utc_ofInstant (i : Instant) (name : String) :
    utc (.ofInstant i) name = .ok i := by
  simp [utc, utcOr, Datetime.ofInstant]

def microsPerSecond : Int := 1000000

def microsPerDay : Int := 86400 * microsPerSecond

/-- `timedelta(seconds=seconds)` in microseconds. -/
def timedelta (seconds : ℚ) : Int := roundHalfEven (seconds * microsPerSecond)

/-- `now.date()` of a UTC datetime, as days since the epoch. -/
def utcDate (i : Instant) : Int := i / microsPerDay

/-! ## Order -/

/-- `sorted` with a total preorder: insertion sort, which is stable. -/
def sorted {α : Type} (le : α → α → Bool) (l : List α) : List α :=
  l.insertionSort fun a b => le a b = true

variable {α : Type} {le : α → α → Bool}

theorem mem_sorted {l : List α} {x : α} :
    x ∈ sorted le l ↔ x ∈ l := List.mem_insertionSort _

theorem pairwise_sorted (le : α → α → Bool)
    (htotal : ∀ a b, le a b = true ∨ le b a = true)
    (htrans : ∀ a b c, le a b = true → le b c = true → le a c = true) (l : List α) :
    (sorted le l).Pairwise fun a b => le a b = true :=
  haveI : Std.Total fun a b => le a b = true := ⟨htotal⟩
  haveI : IsTrans α fun a b => le a b = true := ⟨htrans⟩
  List.pairwise_insertionSort _ l

theorem sorted_eq_self {l : List α}
    (h : l.Pairwise fun a b => le a b = true) : sorted le l = l := h.insertionSort_eq

/-- A list that is a permutation of one in order, and sorted, is that one. -/
theorem sorted_eq_of_perm
    (htotal : ∀ a b, le a b = true ∨ le b a = true)
    (htrans : ∀ a b c, le a b = true → le b c = true → le a c = true) {l l' : List α}
    (hperm : l.Perm l') (hsorted : l'.Pairwise fun a b => le a b = true)
    (hanti : ∀ a ∈ l', ∀ b ∈ l', le a b = true → le b a = true → a = b) : sorted le l = l' := by
  have hp : (sorted le l).Perm l' := (List.perm_insertionSort _ l).trans hperm
  exact hp.eq_of_pairwise (fun a b ha hb => hanti a (hp.mem_iff.mp ha) b hb)
    (pairwise_sorted le htotal htrans l) hsorted

/-- The sort is stable. -/
theorem filter_sorted
    (htotal : ∀ a b, le a b = true ∨ le b a = true)
    (htrans : ∀ a b c, le a b = true → le b c = true → le a c = true) (p : α → Bool) (l : List α) :
    (sorted le l).filter p = sorted le (l.filter p) := by
  have hinsert : ∀ (a : α) (l : List α), l.Pairwise (fun a b => le a b = true) →
      (l.orderedInsert (fun a b => le a b = true) a).filter p =
        if p a then (l.filter p).orderedInsert (fun a b => le a b = true) a else l.filter p := by
    intro a l
    induction l with
    | nil => intro _; by_cases hp : p a = true <;> simp [hp]
    | cons b l ih =>
      intro hl
      obtain ⟨hb, hl⟩ := List.pairwise_cons.mp hl
      by_cases hab : le a b = true
      · rw [List.orderedInsert, if_pos hab]
        by_cases hp : p a = true
        · rw [List.filter_cons_of_pos hp, if_pos hp]
          cases hfilter : (b :: l).filter p with
          | nil => rfl
          | cons c rest =>
            have hc : c ∈ b :: l := (List.mem_filter.mp (hfilter ▸ List.mem_cons_self)).1
            have hac : le a c = true := by
              rcases List.mem_cons.mp hc with rfl | hc
              · exact hab
              · exact htrans a b c hab (hb c hc)
            rw [List.orderedInsert, if_pos hac]
        · rw [List.filter_cons_of_neg hp, if_neg hp]
      · rw [List.orderedInsert, if_neg hab]
        by_cases hpb : p b = true
        · rw [List.filter_cons_of_pos hpb, List.filter_cons_of_pos hpb, ih hl]
          by_cases hp : p a = true
          · rw [if_pos hp, if_pos hp, List.orderedInsert, if_neg hab]
          · rw [if_neg hp, if_neg hp]
        · rw [List.filter_cons_of_neg hpb, List.filter_cons_of_neg hpb, ih hl]
  induction l with
  | nil => rfl
  | cons a l ih =>
    have hcons : sorted le (a :: l) = (sorted le l).orderedInsert (fun a b => le a b = true) a := rfl
    rw [hcons, hinsert a _ (pairwise_sorted le htotal htrans l), ih]
    by_cases hp : p a = true
    · rw [if_pos hp, List.filter_cons_of_pos hp]
      rfl
    · rw [if_neg hp, List.filter_cons_of_neg hp]

section

variable {α κ : Type} [LinearOrder κ] (key : α → κ)

theorem pairwise_sorted_key (l : List α) :
    (sorted (fun a b => decide (key a ≤ key b)) l).Pairwise fun a b => key a ≤ key b := by
  have hsorted := pairwise_sorted (fun a b => decide (key a ≤ key b))
    (fun a b => by simpa using le_total (key a) (key b))
    (fun a b c hab hbc => by simp at hab hbc ⊢; exact hab.trans hbc) l
  simpa using hsorted

/-- The first of a sorted list. -/
theorem head_sorted_key (l : List α) :
    ((sorted (fun a b => decide (key a ≤ key b)) l).head? = none ↔ l = []) ∧
      ∀ x, (sorted (fun a b => decide (key a ≤ key b)) l).head? = some x →
        x ∈ l ∧ ∀ y ∈ l, key x ≤ key y := by
  have hpairwise := pairwise_sorted_key key l
  have hmem : ∀ x, x ∈ sorted (fun a b => decide (key a ≤ key b)) l ↔ x ∈ l := fun x => mem_sorted
  revert hpairwise hmem
  cases sorted (fun a b => decide (key a ≤ key b)) l with
  | nil =>
    intro _ hmem
    refine ⟨iff_of_true rfl (List.eq_nil_iff_forall_not_mem.mpr fun x hx => ?_), nofun⟩
    exact List.not_mem_nil ((hmem x).mpr hx)
  | cons first rest =>
    intro hpairwise hmem
    constructor
    · refine iff_of_false nofun fun hnil => ?_
      rw [hnil] at hmem
      exact List.not_mem_nil ((hmem first).mp List.mem_cons_self)
    · rintro x ⟨⟩
      refine ⟨(hmem first).mp List.mem_cons_self, fun y hy => ?_⟩
      rcases List.mem_cons.mp ((hmem y).mpr hy) with rfl | hy
      · exact le_refl (key y)
      · exact (List.pairwise_cons.mp hpairwise).1 y hy

end

/-! ## Transactions -/

/-- The contents after a transaction from `s`: what it committed, or `s` when it raised
and was rolled back. -/
def commit {σ α : Type} (t : Except PyError (α × σ)) (s : σ) : σ :=
  match t with
  | .ok (_, s') => s'
  | .error _ => s

variable {σ α : Type}

@[simp] theorem commit_ok (a : α) (s s' : σ) : commit (.ok (a, s')) s = s' := rfl

@[simp] theorem commit_error (e : PyError) (s : σ) :
    commit (.error e : Except PyError (α × σ)) s = s := rfl

/-- What a transaction answers, and the contents it leaves. -/
def outcome {σ α : Type} (t : Except PyError (α × σ)) (s : σ) : Except PyError α × σ :=
  match t with
  | .ok (a, s') => (.ok a, s')
  | .error e => (.error e, s)

/-- A transaction commits what it returns, or raises and leaves the contents. -/
theorem outcome_cases {t : Except PyError (α × σ)} {s s' : σ} {r : Except PyError α}
    (h : (r, s') = outcome t s) :
    (∃ a, r = .ok a ∧ t = .ok (a, s')) ∨ ∃ e, r = .error e ∧ t = .error e ∧ s' = s := by
  cases t with
  | error e => cases h; exact .inr ⟨e, rfl, rfl, rfl⟩
  | ok p => cases h; exact .inl ⟨p.1, rfl, rfl⟩

/-- From a bind that succeeds, the step and the rest that succeed. -/
theorem bind_eq_ok {ε α β : Type} {x : Except ε α} {f : α → Except ε β} {b : β} :
    (x >>= f) = .ok b ↔ ∃ a, x = .ok a ∧ f a = .ok b := by
  cases x with
  | error e => simp [bind, Except.bind]
  | ok a => simp [bind, Except.bind]

/-- From a bind that raises, the step or the rest that raises. -/
theorem bind_eq_error {ε α β : Type} {x : Except ε α} {f : α → Except ε β} {e : ε} :
    (x >>= f) = .error e ↔ x = .error e ∨ ∃ a, x = .ok a ∧ f a = .error e := by
  cases x with
  | error e => simp [bind, Except.bind]
  | ok a => simp [bind, Except.bind]

section Loops

variable {ε ε' α β γ : Type} {f : α → Except ε β} {as : List α} {bs : List β}

/-- A loop goes through when it goes through every element. -/
theorem mapM_eq_ok {bs : List β} :
    as.mapM f = .ok bs ↔ List.Forall₂ (fun a b => f a = .ok b) as bs := by
  induction as generalizing bs with
  | nil =>
    rw [List.forall₂_nil_left_iff]
    exact ⟨fun h => (Except.ok.inj h).symm, fun h => h ▸ rfl⟩
  | cons a as ih =>
    rw [List.mapM_cons, List.forall₂_cons_left_iff]
    simp only [bind_eq_ok, ih]
    constructor
    · rintro ⟨b, hb, bs', hbs, h⟩
      cases h
      exact ⟨b, bs', hb, hbs, rfl⟩
    · rintro ⟨b, bs', hb, hbs, rfl⟩
      exact ⟨b, hb, bs', hbs, rfl⟩

/-- What holds of all results of `f` holds of the results of a loop over `f`. -/
theorem forall_of_mapM {P : β → Prop} (hf : ∀ a b, f a = .ok b → P b) (h : as.mapM f = .ok bs) :
    ∀ b ∈ bs, P b := by
  rw [mapM_eq_ok] at h
  induction h with
  | nil => exact nofun
  | cons hab _ ih => exact List.forall_mem_cons.mpr ⟨hf _ _ hab, ih⟩

/-- What a loop over `f` reads of its results is what it reads of its elements. -/
theorem map_of_mapM {g : α → γ} {k : β → γ} (hf : ∀ a b, f a = .ok b → k b = g a)
    (h : as.mapM f = .ok bs) : bs.map k = as.map g := by
  rw [mapM_eq_ok] at h
  induction h with
  | nil => rfl
  | cons hab _ ih => exact congrArg₂ List.cons (hf _ _ hab) ih

/-- A loop over `g` goes through where one over `f` does. -/
theorem mapM_of_mapM {g : α → Except ε' γ} {k : β → γ} (hf : ∀ a b, f a = .ok b → g a = .ok (k b))
    (h : as.mapM f = .ok bs) : as.mapM g = .ok (bs.map k) :=
  mapM_eq_ok.mpr (List.forall₂_map_right_iff.mpr ((mapM_eq_ok.mp h).imp hf))

/-- A loop that goes through has gone through every element. -/
theorem ok_of_mapM (h : as.mapM f = .ok bs) : ∀ a ∈ as, ∃ b, f a = .ok b := by
  rw [mapM_eq_ok] at h
  induction h with
  | nil => exact nofun
  | cons hab _ ih => exact List.forall_mem_cons.mpr ⟨⟨_, hab⟩, ih⟩

/-- A loop goes through when each of its elements does. -/
theorem exists_mapM {r : α → β → Prop} :
    ∀ {l : List α}, (∀ x ∈ l, ∃ y, f x = .ok y ∧ r x y) →
      ∃ ys, l.mapM f = .ok ys ∧ List.Forall₂ r l ys
  | [], _ => ⟨[], rfl, .nil⟩
  | x :: xs, hall => by
    obtain ⟨⟨y, hy, hr⟩, hxs⟩ := List.forall_mem_cons.mp hall
    obtain ⟨ys, hys, hrs⟩ := exists_mapM hxs
    exact ⟨y :: ys, mapM_eq_ok.mpr (.cons hy (mapM_eq_ok.mp hys)), .cons hr hrs⟩

theorem mapM_ok {g : β → γ} {h : α → γ} {l : List α} (hall : ∀ x ∈ l, ∃ y, f x = .ok y ∧ g y = h x) :
    ∃ ys, l.mapM f = .ok ys ∧ ys.map g = l.map h := by
  obtain ⟨ys, hys, hrs⟩ := exists_mapM hall
  refine ⟨ys, hys, ?_⟩
  rw [← List.forall₂_eq_eq_eq, List.forall₂_map_left_iff, List.forall₂_map_right_iff]
  exact hrs.flip

end Loops

/-- A guard that passes. -/
def require (c : Bool) (e : PyError) : Except PyError Unit := if c then .ok () else .error e

@[simp] theorem require_eq_ok {c : Bool} {e : PyError} {u : Unit} :
    require c e = .ok u ↔ c = true := by
  unfold require; split <;> simp_all

/-! ## Digests -/

/-- `uuid.uuid5(namespace, name).hex` and `hashlib.sha256(text.encode()).hexdigest()`. -/
structure Digests where
  uuid5Hex : String → String → String
  sha256Hex : String → String

def isAscii (s : String) : Bool := s.toList.all fun c => c.toNat < 128

/-- `hmac.compare_digest(a, b)`. -/
def compareDigest (a b : String) : Except PyError Bool := do
  require (isAscii a ∧ isAscii b)
    (.typeError "comparing strings with non-ASCII characters is not supported")
  .ok (a = b)

/-- A digest is 64 ASCII characters. -/
structure Digests.Hex (D : Digests) : Prop where
  length : ∀ text, (D.sha256Hex text).length = 64
  ascii : ∀ text, isAscii (D.sha256Hex text) = true

theorem compareDigest_eq_ok_true {a b : String} :
    compareDigest a b = .ok true ↔ (isAscii a = true ∧ isAscii b = true) ∧ a = b := by
  simp only [compareDigest, bind_eq_ok, require_eq_ok, decide_eq_true_eq, Except.ok.injEq,
    exists_const]

/-- The digests of some texts, and one for all others. -/
def digestOf (table : List (String × String)) : Digests where
  uuid5Hex _ _ := ""
  sha256Hex text := (table.lookup text).getD ("".pushn '0' 64)

theorem digestOf_hex {table : List (String × String)}
    (h : ∀ row ∈ table, row.2.length = 64 ∧ isAscii row.2 = true) : (digestOf table).Hex := by
  have hall : ∀ text, ((table.lookup text).getD ("".pushn '0' 64)).length = 64 ∧
      isAscii ((table.lookup text).getD ("".pushn '0' 64)) = true := by
    intro text
    cases hrow : table.lookup text with
    | none => decide +kernel
    | some checksum =>
      obtain ⟨text', hmem⟩ : ∃ text', (text', checksum) ∈ table := by
        obtain ⟨l, r, rfl, -⟩ := List.lookup_eq_some_iff.mp hrow
        exact ⟨text, by simp⟩
      exact h _ hmem
  exact ⟨fun text => (hall text).1, fun text => (hall text).2⟩

theorem digestOf_ne {text other checksum : String} {table : List (String × String)}
    (hne : other ≠ text) (hrows : ∀ row ∈ table, row.2 ≠ checksum)
    (hdefault : "".pushn '0' 64 ≠ checksum) :
    (digestOf ((text, checksum) :: table)).sha256Hex other ≠
      (digestOf ((text, checksum) :: table)).sha256Hex text := by
  show (((text, checksum) :: table).lookup other).getD _ ≠
    (((text, checksum) :: table).lookup text).getD _
  rw [List.lookup_cons_self, List.lookup_cons, beq_false_of_ne hne]
  show (table.lookup other).getD _ ≠ checksum
  cases hrow : table.lookup other with
  | none => exact hdefault
  | some found =>
    obtain ⟨l, r, rfl, -⟩ := List.lookup_eq_some_iff.mp hrow
    exact hrows (other, found) (by simp)

end Greenfield.Py
