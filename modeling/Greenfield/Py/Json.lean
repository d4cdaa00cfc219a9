import Greenfield.Lib.Json
import Greenfield.Py.Basic

/-!
# Floats, and the values that `json` reads

Finite floats are read as rationals; the text of a float is a parameter that reads back what
it writes. The texts that `str` and `repr` give, and the numerals that `int` and `Decimal` read,
are parameters too.
-/

namespace Greenfield.Py

open JsonText

/-- A Python float, of which the finite ones are read as rationals. -/
inductive PyFloat where
  | finite (q : ℚ)
  | infinite (neg : Bool)
  | nan
  deriving DecidableEq

abbrev Floats := Json.FloatFormat PyFloat

abbrev PyJson := Json.Value PyFloat

def ofRat (q : ℚ) : PyJson := .float (.finite q)

def ofOptional : Option String → PyJson
  | some s => .str s
  | none => .null

/-- Integers as Python writes them, and `n/d` with `d - 1` behind the point. -/
def sampleFloats : Floats where
  repr
    | .finite q => .token
        { NumberToken.ofInt q.num with frac := Nat.toDigits 10 (q.den - 1) }
    | .infinite neg => .infinity neg
    | .nan => .nan
  read
    | .token t => .finite (t.toInt / (Nat.ofDigitChars 10 t.frac 0 + 1))
    | .infinity neg => .infinite neg
    | .nan => .nan
  read_repr x := by
    cases x with
    | finite q =>
      have hnum : NumberToken.toInt { NumberToken.ofInt q.num with
          frac := Nat.toDigits 10 (q.den - 1) } = q.num := toInt_ofInt q.num
      have hden : ((q.den - 1 : Nat) : ℚ) + 1 = q.den := by
        have hpos := q.den_pos
        exact_mod_cast (show q.den - 1 + 1 = q.den by omega)
      simp only [hnum, Nat.ofDigitChars_ten_toDigits, hden, Rat.num_div_den]
    | infinite neg => rfl
    | nan => rfl
  valid x t h := by
    cases x with
    | finite q =>
      cases h
      have hvalid := valid_ofInt q.num
      have hfrac : Nat.toDigits 10 (q.den - 1) ≠ [] := Nat.toDigits_ne_nil
      refine ⟨⟨hvalid.whole, hvalid.wholeDigits, fun c hc => ?_, hvalid.exp⟩, ?_⟩
      · exact Nat.isDigit_of_mem_toDigits (by decide) (by decide) hc
      · simp only [NumberToken.isFloat, ne_eq, hfrac, not_false_eq_true, true_or, decide_true]
    | infinite neg => cases h
    | nan => cases h

/-- A `Decimal`, of which the finite ones are read as rationals. -/
inductive Decimal where
  | finite (q : ℚ)
  | special
  deriving DecidableEq

/-- The texts that Python gives of values, and the numbers that it reads in texts. -/
structure Texts where
  str : PyJson → String
  repr : PyJson → String
  /-- `int(text)`; `none` for its `ValueError`. -/
  int : String → Option ℤ
  /-- `Decimal(text)`; `none` for its `InvalidOperation`. -/
  decimal : String → Option Decimal
  /-- `str` of a finite `Decimal`. -/
  ofDecimal : ℚ → String

/-- `d.get(key)`. -/
def item (d : List (String × PyJson)) (key : String) : PyJson := (Json.get d key).getD .null

/-- `bool(value)`. -/
def truth : PyJson → Bool
  | .null => false
  | .bool b => b
  | .int n => n ≠ 0
  | .float x => x ≠ .finite 0
  | .str s => s ≠ ""
  | .arr elems => !elems.isEmpty
  | .obj items => !items.isEmpty

/-- `a or b`. -/
def orElse (a b : PyJson) : PyJson := if truth a then a else b

end Greenfield.Py
