import SqlComposer.Text
import SqlComposer.Number.Binary

set_option autoImplicit false

namespace SqlComposer

structure Decimal where
  digits : Nat
  exponent : Int
deriving DecidableEq

inductive Tie where
  | up
  | even

namespace Shortest

/-- The reals that round to a value, scaled by a common denominator: from `low` to `high`, both
included when `closed`. -/
structure Interval where
  low : Nat
  value : Nat
  high : Nat
  den : Nat
  closed : Bool

def interval (f : Format) (mantissa : Nat) (exponent : Int) : Interval :=
  let gap := if mantissa = f.limit / 2 ∧ f.lowest < exponent then 1 else 2
  let (unit, den) := Binary.quotient 1 (exponent - 2)
  { low := (4 * mantissa - gap) * unit
    value := 4 * mantissa * unit
    high := (4 * mantissa + 2) * unit
    den := den
    closed := mantissa % 2 == 0 }

def Interval.holds (range : Interval) (num den : Nat) : Bool :=
  let below := range.low * den
  let middle := num * range.den
  let above := range.high * den
  if range.closed then below ≤ middle && middle ≤ above else below < middle && middle < above

-- The number of digits before the decimal point, negative for zeros behind it.
def places (num den : Nat) : Int :=
  if den ≤ num then ↑(Nat.toDigits 10 (num / den)).length
  else 1 - ↑(Nat.toDigits 10 ((den - 1) / num)).length

def onGrid (tie : Tie) (range : Interval) (exponent : Int) : Option Nat :=
  let (num, den) := scaleDown 10 range.value range.den exponent
  let below := num / den
  let reads (digits : Nat) : Bool :=
    let (up, down) := scaleDown 10 digits 1 (-exponent)
    range.holds up down
  match reads below, reads (below + 1) with
  | true, false => some below
  | false, true => some (below + 1)
  | false, false => none
  | true, true =>
    let twice := 2 * (num % den)
    if twice < den then some below
    else if den < twice then some (below + 1)
    else match tie with
      | .up => some (below + 1)
      | .even => some (if below % 2 = 0 then below else below + 1)

def search (tie : Tie) (range : Interval) (top : Int) : Nat → Nat → Decimal
  | 0, count => ⟨0, top - count⟩
  | more + 1, count =>
    match onGrid tie range (top - count) with
    | some digits => ⟨digits, top - count⟩
    | none => search tie range top more (count + 1)

-- Removes trailing zeros; a number has at most as many as it has digits.
def strip (d : Decimal) : Nat → Decimal
  | 0 => d
  | more + 1 =>
    if d.digits ≠ 0 ∧ d.digits % 10 = 0 then strip ⟨d.digits / 10, d.exponent + 1⟩ more else d

end Shortest

def shortest (tie : Tie) (f : Format) (mantissa : Nat) (exponent : Int) : Decimal :=
  let range := Shortest.interval f mantissa exponent
  let found := Shortest.search tie range (Shortest.places range.value range.den) 17 1
  Shortest.strip found (Nat.toDigits 10 found.digits).length

end SqlComposer
