set_option autoImplicit false

namespace SqlComposer

structure Format where
  precision : Nat
  lowest : Int
deriving DecidableEq

-- Mantissas lie below the limit, and from half of it on unless the exponent is the lowest.
def Format.limit (f : Format) : Nat := Nat.pow 2 f.precision

def Format.single : Format := ⟨24, -149⟩
def Format.double : Format := ⟨53, -1074⟩

/-- A finite value is `mantissa * 2 ^ exponent`, with the exponent as low as the precision allows. -/
inductive Binary (f : Format) where
  | nan
  | infinite (negative : Bool)
  | finite (negative : Bool) (mantissa : Nat) (exponent : Int)
deriving DecidableEq

abbrev Single := Binary .single
abbrev Double := Binary .double

-- The quotient divided by a power of the base, again as a quotient.
def scaleDown (base num den : Nat) : Int → Nat × Nat
  | .ofNat e => (num, den * Nat.pow base e)
  | .negSucc e => (num * Nat.pow base (e + 1), den)

namespace Binary

variable {f : Format}

def quotient (mantissa : Nat) (exponent : Int) : Nat × Nat := scaleDown 2 mantissa 1 (-exponent)

-- Equal as numbers: zero has two signs, and NaN differs from itself.
def equals : Binary f → Binary f → Bool
  | .infinite a, .infinite b => a == b
  | .finite a m p, .finite b n q => m == n && p == q && (a == b || m == 0)
  | _, _ => false

-- The integer part, the nearest bound if it lies outside them, and zero for NaN.
def truncate (low high : Int) : Binary f → Int
  | .nan => 0
  | .infinite negative => if negative then low else high
  | .finite negative mantissa exponent =>
    let (num, den) := quotient mantissa exponent
    let whole : Int := ↑(num / den)
    max low (min high (if negative then -whole else whole))

end Binary

end SqlComposer
