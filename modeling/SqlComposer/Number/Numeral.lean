import SqlComposer.Number.Shortest

set_option autoImplicit false

namespace SqlComposer

namespace Decimal

def point (d : Decimal) : Int := (decimal d.digits).length + d.exponent

def positional (d : Decimal) : Text :=
  let digits := decimal d.digits
  match d.exponent, d.point with
  | .ofNat zeros, _ => digits ++ List.replicate zeros '0'
  | _, .ofNat (before + 1) => digits.take (before + 1) ++ '.' :: digits.drop (before + 1)
  | _, .ofNat 0 => "0." ++ digits
  | _, .negSucc zeros => "0." ++ List.replicate (zeros + 1) '0' ++ digits

-- The power of ten always has its sign.
def scientific (d : Decimal) : Text :=
  let mantissa := match decimal d.digits with
    | [] => []
    | [digit] => [digit]
    | digit :: rest => digit :: '.' :: rest
  let power := d.point - 1
  mantissa ++ 'e' :: (if 0 ≤ power then '+' :: decimalInt power else decimalInt power)

end Decimal

def signed (negative : Bool) (text : Text) : Text := if negative then '-' :: text else text

namespace Binary

variable {f : Format}

def plain : Binary f → Text
  | .nan => "NaN"
  | .infinite negative => signed negative "inf"
  | .finite negative mantissa exponent =>
    signed negative (if mantissa = 0 then "0" else (shortest .up f mantissa exponent).positional)

end Binary

end SqlComposer
