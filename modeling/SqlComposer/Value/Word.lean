import SqlComposer.Value

set_option autoImplicit false

/-!
The integers that values stand for, read into words of 64 bits. The digits of a text are added to the word one
by one, away from zero, and the first step that overflows ends the reading.
-/

namespace SqlComposer

inductive Sign where
  | plain
  | plus
  | minus
deriving DecidableEq

namespace Sign

def text : Sign → Text
  | .plain => []
  | .plus => ['+']
  | .minus => ['-']

def apply : Sign → Nat → Int
  | .plain, n | .plus, n => n
  | .minus, n => -n

-- The sign that stands first, and what stands behind it.
def read : Text → Sign × Text
  | '-' :: rest => (.minus, rest)
  | '+' :: rest => (.plus, rest)
  | text => (.plain, text)

end Sign

namespace Word

def checked (n : Int) : Option Int64 := (Value.inRange n).map Int64.ofInt

-- Both the product and the sum may overflow.
def push (sign : Sign) (word : Int64) (c : Char) : Option Int64 :=
  if c.isDigit then do
    let tens ← checked (word.toInt * 10)
    checked (tens.toInt + sign.apply (c.toNat - '0'.toNat))
  else none

def read (text : Text) : Option Int64 :=
  let (sign, digits) := Sign.read text
  if digits.isEmpty then none else digits.foldlM (push sign) 0

end Word

def Value.toWord? : Value → Option Int64
  | .null | .json _ => none
  | .text value => Word.read value.trim
  | .bool value => some (if value then 1 else 0)
  | .single value => some (Int64.ofInt (value.truncate minInteger maxInteger))
  | .double value => some (Int64.ofInt (value.truncate minInteger maxInteger))
  | .int8 value => some value.toInt64
  | .int16 value => some value.toInt64
  | .int32 value => some value.toInt64
  | .int64 value => some value
  | .uint8 value => some value.toUInt64.toInt64
  | .uint16 value => some value.toUInt64.toInt64
  | .uint32 value => some value.toUInt64.toInt64
  | .uint64 value => if value ≤ Int64.maxValue.toUInt64 then some value.toInt64 else none

end SqlComposer
