import SqlComposer.Json
import SqlComposer.Text.Blank

set_option autoImplicit false

namespace SqlComposer

inductive Value where
  | null
  | text (value : Text)
  | bool (value : Bool)
  | single (value : Single)
  | double (value : Double)
  | int8 (value : Int8)
  | int16 (value : Int16)
  | int32 (value : Int32)
  | int64 (value : Int64)
  | uint8 (value : UInt8)
  | uint16 (value : UInt16)
  | uint32 (value : UInt32)
  | uint64 (value : UInt64)
  | json (value : Json)

namespace Value

def isNull : Value → Bool
  | .null => true
  | _ => false

-- Null and false are empty, true is `1`.
def display : Value → Text
  | .null => []
  | .text value => value
  | .bool value => if value then "1" else []
  | .single value => value.plain
  | .double value => value.plain
  | .int8 value => decimalInt value.toInt
  | .int16 value => decimalInt value.toInt
  | .int32 value => decimalInt value.toInt
  | .int64 value => decimalInt value.toInt
  | .uint8 value => decimal value.toNat
  | .uint16 value => decimal value.toNat
  | .uint32 value => decimal value.toNat
  | .uint64 value => decimal value.toNat
  | .json value => value.write

def minInteger : Int := -0x8000000000000000
def maxInteger : Int := 0x7FFFFFFFFFFFFFFF

def inRange (n : Int) : Option Int := if minInteger ≤ n ∧ n ≤ maxInteger then some n else none

def readDigits (text : Text) : Option Nat :=
  if text.isEmpty || !text.all Char.isDigit then none else some (Nat.ofDigitChars 10 text 0)

def readInteger (text : Text) : Option Int :=
  match text with
  | '-' :: digits => (readDigits digits).bind fun n => inRange (-(n : Int))
  | '+' :: digits => (readDigits digits).bind fun n => inRange n
  | digits => (readDigits digits).bind fun n => inRange n

/-- The integer that a value read from a database stands for. Drivers often return aggregates as
texts, so texts are read too. -/
def toInteger? : Value → Option Int
  | .null | .json _ => none
  | .text value => readInteger value.trim
  | .bool value => some (if value then 1 else 0)
  | .single value => some (value.truncate minInteger maxInteger)
  | .double value => some (value.truncate minInteger maxInteger)
  | .int8 value => some value.toInt
  | .int16 value => some value.toInt
  | .int32 value => some value.toInt
  | .int64 value => some value.toInt
  | .uint8 value => some value.toNat
  | .uint16 value => some value.toNat
  | .uint32 value => some value.toNat
  | .uint64 value => inRange value.toNat

def equals : Value → Value → Bool
  | .null, .null => true
  | .text a, .text b => a == b
  | .bool a, .bool b => a == b
  | .single a, .single b => a.equals b
  | .double a, .double b => a.equals b
  | .int8 a, .int8 b => a == b
  | .int16 a, .int16 b => a == b
  | .int32 a, .int32 b => a == b
  | .int64 a, .int64 b => a == b
  | .uint8 a, .uint8 b => a == b
  | .uint16 a, .uint16 b => a == b
  | .uint32 a, .uint32 b => a == b
  | .uint64 a, .uint64 b => a == b
  | .json a, .json b => a.equals b
  | _, _ => false

def ofJson : Json → Value
  | .null => .null
  | .bool value => .bool value
  | .whole value => if value ≤ maxInteger then .int64 (Int64.ofInt value) else .uint64 value.toNat.toUInt64
  | .real value => .double value
  | .string value => .text value
  | value => .json value

end Value

end SqlComposer
