import SqlComposer.Number.Numeral

set_option autoImplicit false

namespace SqlComposer

inductive Json where
  | null
  | bool (value : Bool)
  | whole (value : Int)
  | real (value : Double)
  | string (value : Text)
  | array (items : List Json)
  | object (fields : List (Text × Json))

namespace Json

def hexDigit (n : Nat) : Char := "0123456789abcdef".toList.getD n '0'

def escapeChar (c : Char) : Text :=
  if c = '\x22' then "\\\""
  else if c = '\\' then "\\\\"
  else if c = '\n' then "\\n"
  else if c = '\r' then "\\r"
  else if c = '\t' then "\\t"
  else if c = '\x08' then "\\b"
  else if c = '\x0c' then "\\f"
  else if c.toNat < 0x20 then "\\u00" ++ [hexDigit (c.toNat / 16), hexDigit (c.toNat % 16)]
  else [c]

def writeString (text : Text) : Text := '\x22' :: text.flatMap escapeChar ++ ['\x22']

def writeReal : Double → Text
  | .nan | .infinite _ => "null"
  | .finite negative mantissa exponent =>
    signed negative <|
      if mantissa = 0 then "0.0"
      else
        let d := shortest .even .double mantissa exponent
        if -5 < d.point ∧ d.point ≤ 16 then
          if 0 ≤ d.exponent then d.positional ++ ".0" else d.positional
        else d.scientific

mutual

def write : Json → Text
  | .null => "null"
  | .bool value => if value then "true" else "false"
  | .whole value => decimalInt value
  | .real value => writeReal value
  | .string value => writeString value
  | .array items => '[' :: writeItems items ++ [']']
  | .object fields => '\x7b' :: writeFields fields ++ ['\x7d']

def writeItems : List Json → Text
  | [] => []
  | [item] => item.write
  | item :: rest => item.write ++ ',' :: writeItems rest

def writeFields : List (Text × Json) → Text
  | [] => []
  | [(key, value)] => writeString key ++ ':' :: value.write
  | (key, value) :: rest => writeString key ++ ':' :: value.write ++ ',' :: writeFields rest

end

mutual

def equals : Json → Json → Bool
  | .null, .null => true
  | .bool a, .bool b => a == b
  | .whole a, .whole b => a == b
  | .real a, .real b => a.equals b
  | .string a, .string b => a == b
  | .array a, .array b => itemsEqual a b
  | .object a, .object b => fieldsEqual a b
  | _, _ => false

def itemsEqual : List Json → List Json → Bool
  | [], [] => true
  | a :: as, b :: bs => equals a b && itemsEqual as bs
  | _, _ => false

def fieldsEqual : List (Text × Json) → List (Text × Json) → Bool
  | [], [] => true
  | (k, a) :: as, (l, b) :: bs => k == l && equals a b && fieldsEqual as bs
  | _, _ => false

end

end Json

end SqlComposer
