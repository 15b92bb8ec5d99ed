import SqlComposer.Error

set_option autoImplicit false

namespace SqlComposer

inductive Quote where
  | backtick
  | double
deriving DecidableEq

namespace Quote

def char : Quote → Char
  | .backtick => '\x60'
  | .double => '\x22'

def ofChar (c : Char) : Except Error Quote :=
  if c = char .backtick then .ok .backtick
  else if c = char .double then .ok .double
  else .error (.invalidArgument "set_quote_char" .unknownQuote)

def ofText : Text → Except Error Quote
  | [c] => ofChar c
  | _ => .error (.invalidArgument "set_quote_char" .longQuote)

end Quote

inductive Dialect where
  | postgres
  | mysql
  | sqlite
deriving DecidableEq

namespace Dialect

def ofDriver (name : Text) : Except Error Dialect :=
  if name = ("mysql" : Text) then .ok .mysql
  else if name ∈ ([↑"pgsql", ↑"postgres", ↑"postgresql"] : List Text) then .ok .postgres
  else if name = ("sqlite" : Text) then .ok .sqlite
  else .error (.unsupportedDriver name)

def quote : Dialect → Quote
  | .postgres => .double
  | .mysql | .sqlite => .backtick

end Dialect

structure Settings where
  quote : Quote := .backtick
  referenceChars : List Char := []
  retainTable : Bool := false
deriving DecidableEq

namespace Settings

def ofDialect (dialect : Dialect) : Settings := { quote := dialect.quote }

def ofDriver (name : Text) : Except Error Settings := (Dialect.ofDriver name).map ofDialect

def allows (settings : Settings) (c : Char) : Bool := settings.referenceChars.contains c

def addReferenceChars (settings : Settings) (chars : List Char) : Settings :=
  { settings with
    referenceChars := chars.foldl (fun held c => if held.contains c then held else held ++ [c])
      settings.referenceChars }

end Settings

inductive ReferenceChars where
  | text (value : Text)
  | char (value : Char)
  | chars (values : List Char)
  | singles (values : List Text)

-- Every character of a text counts, but each text of a list must be a single character.
def ReferenceChars.toChars : ReferenceChars → Except Error (List Char)
  | .text value => .ok value
  | .char value => .ok [value]
  | .chars values => .ok values
  | .singles values => values.mapM fun
    | [c] => .ok c
    | _ => .error (.invalidArgument "add_reference_chars" .longReferenceChar)

-- Settings as callers give them: the driver's first, then the changes in the order of the
-- fields.
structure SettingsInput where
  driver : Option Text := none
  quote : Option Text := none
  chars : Option ReferenceChars := none
  retain : Option Bool := none

def SettingsInput.build (input : SettingsInput) : Except Error Settings := do
  let settings ← match input.driver with
    | some name => Settings.ofDriver name
    | none => pure {}
  let settings ← match input.quote with
    | some text => (Quote.ofText text).map fun quote => { settings with quote }
    | none => pure settings
  let settings ← match input.chars with
    | some chars => chars.toChars.map settings.addReferenceChars
    | none => pure settings
  return match input.retain with
    | some retain => { settings with retainTable := retain }
    | none => settings

end SqlComposer
