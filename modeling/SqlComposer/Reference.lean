import SqlComposer.Settings
import SqlComposer.Text.Blank
import SqlComposer.Text.Letter

set_option autoImplicit false

/-!
References to tables and columns, as callers write them: `table.column AS alias`. A reference is cut
into parts at each ` AS `, from the left; `parts_eq` ties the cuts to the first one.
-/

namespace SqlComposer.Reference

def isAs (a s : Char) : Bool := (a == 'a' || a == 'A') && (s == 's' || s == 'S')

-- The text before the first ` AS `, and the text behind it if there is one.
def cutAlias : Text → Text × Option Text
  | ' ' :: a :: s :: ' ' :: rest =>
    if isAs a s then ([], some rest)
    else
      let (name, alias?) := cutAlias (a :: s :: ' ' :: rest)
      (' ' :: name, alias?)
  | c :: rest =>
    let (name, alias?) := cutAlias rest
    (c :: name, alias?)
  | [] => ([], none)

def parts : Text → List Text
  | ' ' :: a :: s :: ' ' :: rest =>
    if isAs a s then [] :: parts rest else Text.extend ' ' (parts (a :: s :: ' ' :: rest))
  | c :: rest => Text.extend c (parts rest)
  | [] => [[]]

theorem parts_eq (reference : Text) :
    parts reference = match cutAlias reference with
      | (name, none) => [name]
      | (name, some rest) => name :: parts rest := by
  fun_induction parts reference with
  | case1 a s rest as ih => simp [cutAlias, as]
  | case2 a s rest as ih =>
    rw [ih, cutAlias, if_neg as]
    cases cut : cutAlias (a :: s :: ' ' :: rest) with
    | mk name alias? => cases alias? <;> simp [Text.extend]
  | case3 c rest other ih =>
    rw [ih, cutAlias]
    · cases cut : cutAlias rest with
      | mk name alias? => cases alias? <;> simp [Text.extend]
    · exact other
  | case4 => simp [cutAlias]

theorem parts_ne_nil (reference : Text) : parts reference ≠ [] := by
  rw [parts_eq]
  cases cutAlias reference with
  | mk name alias? => cases alias? <;> simp

/-- The name by which other references speak of a table: its alias if it has one. -/
def tableName (table : Text) : Text :=
  match cutAlias table with
  | (name, none) => name.trim
  | (_, some rest) => rest.trim

def isWildcard (reference : Text) : Bool := reference == ['*']

def unquote (quote : Quote) (text : Text) : Text := text.filter (· != quote.char)

def clean (quote : Quote) (text : Text) : Text := unquote quote text.trim

/-- A reference that has a dot behind its first character keeps its own table; any other gets the
given one, if there is one. -/
def qualify (quote : Quote) (table : Option Text) (reference : Text) : Text :=
  match Text.splitFirst '.' reference, table with
  | (_ :: _, some _), _ => List.intercalate ['.'] ((Text.split '.' reference).map (clean quote))
  | _, some table => clean quote table ++ '.' :: clean quote reference
  | _, none => clean quote reference

def accepts (settings : Settings) (part : Text) : Bool :=
  isWildcard part ||
    (let bare := (unquote settings.quote part).trim
     !bare.isEmpty && bare.all fun c => c.isAlphanum || c == '_' || c == '.' || settings.allows c)

-- Names the first part that is not accepted.
def validate (settings : Settings) (method : Text) (reference : Text) : Except Error Unit :=
  match (parts reference).find? fun part => !accepts settings part with
  | some part => .error (.invalidReference method part)
  | none => .ok ()

def check (settings : Settings) (method : Text) (reference : Text) : Except Error Text := do
  validate settings method reference
  return reference.trim

/-- A column without a leading table name and dot, so that it can be qualified by that table. The
table answers to its name and its alias, in any case of ASCII letters. -/
def stripTable (quote : Quote) (table column : Text) : Text :=
  let column := (unquote quote column).trim
  let (name, alias?) := cutAlias (unquote quote table)
  let names := (name :: alias?.toList).map Text.trim
  match names.findSome? fun name => if name.isEmpty then none else Text.afterDotted name column with
  | some rest => rest
  | none => column

end SqlComposer.Reference
