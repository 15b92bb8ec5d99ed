import SqlComposer.Keyed
import SqlComposer.Reference
import SqlComposer.Value

set_option autoImplicit false

namespace SqlComposer

structure Row where
  fields : List (Text × Value)
  distinct : (Keyed.keys fields).Nodup

namespace Row

def empty : Row := ⟨[], by simp [Keyed.keys]⟩

def set (row : Row) (column : Text) (value : Value) : Row :=
  ⟨Keyed.put column value row.fields, Keyed.nodup_put column value row.fields row.distinct⟩

def get? (row : Row) (column : Text) : Option Value := Keyed.get? column row.fields

def ofPairs (pairs : List (Text × Value)) : Row :=
  pairs.foldl (fun row (column, value) => row.set column value) empty

def columns (row : Row) : List Text := Keyed.keys row.fields

def values (row : Row) : List Value := row.fields.map Prod.snd

def size (row : Row) : Nat := row.fields.length

def isEmpty (row : Row) : Bool := row.fields.isEmpty

def sameColumns (a b : Row) : Bool :=
  a.size == b.size && a.columns.all fun column => (b.get? column).isSome

-- In the order of the given columns; a column that is missing gives no value.
def valuesIn (row : Row) (columns : List Text) : List Value := columns.filterMap row.get?

def equals (a b : Row) : Bool :=
  a.size == b.size && a.fields.all fun (column, value) =>
    match b.get? column with
    | some other => value.equals other
    | none => false

def validate (settings : Settings) (method : Text) (row : Row) : Except Error Unit :=
  if row.isEmpty then .error (.invalidArgument method .noColumns)
  else row.columns.forM (Reference.validate settings method)

end Row

inductive RowInput where
  | pairs (fields : List (Text × Value))
  | document (value : Json)
  | unserializable (reason : Text)

def RowInput.toRow : RowInput → Except Error Row
  | .pairs fields => .ok (Row.ofPairs fields)
  | .document (.object fields) =>
    .ok (Row.ofPairs (fields.map fun (column, value) => (column, Value.ofJson value)))
  | .document _ => .error (.invalidArgument "insert" .noFields)
  | .unserializable reason => .error (.invalidArgument "insert" (.unserializable reason))

inductive RowsInput where
  | one (row : RowInput)
  | many (rows : List (List (Text × Value)))

def RowsInput.toRows : RowsInput → Except Error (List Row)
  | .one row => row.toRow.map fun row => [row]
  | .many rows => .ok (rows.map Row.ofPairs)

end SqlComposer
