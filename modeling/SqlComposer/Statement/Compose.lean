import SqlComposer.Statement

set_option autoImplicit false

namespace SqlComposer

inductive PredicateInput where
  | compare (negated : Bool) (column : Text) (comparison : ComparisonInput) (value : Value)
  | between (negated : Bool) (column : Text) (low high : Value)
  | inValues (negated : Bool) (column : Text) (values : List Value)
  | isNull (negated : Bool) (column : Text)
  | columns (left : Text) (comparison : ComparisonInput) (right : Text)
  | datePart (part : DatePart) (column : Text) (comparison : ComparisonInput) (value : Value)
  | fragment (negated : Bool) (text : Text) (values : List Value)

def compareInput (settings : Settings) (method : Text) (negated : Bool) (column : Text)
    (comparison : ComparisonInput) (value : Value) : Except Error Predicate := do
  let column ← Reference.check settings method column
  let comparison ← comparison.toComparison method
  return .compare negated column comparison value

-- The parts are checked in reading order; a list of values must not be empty, and a fragment needs a
-- value for every placeholder in it.
def PredicateInput.toPredicate (settings : Settings) : PredicateInput → Except Error Predicate
  | .compare negated column comparison value =>
    compareInput settings "where" negated column comparison value
  | .between negated column low high => do
    let column ← Reference.check settings "where_between" column
    return .between negated column low high
  | .inValues negated column values => do
    let column ← Reference.check settings "where_in" column
    if values.isEmpty then throw (.invalidArgument "where_in" .noValues)
    return .inValues negated column values
  | .isNull negated column => do
    let column ← Reference.check settings "where_null" column
    return .isNull negated column
  | .columns left comparison right => do
    let left ← Reference.check settings "where_column" left
    let comparison ← comparison.toComparison "where_column"
    let right ← Reference.check settings "where_column" right
    return .columns left comparison right
  | .datePart part column comparison value => do
    let column ← Reference.check settings part.method column
    let comparison ← comparison.toComparison part.method
    return .datePart part column comparison value
  | .fragment negated text values =>
    if text.count '?' = values.length then .ok (.fragment negated text values)
    else .error (.invalidArgument "where_raw" (.placeholderCount (text.count '?') values.length))

def aggregateColumn : Option Text → Text
  | some column => column.trim
  | none => ['*']

def aggregateInput (settings : Settings) (function : Aggregate) (column? alias? : Option Text) :
    Except Error SelectItem := do
  let method := function.name
  let column := aggregateColumn column?
  if Reference.isWildcard column ∧ function ≠ .count then
    throw (.invalidReference method column)
  let column ← Reference.check settings method column
  let name ← Reference.check settings method (alias?.getD method)
  return .aggregate function column name

-- A comparison in the place of the right column changes places with the last argument.
def joinOperands (right? operator? : Option Text) : Option Text × Option Text :=
  match right? with
  | some token => if Comparison.isSpelled token then (operator?, some token) else (right?, operator?)
  | none => (right?, operator?)

def joinComparison : Option Text → Except Error Comparison
  | some operator => Comparison.parse "join" operator
  | none => .ok .equal

-- A column of a join is held without its table.
def joinColumn (settings : Settings) (table standard : Text) : Option Text → Except Error Text
  | none => .ok standard
  | some column => do
    Reference.validate settings "join" column
    return Reference.stripTable settings.quote table column

def joinInput (settings : Settings) (current table : Text)
    (left? right? operator? kind? : Option Text) : Except Error Join := do
  let table ← Reference.check settings "join" table
  let (right?, operator?) := joinOperands right? operator?
  let comparison ← joinComparison operator?
  let left ← joinColumn settings current "id" left?
  let standard := Reference.clean settings.quote (Reference.cutAlias current).1 ++ "_id"
  let right ← joinColumn settings table standard right?
  return ⟨JoinKind.parse (kind?.getD []), table, left, comparison, right⟩

namespace Statement

def establish (method : Text) (kind : Kind) (s : Statement) : Except Error Statement :=
  if s.kind.admits kind then .ok (touched { s with kind := kind })
  else .error (.conflictingKind method s.kind.name)

def addItems (method : Text) (items : List SelectItem) (s : Statement) : Except Error Statement :=
  s.establish method (.select (s.kind.items ++ items))

def setTable (method table : Text) (s : Statement) : Except Error Statement := do
  let table ← Reference.check s.settings method table
  return touched { s with table := some table }

def select (columns : ColumnInput) (s : Statement) : Except Error Statement := do
  let references ← columns.entries.mapM (Reference.check s.settings "select")
  s.addItems "select" (references.map .column)

-- Adds trusted fragments exactly as given.
def selectRaw (columns : ColumnInput) (s : Statement) : Except Error Statement :=
  s.addItems "select_raw" (columns.entries.map .fragment)

def markDistinct (s : Statement) : Statement := ({ s with distinct := true }).touched

def aggregate (function : Aggregate) (column? alias? : Option Text) (s : Statement) :
    Except Error Statement := do
  let item ← aggregateInput s.settings function column? alias?
  s.addItems function.name [item]

def join (table : Text) (left? right? operator? kind? : Option Text) (s : Statement) :
    Except Error Statement :=
  match s.table with
  | none => .error (.invalidArgument "join" .joinWithoutTable)
  | some current => do
    let join ← joinInput s.settings current table left? right? operator? kind?
    return touched { s with joins := s.joins ++ [join] }

def addWhere (connective : Connective) (predicate : Predicate) (s : Statement) : Statement :=
  touched { s with wheres := s.wheres ++ [⟨connective, predicate⟩] }

def addHaving (connective : Connective) (predicate : Predicate) (s : Statement) : Statement :=
  touched { s with havings := s.havings ++ [⟨connective, predicate⟩] }

def wherePredicate (connective : ConnectiveInput) (input : PredicateInput) (s : Statement) :
    Except Error Statement := do
  let connective ← connective.toConnective "where"
  let predicate ← input.toPredicate s.settings
  return s.addWhere connective predicate

def havingCompare (connective : ConnectiveInput) (negated : Bool) (column : Text)
    (comparison : ComparisonInput) (value : Value) (s : Statement) : Except Error Statement := do
  let connective ← connective.toConnective "having"
  let predicate ← compareInput s.settings "having" negated column comparison value
  return s.addHaving connective predicate

def whereGroup (connective : Connective) (negated : Bool) (s child : Statement) : Statement :=
  if child.wheres.isEmpty then s else s.addWhere connective (.group negated child.wheres)

def havingGroup (connective : Connective) (negated : Bool) (s child : Statement) : Statement :=
  if child.havings.isEmpty then s else s.addHaving connective (.group negated child.havings)

def groupBy (input : SortInput) (direction? : Option Text) (s : Statement) :
    Except Error Statement := do
  let entries ← input.normalize s.settings "group_by" direction?
  return touched { s with groups := SortEntry.putAll entries s.groups }

def orderBy (input : SortInput) (direction? : Option Text) (s : Statement) :
    Except Error Statement := do
  let entries ← input.normalize s.settings "order_by" direction?
  return touched { s with orders := SortEntry.putAll entries s.orders }

-- Every call adds an entry of its own.
def orderByRandom (s : Statement) : Statement :=
  touched { s with orders := s.orders ++ [.random] }

def setLimit (method : Text) (count : CountInput) (s : Statement) : Except Error Statement := do
  let limit ← count.toCount method
  return touched { s with pagination := { s.pagination with limit } }

def setOffset (method : Text) (count : CountInput) (s : Statement) : Except Error Statement := do
  let offset ← count.toCount method
  return touched { s with pagination := { s.pagination with offset } }

def paginate (page perPage : UInt64) (s : Statement) : Except Error Statement := do
  let pagination ← s.pagination.paginate page perPage
  return touched { s with pagination }

def insert (rows : List Row) (s : Statement) : Except Error Statement := do
  if rows.isEmpty then throw (.invalidArgument "insert" .noRows)
  rows.forM (Row.validate s.settings "insert")
  s.establish "insert" (.insert rows)

def update (row : Row) (s : Statement) : Except Error Statement := do
  row.validate s.settings "update"
  s.establish "update" (.update row)

def unionMethod (all : Bool) : Text := if all then "union_all" else "union"

def union (all : Bool) (members : List Statement) (s : Statement) : Except Error Statement :=
  match s.kind with
  | .unset =>
    if members.isEmpty then .error (.invalidArgument (unionMethod all) .noStatements)
    else s.establish (unionMethod all) (.union all (s :: members))
  | kind => .error (.conflictingKind (unionMethod all) kind.name)

end Statement

end SqlComposer
