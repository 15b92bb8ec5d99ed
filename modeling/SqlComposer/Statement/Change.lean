import SqlComposer.Statement.Compose

set_option autoImplicit false

/-!
Calls as they change a statement in place, check by check and write by write. A change that fails
keeps what it has written until then.
-/

namespace SqlComposer

abbrev Change (A : Type) := EStateM Error Statement A

namespace Change

def touch : Change Unit := modify Statement.touched

-- A compiled statement starts over.
def renew : Change Unit := modify Statement.renewed

def require {A : Type} : Except Error A → Change A
  | .ok a => pure a
  | .error error => throw error

def reference (method text : Text) : Change Text := do
  require (Reference.check (← get).settings method text)

def establish (method : Text) (kind : Kind) : Change Unit := do
  let s ← get
  if s.kind.admits kind then
    set { s with kind }
    touch
  else throw (.conflictingKind method s.kind.name)

-- The items come behind those of earlier calls, one by one.
def addItems (method : Text) (items : List SelectItem) : Change Unit := do
  establish method (.select (← get).kind.items)
  items.forM fun item => modify fun s => { s with kind := .select (s.kind.items ++ [item]) }

def setTable (method table : Text) : Change Unit := do
  renew
  let table ← reference method table
  modify fun s => { s with table := some table }
  touch

def select (columns : ColumnInput) : Change Unit := do
  renew
  let references ← columns.entries.mapM (reference "select")
  addItems "select" (references.map .column)

def selectRaw (columns : ColumnInput) : Change Unit := do
  renew
  addItems "select_raw" (columns.entries.map .fragment)

def markDistinct : Change Unit := do
  modify fun s => { s with distinct := true }
  touch

def aggregate (function : Aggregate) (column? alias? : Option Text) : Change Unit := do
  let item ← require (aggregateInput (← get).settings function column? alias?)
  addItems function.name [item]

def join (table : Text) (left? right? operator? kind? : Option Text) : Change Unit := do
  let s ← get
  match s.table with
  | none => throw (.invalidArgument "join" .joinWithoutTable)
  | some current =>
    let join ← require (joinInput s.settings current table left? right? operator? kind?)
    modify fun s => { s with joins := s.joins ++ [join] }
    touch

def addWhere (connective : Connective) (predicate : Predicate) : Change Unit := do
  modify fun s => { s with wheres := s.wheres ++ [⟨connective, predicate⟩] }
  touch

def addHaving (connective : Connective) (predicate : Predicate) : Change Unit := do
  modify fun s => { s with havings := s.havings ++ [⟨connective, predicate⟩] }
  touch

def wherePredicate (connective : ConnectiveInput) (input : PredicateInput) : Change Unit := do
  let connective ← require (connective.toConnective "where")
  let predicate ← require (input.toPredicate (← get).settings)
  addWhere connective predicate

def havingCompare (connective : ConnectiveInput) (negated : Bool) (column : Text)
    (comparison : ComparisonInput) (value : Value) : Change Unit := do
  let connective ← require (connective.toConnective "having")
  let predicate ← require (compareInput (← get).settings "having" negated column comparison value)
  addHaving connective predicate

-- A child to which nothing was added leaves no group.
def whereGroup (connective : Connective) (negated : Bool) (child : Statement) : Change Unit :=
  if child.wheres.isEmpty then pure () else addWhere connective (.group negated child.wheres)

def havingGroup (connective : Connective) (negated : Bool) (child : Statement) : Change Unit :=
  if child.havings.isEmpty then pure () else addHaving connective (.group negated child.havings)

def groupBy (input : SortInput) (direction? : Option Text) : Change Unit := do
  let entries ← require (input.normalize (← get).settings "group_by" direction?)
  entries.forM fun entry => modify fun s =>
    { s with groups := SortEntry.put entry.1 entry.2 s.groups }
  touch

def orderBy (input : SortInput) (direction? : Option Text) : Change Unit := do
  let entries ← require (input.normalize (← get).settings "order_by" direction?)
  entries.forM fun entry => modify fun s =>
    { s with orders := SortEntry.put entry.1 entry.2 s.orders }
  touch

def orderByRandom : Change Unit := do
  modify fun s => { s with orders := s.orders ++ [.random] }
  touch

def setLimit (method : Text) (count : CountInput) : Change Unit := do
  let limit ← require (count.toCount method)
  modify fun s => { s with pagination := { s.pagination with limit } }
  touch

def setOffset (method : Text) (count : CountInput) : Change Unit := do
  let offset ← require (count.toCount method)
  modify fun s => { s with pagination := { s.pagination with offset } }
  touch

-- Behind the first page the offset is set before the limit.
def paginate (page perPage : UInt64) : Change Unit := do
  if 1 < page.toNat then
    let offset := (page.toNat - 1) * perPage.toNat
    if offset < UInt64.size then
      modify fun s => { s with pagination := { s.pagination with offset } }
    else throw (.invalidArgument "paginate" .pageOverflow)
  modify fun s => { s with pagination := { s.pagination with limit := perPage.toNat } }
  touch

def insert (rows : RowsInput) : Change Unit := do
  let rows ← require rows.toRows
  if rows.isEmpty then throw (.invalidArgument "insert" .noRows)
  rows.forM fun row => do require (row.validate (← get).settings "insert")
  establish "insert" (.insert rows)

def update (row : RowInput) : Change Unit := do
  let row ← require row.toRow
  require (row.validate (← get).settings "update")
  establish "update" (.update row)

def union (all : Bool) (members : List Statement) : Change Unit := do
  let s ← get
  match s.kind with
  | .unset =>
    if members.isEmpty then throw (.invalidArgument (Statement.unionMethod all) .noStatements)
    establish (Statement.unionMethod all) (.union all (s :: members))
  | kind => throw (.conflictingKind (Statement.unionMethod all) kind.name)

def addReferenceChars (chars : ReferenceChars) : Change Unit := do
  let chars ← require chars.toChars
  modify fun s => { s with settings := s.settings.addReferenceChars chars }

def setQuote (quote : Text) : Change Unit := do
  let quote ← require (Quote.ofText quote)
  modify fun s => { s with settings := { s.settings with quote } }

def reset : Change Unit := modify Statement.reset

end Change

end SqlComposer
