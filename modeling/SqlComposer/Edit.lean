import SqlComposer.Statement.Change

set_option autoImplicit false

namespace SqlComposer

inductive Edit where
  | fromTable (name : Text)
  | table (name : Text)
  | select (columns : ColumnInput)
  | selectRaw (columns : ColumnInput)
  | distinct
  | aggregate (function : Aggregate) (column? alias? : Option Text)
  | join (joined : Text) (left? right? operator? kind? : Option Text)
  | wherePredicate (connective : ConnectiveInput) (predicate : PredicateInput)
  | havingCompare (connective : ConnectiveInput) (negated : Bool) (column : Text)
      (comparison : ComparisonInput) (value : Value)
  | groupBy (input : SortInput) (direction? : Option Text)
  | orderBy (input : SortInput) (direction? : Option Text)
  | orderByRandom
  | limit (count : CountInput)
  | take (count : CountInput)
  | offset (count : CountInput)
  | skip (count : CountInput)
  | paginate (page perPage : UInt64)
  | insert (rows : RowsInput)
  | update (row : RowInput)
  | delete
  | truncate
  | addReferenceChars (chars : ReferenceChars)
  | setQuote (quote : Text)
  | reset

namespace Edit

def joinOn (joined left right : Text) : Edit := .join joined (some left) (some right) none none

-- The comparison stands between the columns or behind them.
def joinOnWith (joined left middle last : Text) : Edit :=
  .join joined (some left) (some middle) (some last) none

def kindJoin (kind joined left right : Text) : Edit :=
  .join joined (some left) (some right) none (some kind)

def startsOver : Edit → Bool
  | .fromTable _ | .table _ | .select _ | .selectRaw _ => true
  | _ => false

def apply (edit : Edit) (s : Statement) : Except Error Statement :=
  match edit with
  | .fromTable name => s.setTable "from" name
  | .table name => s.setTable "table" name
  | .select columns => s.select columns
  | .selectRaw columns => s.selectRaw columns
  | .distinct => .ok s.markDistinct
  | .aggregate function column? alias? => s.aggregate function column? alias?
  | .join joined left? right? operator? kind? => s.join joined left? right? operator? kind?
  | .wherePredicate connective predicate => s.wherePredicate connective predicate
  | .havingCompare connective negated column comparison value =>
    s.havingCompare connective negated column comparison value
  | .groupBy input direction? => s.groupBy input direction?
  | .orderBy input direction? => s.orderBy input direction?
  | .orderByRandom => .ok s.orderByRandom
  | .limit count => s.setLimit "limit" count
  | .take count => s.setLimit "take" count
  | .offset count => s.setOffset "offset" count
  | .skip count => s.setOffset "skip" count
  | .paginate page perPage => s.paginate page perPage
  | .insert rows => do s.insert (← rows.toRows)
  | .update row => do s.update (← row.toRow)
  | .delete => s.establish "delete" .delete
  | .truncate => s.establish "truncate" .truncate
  | .addReferenceChars chars => do
    let chars ← chars.toChars
    return { s with settings := s.settings.addReferenceChars chars }
  | .setQuote quote => do
    let quote ← Quote.ofText quote
    return { s with settings := { s.settings with quote } }
  | .reset => .ok s.reset

-- The statement that an edit works on: a compiled one starts over where the edit begins the next.
def base (edit : Edit) (s : Statement) : Statement := if edit.startsOver then s.renewed else s

def change : Edit → Change Unit
  | .fromTable name => .setTable "from" name
  | .table name => .setTable "table" name
  | .select columns => .select columns
  | .selectRaw columns => .selectRaw columns
  | .distinct => .markDistinct
  | .aggregate function column? alias? => .aggregate function column? alias?
  | .join joined left? right? operator? kind? => .join joined left? right? operator? kind?
  | .wherePredicate connective predicate => .wherePredicate connective predicate
  | .havingCompare connective negated column comparison value =>
    .havingCompare connective negated column comparison value
  | .groupBy input direction? => .groupBy input direction?
  | .orderBy input direction? => .orderBy input direction?
  | .orderByRandom => .orderByRandom
  | .limit count => .setLimit "limit" count
  | .take count => .setLimit "take" count
  | .offset count => .setOffset "offset" count
  | .skip count => .setOffset "skip" count
  | .paginate page perPage => .paginate page perPage
  | .insert rows => .insert rows
  | .update row => .update row
  | .delete => .establish "delete" .delete
  | .truncate => .establish "truncate" .truncate
  | .addReferenceChars chars => .addReferenceChars chars
  | .setQuote quote => .setQuote quote
  | .reset => .reset

def run (edit : Edit) (s : Statement) : Except Error Unit × Statement :=
  match edit.change.run s with
  | .ok () next => (.ok (), next)
  | .error error left => (.error error, left)

end Edit

end SqlComposer
