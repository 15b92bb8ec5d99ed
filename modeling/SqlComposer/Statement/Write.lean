import SqlComposer.Statement.Check
import SqlComposer.Statement.Tokens
import SqlComposer.Writer

set_option autoImplicit false

/-!
Writing a statement, clause by clause, in one pass: each condition on the statement is checked where
the pass comes to it. A subquery and a member of a union set the scope for their own text.
-/

namespace SqlComposer

open Token Write

def writeLimit (separator : Token) (pagination : Pagination) : Write := do
  require pagination.validate
  put (pagination.tokens separator)

def writeInsert (table : Option Text) (rows : List Row) : Write := do
  let columns := (rows.head?.map Row.columns).getD []
  require (requireTable table)
  require (checkRows rows)
  put (words [.INSERT, .INTO] ++ [.space])
  inScope fun scope => tableTokens scope table ++ .space ::
    parenthesised (commaSeparated (columns.map (Reference.quoted scope.quote)))
  put [.space, .word .VALUES, .space]
  separated [.comma] (rows.map fun _ => do
    put [.leftParen]
    ask columns.length
    put [.rightParen])

def writeAssignment (column : Text) : Write := do
  inScope fun scope => scope.column column ++ [.symbol .equal]
  ask 1

mutual

def Statement.write : Statement → Write
  | { settings, kind, distinct, table, joins, wheres, groups, havings, orders, pagination, .. } =>
    enter (.ofTable settings table) <|
    match kind with
    | .unset | .select _ => do
      require (requireTable table)
      put (.word .SELECT :: .space :: if distinct then [.word .DISTINCT, .space] else [])
      inScope fun scope => SelectItem.listTokens scope kind.items ++ [.space, .word .FROM, .space] ++
        tableTokens scope table ++ Join.listTokens scope joins
      clause wheres [.space, .word .WHERE, .space] (Condition.writeList wheres)
      inScope fun scope => groupTokens scope groups
      clause havings [.space, .word .HAVING, .space] (Condition.writeList havings)
      inScope fun scope => orderTokens scope .space orders
      writeLimit .space pagination
    | .insert rows => writeInsert table rows
    | .update row => do
      require (requireTable table)
      put [.word .UPDATE, .space]
      inScope fun scope => tableTokens scope table
      put [.space, .word .SET, .space]
      separated [.comma] (row.columns.map writeAssignment)
      clause wheres [.space, .word .WHERE, .space] (Condition.writeList wheres)
      inScope fun scope => orderTokens scope .space orders
      writeLimit .space pagination
    | .delete => do
      require (requireTable table)
      put (words [.DELETE, .FROM] ++ [.space])
      inScope fun scope => tableTokens scope table
      clause wheres [.space, .word .WHERE, .space] (Condition.writeList wheres)
      inScope fun scope => orderTokens scope .space orders
      writeLimit .space pagination
    | .truncate => do
      require (requireTable table)
      put (words [.TRUNCATE, .TABLE] ++ [.space])
      inScope fun scope => tableTokens scope table
    | .union all members => do
      require pagination.validate
      Statement.writeMembers all members
      inScope fun scope => orderTokens scope .newline orders
      writeLimit .newline pagination

def Statement.writeMembers (all : Bool) : List Statement → Write
  | [] => pure ()
  | member :: rest => do
    put [.leftParen]
    member.write
    put [.rightParen]
    Statement.writeLaterMembers all rest

def Statement.writeLaterMembers (all : Bool) : List Statement → Write
  | [] => pure ()
  | member :: rest => do
    put (.newline :: words (if all then [.UNION, .ALL] else [.UNION]) ++ [.newline, .leftParen])
    member.write
    put [.rightParen]
    Statement.writeLaterMembers all rest

def Condition.writeList : List Condition → Write
  | [] => pure ()
  | ⟨_, predicate⟩ :: rest => do
    predicate.write
    Condition.writeLater rest

def Condition.writeLater : List Condition → Write
  | [] => pure ()
  | ⟨connective, predicate⟩ :: rest => do
    put [.space, .word connective.word, .space]
    predicate.write
    Condition.writeLater rest

def Predicate.write : Predicate → Write
  | .compare negated column comparison _ => do
    put (notTokens negated)
    inScope fun scope => scope.column column
    put comparison.tokens
    ask 1
  | .between negated column _ _ => do
    inScope fun scope => scope.column column
    put (.space :: notTokens negated ++ [.word .BETWEEN, .space])
    ask 1
    put [.space, .word .AND, .space]
    ask 1
  | .inValues negated column values => do
    inScope fun scope => scope.column column
    put (.space :: notTokens negated ++ [.word .IN, .space, .leftParen])
    ask values.length
    put [.rightParen]
  | .inQuery negated column query => do
    inScope fun scope => scope.column column
    put (.space :: notTokens negated ++ [.word .IN, .space, .leftParen])
    query.write
    put [.rightParen]
  | .isNull negated column => do
    inScope fun scope => scope.column column
    put (.space :: .word .IS :: .space :: notTokens negated ++ [.word .NULL])
  | .columns left comparison right => do
    inScope fun scope => scope.column left
    put comparison.tokens
    inScope fun scope => scope.column right
  | .datePart part column comparison _ => do
    put [.word (.datePart part)]
    inScope fun scope => parenthesised (scope.column column)
    put comparison.tokens
    ask 1
  | .existsQuery negated query => do
    put (notTokens negated ++ [.word .EXISTS, .space, .leftParen])
    query.write
    put [.rightParen]
  | .fragment negated text values => do
    put (notTokens negated)
    put [.fragment text]
    await values.length
  | .group negated conditions => do
    put (notTokens negated)
    put [.leftParen]
    Condition.writeList conditions
    put [.rightParen]

end

end SqlComposer
