import SqlComposer.Statement

set_option autoImplicit false

namespace SqlComposer

open Token

def tableTokens (scope : Scope) : Option Text → List Token
  | some table => Reference.quoted scope.quote table
  | none => []

def notTokens (negated : Bool) : List Token := if negated then [.word .NOT, .space] else []

def clauseTokens {A : Type} (entries : List A) (lead body : List Token) : List Token :=
  if entries.isEmpty then [] else lead ++ body

def orderTokens (scope : Scope) (separator : Token) (entries : List SortEntry) : List Token :=
  clauseTokens entries (separator :: words [.ORDER, .BY] ++ [.space])
    (commaSeparated (entries.map (SortEntry.tokens scope)))

def groupTokens (scope : Scope) (entries : List SortEntry) : List Token :=
  clauseTokens entries (.space :: words [.GROUP, .BY] ++ [.space])
    (commaSeparated (entries.map (SortEntry.tokens scope)))

def insertTokens (scope : Scope) (table : Option Text) (rows : List Row) : List Token :=
  let columns := (rows.head?.map Row.columns).getD []
  words [.INSERT, .INTO] ++ .space :: tableTokens scope table ++ .space ::
    parenthesised (commaSeparated (columns.map (Reference.quoted scope.quote))) ++
    [.space, .word .VALUES, .space] ++
    commaSeparated (rows.map fun _ => parenthesised (placeholders columns.length))

def assignmentTokens (scope : Scope) (column : Text) : List Token :=
  scope.column column ++ [.symbol .equal, .placeholder]

mutual

def Statement.tokens : Statement → List Token
  | { settings, kind, distinct, table, joins, wheres, groups, havings, orders, pagination, .. } =>
    let scope := Scope.ofTable settings table
    match kind with
    | .unset | .select _ =>
      .word .SELECT :: .space :: (if distinct then [.word .DISTINCT, .space] else []) ++
        SelectItem.listTokens scope kind.items ++ [.space, .word .FROM, .space] ++ tableTokens scope table ++
        Join.listTokens scope joins ++
        clauseTokens wheres [.space, .word .WHERE, .space] (Condition.listTokens scope wheres) ++
        groupTokens scope groups ++
        clauseTokens havings [.space, .word .HAVING, .space] (Condition.listTokens scope havings) ++
        orderTokens scope .space orders ++ pagination.tokens .space
    | .insert rows => insertTokens scope table rows
    | .update row =>
      .word .UPDATE :: .space :: tableTokens scope table ++ [.space, .word .SET, .space] ++
        commaSeparated (row.columns.map (assignmentTokens scope)) ++
        clauseTokens wheres [.space, .word .WHERE, .space] (Condition.listTokens scope wheres) ++
        orderTokens scope .space orders ++ pagination.tokens .space
    | .delete =>
      words [.DELETE, .FROM] ++ .space :: tableTokens scope table ++
        clauseTokens wheres [.space, .word .WHERE, .space] (Condition.listTokens scope wheres) ++
        orderTokens scope .space orders ++ pagination.tokens .space
    | .truncate => words [.TRUNCATE, .TABLE] ++ .space :: tableTokens scope table
    | .union all members =>
      Statement.memberTokens all members ++ orderTokens scope .newline orders ++
        pagination.tokens .newline

def Statement.memberTokens (all : Bool) : List Statement → List Token
  | [] => []
  | member :: rest => parenthesised member.tokens ++ Statement.laterTokens all rest

def Statement.laterTokens (all : Bool) : List Statement → List Token
  | [] => []
  | member :: rest =>
    .newline :: words (if all then [.UNION, .ALL] else [.UNION]) ++ .newline ::
      parenthesised member.tokens ++ Statement.laterTokens all rest

-- The connective of the first condition is not written.
def Condition.listTokens (scope : Scope) : List Condition → List Token
  | [] => []
  | ⟨_, predicate⟩ :: rest => predicate.tokens scope ++ Condition.laterTokens scope rest

def Condition.laterTokens (scope : Scope) : List Condition → List Token
  | [] => []
  | ⟨connective, predicate⟩ :: rest =>
    .space :: .word connective.word :: .space :: predicate.tokens scope ++
      Condition.laterTokens scope rest

def Predicate.tokens (scope : Scope) : Predicate → List Token
  | .compare negated column comparison _ =>
    notTokens negated ++ scope.column column ++ comparison.tokens ++ [.placeholder]
  | .between negated column _ _ =>
    scope.column column ++ .space :: notTokens negated ++
      [.word .BETWEEN, .space, .placeholder, .space, .word .AND, .space, .placeholder]
  | .inValues negated column values =>
    scope.column column ++ .space :: notTokens negated ++ .word .IN :: .space ::
      parenthesised (placeholders values.length)
  | .inQuery negated column query =>
    scope.column column ++ .space :: notTokens negated ++ .word .IN :: .space ::
      parenthesised query.tokens
  | .isNull negated column =>
    scope.column column ++ .space :: .word .IS :: .space :: notTokens negated ++ [.word .NULL]
  | .columns left comparison right =>
    scope.column left ++ comparison.tokens ++ scope.column right
  | .datePart part column comparison _ =>
    .word (.datePart part) :: parenthesised (scope.column column) ++ comparison.tokens ++
      [.placeholder]
  | .existsQuery negated query =>
    notTokens negated ++ .word .EXISTS :: .space :: parenthesised query.tokens
  | .fragment negated text _ => notTokens negated ++ [.fragment text]
  | .group negated conditions =>
    notTokens negated ++ parenthesised (Condition.listTokens scope conditions)

end

theorem Condition.listTokens_cons (scope : Scope) (condition : Condition) (rest : List Condition) :
    Condition.listTokens scope (condition :: rest) =
      condition.predicate.tokens scope ++ Condition.laterTokens scope rest := by
  cases condition
  rfl

theorem Condition.laterTokens_cons (scope : Scope) (condition : Condition) (rest : List Condition) :
    Condition.laterTokens scope (condition :: rest) =
      .space :: .word condition.connective.word :: .space :: condition.predicate.tokens scope ++
        Condition.laterTokens scope rest := by
  cases condition
  rfl

end SqlComposer
