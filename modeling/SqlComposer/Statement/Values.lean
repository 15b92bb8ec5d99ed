import SqlComposer.Statement

set_option autoImplicit false

namespace SqlComposer

-- Every row gives its values in the order of the first row's columns.
def rowValues (rows : List Row) : List Value :=
  let columns := (rows.head?.map Row.columns).getD []
  rows.flatMap fun row => row.valuesIn columns

mutual

def Statement.values : Statement → List Value
  | { kind, wheres, havings, .. } =>
    match kind with
    | .unset | .select _ => Condition.listValues wheres ++ Condition.listValues havings
    | .insert rows => rowValues rows
    | .update row => row.values ++ Condition.listValues wheres
    | .delete => Condition.listValues wheres
    | .truncate => []
    | .union _ members => Statement.listValues members

def Statement.listValues : List Statement → List Value
  | [] => []
  | member :: rest => member.values ++ Statement.listValues rest

def Condition.listValues : List Condition → List Value
  | [] => []
  | ⟨_, predicate⟩ :: rest => predicate.values ++ Condition.listValues rest

def Predicate.values : Predicate → List Value
  | .compare _ _ _ value | .datePart _ _ _ value => [value]
  | .between _ _ low high => [low, high]
  | .inValues _ _ values | .fragment _ _ values => values
  | .inQuery _ _ query | .existsQuery _ query => query.values
  | .isNull .. | .columns .. => []
  | .group _ conditions => Condition.listValues conditions

end

end SqlComposer
