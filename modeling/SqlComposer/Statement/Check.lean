import SqlComposer.Statement

set_option autoImplicit false

namespace SqlComposer

def requireTable : Option Text → Except Error Unit
  | some _ => .ok ()
  | none => .error (.invalidArgument "to_sql" .noTable)

def checkRows : List Row → Except Error Unit
  | [] => .error (.invalidArgument "insert" .noRows)
  | first :: rest =>
    if rest.all fun row => row.sameColumns first then .ok ()
    else .error (.invalidArgument "insert" .unequalColumns)

mutual

def Statement.check : Statement → Except Error Unit
  | { kind, table, wheres, havings, pagination, .. } =>
    match kind with
    | .unset | .select _ => do
      requireTable table
      Condition.checkAll wheres
      Condition.checkAll havings
      pagination.validate
    | .update _ | .delete => do
      requireTable table
      Condition.checkAll wheres
      pagination.validate
    | .insert rows => do
      requireTable table
      checkRows rows
    | .truncate => requireTable table
    | .union _ members => do
      pagination.validate
      Statement.checkAll members

def Statement.checkAll : List Statement → Except Error Unit
  | [] => .ok ()
  | member :: rest => do
    member.check
    Statement.checkAll rest

def Condition.check : Condition → Except Error Unit
  | ⟨_, predicate⟩ => predicate.check

def Condition.checkAll : List Condition → Except Error Unit
  | [] => .ok ()
  | condition :: rest => do
    condition.check
    Condition.checkAll rest

def Predicate.check : Predicate → Except Error Unit
  | .inQuery _ _ query | .existsQuery _ query => query.check
  | .group _ conditions => Condition.checkAll conditions
  | _ => .ok ()

end

theorem Condition.checkAll_cons (condition : Condition) (rest : List Condition) :
    Condition.checkAll (condition :: rest) =
      condition.predicate.check >>= fun _ => Condition.checkAll rest := by
  cases condition
  rfl

end SqlComposer
