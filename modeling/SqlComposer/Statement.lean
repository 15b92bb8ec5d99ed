import SqlComposer.Join
import SqlComposer.Pagination
import SqlComposer.Row
import SqlComposer.SelectList
import SqlComposer.Sort

set_option autoImplicit false

/-!
Statements while they are composed. A statement holds predicates, and a predicate can hold a
statement as its subquery; a union holds its members.
-/

namespace SqlComposer

-- A compiled statement starts over when the next one is begun.
inductive Stage where
  | fresh
  | building
  | compiled
deriving DecidableEq

mutual

structure Statement where
  settings : Settings
  stage : Stage
  kind : Kind
  distinct : Bool
  table : Option Text
  joins : List Join
  wheres : List Condition
  groups : List SortEntry
  havings : List Condition
  orders : List SortEntry
  pagination : Pagination

/-- What a statement does. Until a call establishes its kind it selects everything. -/
inductive Kind where
  | unset
  | select (items : List SelectItem)
  | insert (rows : List Row)
  | update (row : Row)
  | delete
  | truncate
  | union (all : Bool) (members : List Statement)

structure Condition where
  connective : Connective
  predicate : Predicate

inductive Predicate where
  | compare (negated : Bool) (column : Text) (comparison : Comparison) (value : Value)
  | between (negated : Bool) (column : Text) (low high : Value)
  | inValues (negated : Bool) (column : Text) (values : List Value)
  | inQuery (negated : Bool) (column : Text) (query : Statement)
  | isNull (negated : Bool) (column : Text)
  | columns (left : Text) (comparison : Comparison) (right : Text)
  | datePart (part : DatePart) (column : Text) (comparison : Comparison) (value : Value)
  | existsQuery (negated : Bool) (query : Statement)
  | fragment (negated : Bool) (text : Text) (values : List Value)
  | group (negated : Bool) (conditions : List Condition)

end

namespace Kind

def name : Kind → Text
  | .unset | .select _ => "select"
  | .insert _ => "insert"
  | .update _ => "update"
  | .delete => "delete"
  | .truncate => "truncate"
  | .union .. => "union"

def admits : Kind → Kind → Bool
  | .unset, _ => true
  | .select _, .select _ | .insert _, .insert _ | .update _, .update _ => true
  | .delete, .delete | .truncate, .truncate => true
  | _, _ => false

def items : Kind → List SelectItem
  | .select items => items
  | _ => []

end Kind

def Stage.touched : Stage → Stage
  | .fresh => .building
  | stage => stage

theorem Stage.touched_ne_fresh (stage : Stage) : stage.touched ≠ .fresh := by
  cases stage <;> simp [touched]

namespace Statement

def new (settings : Settings) : Statement :=
  { settings
    stage := .fresh
    kind := .unset
    distinct := false
    table := none
    joins := []
    wheres := []
    groups := []
    havings := []
    orders := []
    pagination := {} }

def touched (s : Statement) : Statement := { s with stage := s.stage.touched }

def reset (s : Statement) : Statement :=
  { new s.settings with table := if s.settings.retainTable then s.table else none }

def renewed (s : Statement) : Statement :=
  match s.stage with
  | .compiled => s.reset
  | _ => s

-- The statement for a nested group or subquery: it inherits the settings, and the table where it
-- is bound to it.
def child (bound : Bool) (s : Statement) : Statement :=
  { new s.settings with table := if bound then s.table else none }

def scope (s : Statement) : Scope := .ofTable s.settings s.table

end Statement

end SqlComposer
