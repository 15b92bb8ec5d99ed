import SqlComposer.Statement.Tokens

set_option autoImplicit false

namespace SqlComposer

-- Rows are replaced as a whole, because their columns have to stay distinct.
structure Rewording where
  name : Text → Text
  value : Value → Value
  row : Row → Row
  size_row : ∀ r, (row r).size = r.size

namespace SelectItem

def reword (words : Rewording) : SelectItem → SelectItem
  | .column reference => .column (words.name reference)
  | .fragment value => .fragment value
  | .aggregate function reference name => .aggregate function (words.name reference) (words.name name)

end SelectItem

namespace SortEntry

def reword (words : Rewording) : SortEntry → SortEntry
  | .column reference direction => .column (words.name reference) direction
  | .random => .random

end SortEntry

namespace Join

def reword (words : Rewording) (join : Join) : Join :=
  { join with
    table := words.name join.table
    left := words.name join.left
    right := words.name join.right }

end Join

mutual

def Statement.reword (words : Rewording) : Statement → Statement
  | ⟨settings, stage, kind, distinct, table, joins, wheres, groups, havings, orders, pagination⟩ =>
    { settings, stage, distinct, pagination
      kind := kind.reword words
      table := table.map words.name
      joins := joins.map (Join.reword words)
      wheres := Condition.rewordAll words wheres
      groups := groups.map (SortEntry.reword words)
      havings := Condition.rewordAll words havings
      orders := orders.map (SortEntry.reword words) }

def Statement.rewordAll (words : Rewording) : List Statement → List Statement
  | [] => []
  | member :: rest => member.reword words :: Statement.rewordAll words rest

def Kind.reword (words : Rewording) : Kind → Kind
  | .unset => .unset
  | .select items => .select (items.map (SelectItem.reword words))
  | .insert rows => .insert (rows.map words.row)
  | .update row => .update (words.row row)
  | .delete => .delete
  | .truncate => .truncate
  | .union all members => .union all (Statement.rewordAll words members)

def Condition.reword (words : Rewording) : Condition → Condition
  | ⟨connective, predicate⟩ => ⟨connective, predicate.reword words⟩

def Condition.rewordAll (words : Rewording) : List Condition → List Condition
  | [] => []
  | condition :: rest => condition.reword words :: Condition.rewordAll words rest

def Predicate.reword (words : Rewording) : Predicate → Predicate
  | .compare negated column comparison value =>
    .compare negated (words.name column) comparison (words.value value)
  | .between negated column low high =>
    .between negated (words.name column) (words.value low) (words.value high)
  | .inValues negated column values =>
    .inValues negated (words.name column) (values.map words.value)
  | .inQuery negated column query => .inQuery negated (words.name column) (query.reword words)
  | .isNull negated column => .isNull negated (words.name column)
  | .columns left comparison right => .columns (words.name left) comparison (words.name right)
  | .datePart part column comparison value =>
    .datePart part (words.name column) comparison (words.value value)
  | .existsQuery negated query => .existsQuery negated (query.reword words)
  | .fragment negated text values => .fragment negated text (values.map words.value)
  | .group negated conditions => .group negated (Condition.rewordAll words conditions)

end

theorem Statement.rewordAll_eq (words : Rewording) (members : List Statement) :
    Statement.rewordAll words members = members.map (Statement.reword words) := by
  induction members with
  | nil => rfl
  | cons member rest ih => simp [Statement.rewordAll, ih]

theorem Condition.rewordAll_eq (words : Rewording) (conditions : List Condition) :
    Condition.rewordAll words conditions = conditions.map (Condition.reword words) := by
  induction conditions with
  | nil => rfl
  | cons condition rest ih => simp [Condition.rewordAll, ih]

theorem Statement.reword_eq (words : Rewording) (s : Statement) :
    s.reword words =
      { s with
        kind := s.kind.reword words
        table := s.table.map words.name
        joins := s.joins.map (Join.reword words)
        wheres := s.wheres.map (Condition.reword words)
        groups := s.groups.map (SortEntry.reword words)
        havings := s.havings.map (Condition.reword words)
        orders := s.orders.map (SortEntry.reword words) } := by
  cases s
  simp [Statement.reword, Condition.rewordAll_eq]

end SqlComposer
