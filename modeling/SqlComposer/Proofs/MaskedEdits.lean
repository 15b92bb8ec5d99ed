import SqlComposer.Proofs.Changes
import SqlComposer.Proofs.Masking
import SqlComposer.Proofs.Operations

set_option autoImplicit false

namespace SqlComposer

namespace Kind

@[simp] theorem admits_masked (kind next : Kind) : kind.masked.admits next.masked = kind.admits next := by
  cases kind <;> cases next <;> rfl

@[simp] theorem name_masked (kind : Kind) : kind.masked.name = kind.name := by
  cases kind <;> rfl

@[simp] theorem items_masked (kind : Kind) : kind.masked.items = kind.items := by
  cases kind <;> simp [masked, reword, items]

@[simp] theorem masked_select (items : List SelectItem) : (select items).masked = select items := by
  simp [masked, reword]

theorem masked_insert (rows : List Row) : (insert rows).masked = insert (rows.map Row.masked) := rfl

theorem masked_update (row : Row) : (update row).masked = update row.masked := rfl

theorem masked_union (all : Bool) (members : List Statement) :
    (union all members).masked = union all (members.map Statement.masked) := by
  simp [masked, reword, Statement.rewordAll_eq, Statement.masked]

end Kind

theorem Predicate.masked_group (negated : Bool) (conditions : List Condition) :
    (group negated conditions).masked = group negated (conditions.map Condition.masked) := by
  rw [masked, reword, Condition.rewordAll_eq]
  rfl

namespace Statement

variable (s : Statement)

@[simp] theorem settings_masked : s.masked.settings = s.settings := by simp [masked_eq]
@[simp] theorem stage_masked : s.masked.stage = s.stage := by simp [masked_eq]
@[simp] theorem kind_masked : s.masked.kind = s.kind.masked := by simp [masked_eq]
@[simp] theorem table_masked : s.masked.table = s.table := by simp [masked_eq]
@[simp] theorem pagination_masked : s.masked.pagination = s.pagination := by simp [masked_eq]
@[simp] theorem wheres_masked : s.masked.wheres = s.wheres.map Condition.masked := by simp [masked_eq]
@[simp] theorem havings_masked : s.masked.havings = s.havings.map Condition.masked := by
  simp [masked_eq]

@[simp] theorem reset_masked : s.masked.reset = s.reset.masked := by
  simp [masked_eq, reset, new, Kind.masked, Kind.reword]

@[simp] theorem renewed_masked : s.masked.renewed = s.renewed.masked := by
  unfold renewed
  rw [stage_masked]
  cases s.stage <;> simp

@[simp] theorem child_masked (bound : Bool) : s.masked.child bound = (s.child bound).masked := by
  simp [masked_eq, child, new, Kind.masked, Kind.reword]

theorem compiled_masked : s.masked.compiled = s.compiled.masked := by
  simp [masked_eq, compiled]

theorem establish_masked (method : Text) (kind : Kind) :
    s.masked.establish method kind.masked = (s.establish method kind).map masked := by
  unfold establish
  rw [kind_masked, Kind.admits_masked, Kind.name_masked]
  split
  · simp [masked_eq, touched, Except.map]
  · rfl

theorem addItems_masked (method : Text) (items : List SelectItem) :
    s.masked.addItems method items = (s.addItems method items).map masked := by
  unfold addItems
  rw [kind_masked, Kind.items_masked, ← establish_masked, Kind.masked_select]

theorem setTable_masked (method table : Text) :
    s.masked.setTable method table = (s.setTable method table).map masked := by
  unfold setTable
  rw [settings_masked]
  cases Reference.check s.settings method table <;> simp [Except.map, masked_eq, touched]

theorem select_masked (columns : ColumnInput) :
    s.masked.select columns = (s.select columns).map masked := by
  unfold select
  rw [settings_masked]
  cases columns.entries.mapM (Reference.check s.settings "select") with
  | error error => rfl
  | ok references => exact s.addItems_masked "select" (references.map .column)

theorem selectRaw_masked (columns : ColumnInput) :
    s.masked.selectRaw columns = (s.selectRaw columns).map masked :=
  s.addItems_masked "select_raw" (columns.entries.map .fragment)

theorem markDistinct_masked : s.masked.markDistinct = s.markDistinct.masked := by
  simp [markDistinct, masked_eq, touched]

theorem orderByRandom_masked : s.masked.orderByRandom = s.orderByRandom.masked := by
  simp [orderByRandom, masked_eq, touched]

theorem aggregate_masked (function : Aggregate) (column? alias? : Option Text) :
    s.masked.aggregate function column? alias? = (s.aggregate function column? alias?).map masked := by
  unfold aggregate
  rw [settings_masked]
  cases aggregateInput s.settings function column? alias? with
  | error error => rfl
  | ok item => exact s.addItems_masked function.name [item]

theorem join_masked (table : Text) (left? right? operator? kind? : Option Text) :
    s.masked.join table left? right? operator? kind? =
      (s.join table left? right? operator? kind?).map masked := by
  unfold join
  rw [settings_masked, table_masked]
  cases s.table with
  | none => rfl
  | some current =>
    cases joined : joinInput s.settings current table left? right? operator? kind? <;>
      simp [joined, Except.map, masked_eq, touched]

theorem addWhere_masked (connective : Connective) (predicate : Predicate) :
    s.masked.addWhere connective predicate.masked = (s.addWhere connective predicate).masked := by
  simp [addWhere, masked_eq, touched, Condition.masked, Condition.reword, Predicate.masked]

theorem addHaving_masked (connective : Connective) (predicate : Predicate) :
    s.masked.addHaving connective predicate.masked = (s.addHaving connective predicate).masked := by
  simp [addHaving, masked_eq, touched, Condition.masked, Condition.reword, Predicate.masked]

theorem whereGroup_masked (connective : Connective) (negated : Bool) (child : Statement) :
    s.masked.whereGroup connective negated child.masked =
      (s.whereGroup connective negated child).masked := by
  unfold whereGroup
  rw [wheres_masked, List.isEmpty_map]
  split
  · rfl
  · rw [← addWhere_masked, Predicate.masked_group]

theorem havingGroup_masked (connective : Connective) (negated : Bool) (child : Statement) :
    s.masked.havingGroup connective negated child.masked =
      (s.havingGroup connective negated child).masked := by
  unfold havingGroup
  rw [havings_masked, List.isEmpty_map]
  split
  · rfl
  · rw [← addHaving_masked, Predicate.masked_group]

theorem groupBy_masked (input : SortInput) (direction? : Option Text) :
    s.masked.groupBy input direction? = (s.groupBy input direction?).map masked := by
  unfold groupBy
  rw [settings_masked]
  cases input.normalize s.settings "group_by" direction? <;> simp [Except.map, masked_eq, touched]

theorem orderBy_masked (input : SortInput) (direction? : Option Text) :
    s.masked.orderBy input direction? = (s.orderBy input direction?).map masked := by
  unfold orderBy
  rw [settings_masked]
  cases input.normalize s.settings "order_by" direction? <;> simp [Except.map, masked_eq, touched]

theorem setLimit_masked (method : Text) (count : CountInput) :
    s.masked.setLimit method count = (s.setLimit method count).map masked := by
  unfold setLimit
  cases count.toCount method <;> simp [Except.map, masked_eq, touched]

theorem setOffset_masked (method : Text) (count : CountInput) :
    s.masked.setOffset method count = (s.setOffset method count).map masked := by
  unfold setOffset
  cases count.toCount method <;> simp [Except.map, masked_eq, touched]

theorem paginate_masked (page perPage : UInt64) :
    s.masked.paginate page perPage = (s.paginate page perPage).map masked := by
  unfold paginate
  rw [pagination_masked]
  cases s.pagination.paginate page perPage <;> simp [Except.map, masked_eq, touched]

theorem insert_masked (rows : List Row) :
    s.masked.insert (rows.map Row.masked) = (s.insert rows).map masked := by
  have validated : (rows.map Row.masked).forM (Row.validate s.settings "insert") =
      rows.forM (Row.validate s.settings "insert") := by
    simp only [List.forM_eq_forM, List.forM_map, Row.validate_masked]
  unfold insert
  rw [settings_masked, List.isEmpty_map, validated, ← Kind.masked_insert, establish_masked]
  split
  · rfl
  · cases rows.forM (Row.validate s.settings "insert") <;> rfl

theorem update_masked (row : Row) : s.masked.update row.masked = (s.update row).map masked := by
  unfold update
  rw [settings_masked, row.validate_masked, ← Kind.masked_update, establish_masked]
  cases row.validate s.settings "update" <;> rfl

theorem union_masked (all : Bool) (members : List Statement) :
    s.masked.union all (members.map masked) = (s.union all members).map masked := by
  have unset_iff : s.masked.kind = .unset ↔ s.kind = .unset := by
    rw [kind_masked]
    cases s.kind <;> simp [Kind.masked, Kind.reword]
  by_cases unset : s.kind = .unset
  · have whole := s.establish_masked (unionMethod all) (.union all (s :: members))
    rw [Kind.masked_union, List.map_cons] at whole
    rw [union_of_unset _ _ _ unset, union_of_unset _ _ _ (unset_iff.2 unset), List.isEmpty_map, whole]
    split <;> rfl
  · rw [union_of_established _ _ _ unset, union_of_established _ _ _ fun same => unset (unset_iff.1 same),
      kind_masked, Kind.name_masked]
    rfl

end Statement

open Statement

def PredicateInput.masked : PredicateInput → PredicateInput
  | .compare negated column comparison _ => .compare negated column comparison .null
  | .between negated column _ _ => .between negated column .null .null
  | .inValues negated column values => .inValues negated column (values.map fun _ => .null)
  | .isNull negated column => .isNull negated column
  | .columns left comparison right => .columns left comparison right
  | .datePart part column comparison _ => .datePart part column comparison .null
  | .fragment negated text values => .fragment negated text (values.map fun _ => .null)

theorem compareInput_masked (settings : Settings) (method : Text) (negated : Bool) (column : Text)
    (comparison : ComparisonInput) (value : Value) :
    compareInput settings method negated column comparison .null =
      (compareInput settings method negated column comparison value).map Predicate.masked := by
  unfold compareInput
  cases Reference.check settings method column with
  | error error => rfl
  | ok column => cases comparison.toComparison method <;> rfl

theorem PredicateInput.toPredicate_masked (settings : Settings) (input : PredicateInput) :
    input.masked.toPredicate settings = (input.toPredicate settings).map Predicate.masked := by
  match input with
  | .compare negated column comparison value => exact compareInput_masked ..
  | .between negated column low high =>
    simp only [masked, toPredicate]
    cases Reference.check settings "where_between" column <;> rfl
  | .inValues negated column values =>
    simp only [masked, toPredicate, List.isEmpty_map]
    cases Reference.check settings "where_in" column with
    | error error => rfl
    | ok column => cases values <;> rfl
  | .isNull negated column =>
    simp only [masked, toPredicate]
    cases Reference.check settings "where_null" column <;> rfl
  | .columns left comparison right =>
    simp only [masked, toPredicate]
    cases Reference.check settings "where_column" left with
    | error error => rfl
    | ok left =>
      cases comparison.toComparison "where_column" with
      | error error => rfl
      | ok comparison => cases Reference.check settings "where_column" right <;> rfl
  | .datePart part column comparison value =>
    simp only [masked, toPredicate]
    cases Reference.check settings part.method column with
    | error error => rfl
    | ok column => cases comparison.toComparison part.method <;> rfl
  | .fragment negated text values =>
    simp only [masked, toPredicate, List.length_map]
    split <;> rfl

theorem Statement.wherePredicate_masked (connective : ConnectiveInput) (input : PredicateInput)
    (s : Statement) : s.masked.wherePredicate connective input.masked =
      (s.wherePredicate connective input).map Statement.masked := by
  unfold wherePredicate
  rw [settings_masked, input.toPredicate_masked]
  cases connective.toConnective "where" with
  | error error => rfl
  | ok connective =>
    cases input.toPredicate s.settings with
    | error error => rfl
    | ok predicate => exact congrArg Except.ok (s.addWhere_masked connective predicate)

theorem Statement.havingCompare_masked (connective : ConnectiveInput) (negated : Bool) (column : Text)
    (comparison : ComparisonInput) (value : Value) (s : Statement) :
    s.masked.havingCompare connective negated column comparison .null =
      (s.havingCompare connective negated column comparison value).map Statement.masked := by
  unfold havingCompare
  rw [settings_masked, compareInput_masked _ _ _ _ _ value]
  cases connective.toConnective "having" with
  | error error => rfl
  | ok connective =>
    cases compareInput s.settings "having" negated column comparison value with
    | error error => rfl
    | ok predicate => exact congrArg Except.ok (s.addHaving_masked connective predicate)

-- What cannot be made a row has no values.
def RowInput.masked : RowInput → RowInput
  | .pairs fields => .pairs (Row.ofPairs fields).masked.fields
  | .document (.object fields) =>
    .pairs (Row.ofPairs (fields.map fun (column, value) => (column, Value.ofJson value))).masked.fields
  | .document _ => .document .null
  | .unserializable reason => .unserializable reason

theorem RowInput.toRow_masked (input : RowInput) :
    input.masked.toRow = input.toRow.map Row.masked := by
  cases input with
  | pairs fields => exact congrArg Except.ok (Row.ofPairs_fields _)
  | document value =>
    cases value with
    | object fields => exact congrArg Except.ok (Row.ofPairs_fields _)
    | _ => rfl
  | unserializable reason => rfl

def RowsInput.masked : RowsInput → RowsInput
  | .one row => .one row.masked
  | .many rows => .many (rows.map fun fields => (Row.ofPairs fields).masked.fields)

theorem RowsInput.toRows_masked (input : RowsInput) :
    input.masked.toRows = input.toRows.map (List.map Row.masked) := by
  match input with
  | .one row =>
    simp only [masked, toRows, row.toRow_masked]
    cases row.toRow <;> rfl
  | .many rows =>
    simp [masked, toRows, Except.map, Row.ofPairs_fields]

namespace Edit

def masked : Edit → Edit
  | .wherePredicate connective predicate => .wherePredicate connective predicate.masked
  | .havingCompare connective negated column comparison _ =>
    .havingCompare connective negated column comparison .null
  | .insert rows => .insert rows.masked
  | .update row => .update row.masked
  | edit => edit

theorem apply_masked (edit : Edit) (s : Statement) :
    edit.masked.apply s.masked = (edit.apply s).map Statement.masked := by
  cases edit with
  | fromTable name => exact s.setTable_masked "from" name
  | table name => exact s.setTable_masked "table" name
  | select columns => exact s.select_masked columns
  | selectRaw columns => exact s.selectRaw_masked columns
  | distinct => exact congrArg Except.ok s.markDistinct_masked
  | aggregate function column? alias? => exact s.aggregate_masked function column? alias?
  | join joined left? right? operator? kind? => exact s.join_masked joined left? right? operator? kind?
  | wherePredicate connective predicate => exact s.wherePredicate_masked connective predicate
  | havingCompare connective negated column comparison value =>
    exact s.havingCompare_masked connective negated column comparison value
  | groupBy input direction? => exact s.groupBy_masked input direction?
  | orderBy input direction? => exact s.orderBy_masked input direction?
  | orderByRandom => exact congrArg Except.ok s.orderByRandom_masked
  | limit count => exact s.setLimit_masked "limit" count
  | take count => exact s.setLimit_masked "take" count
  | offset count => exact s.setOffset_masked "offset" count
  | skip count => exact s.setOffset_masked "skip" count
  | paginate page perPage => exact s.paginate_masked page perPage
  | insert rows =>
    simp only [masked, apply, rows.toRows_masked]
    cases rows.toRows with
    | error error => rfl
    | ok rows => exact s.insert_masked rows
  | update row =>
    simp only [masked, apply, row.toRow_masked]
    cases row.toRow with
    | error error => rfl
    | ok row => exact s.update_masked row
  | delete => exact s.establish_masked "delete" .delete
  | truncate => exact s.establish_masked "truncate" .truncate
  | addReferenceChars chars =>
    simp only [masked, apply, settings_masked]
    cases chars.toChars <;> simp [Except.map, masked_eq]
  | setQuote quote =>
    simp only [masked, apply, settings_masked]
    cases Quote.ofText quote <;> simp [Except.map, masked_eq]
  | reset => exact congrArg Except.ok s.reset_masked

theorem base_masked (edit : Edit) (s : Statement) : edit.masked.base s.masked = (edit.base s).masked := by
  unfold base
  have starts : edit.masked.startsOver = edit.startsOver := by cases edit <;> rfl
  rw [starts, renewed_masked]
  split <;> rfl

theorem run_masked (edit : Edit) (s : Statement) :
    edit.masked.run s.masked = ((edit.run s).1, (edit.run s).2.masked) := by
  rw [run_eq, run_eq, base_masked, apply_masked]
  cases edit.apply (edit.base s) <;> rfl

end Edit

end SqlComposer
