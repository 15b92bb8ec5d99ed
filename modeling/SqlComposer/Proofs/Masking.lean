import SqlComposer.Proofs.Columns
import SqlComposer.Proofs.Rewording

set_option autoImplicit false

namespace SqlComposer

namespace Row

def masked (row : Row) : Row :=
  ⟨row.fields.map fun field => (field.1, .null), by
    simpa [Keyed.keys, Function.comp_def] using row.distinct⟩

@[simp] theorem columns_masked (row : Row) : row.masked.columns = row.columns := by
  simp [masked, columns, Keyed.keys]

@[simp] theorem size_masked (row : Row) : row.masked.size = row.size := by
  simp [masked, size]

theorem validate_masked (row : Row) (settings : Settings) (method : Text) :
    row.masked.validate settings method = row.validate settings method := by
  simp [validate, isEmpty, masked, columns, Keyed.keys, Function.comp_def]

theorem isSome_get?_masked (row : Row) (column : Text) :
    (row.masked.get? column).isSome = (row.get? column).isSome := by
  rw [Bool.eq_iff_iff, isSome_get?, isSome_get?, columns_masked]

theorem sameColumns_masked (a b : Row) : a.masked.sameColumns b.masked = a.sameColumns b := by
  simp [sameColumns, isSome_get?_masked]

theorem length_valuesIn_masked (row : Row) (columns : List Text) :
    (row.masked.valuesIn columns).length = (row.valuesIn columns).length := by
  induction columns with
  | nil => rfl
  | cons column rest ih =>
    have found := row.isSome_get?_masked column
    cases masked : row.masked.get? column <;> cases plain : row.get? column <;>
      simp_all [valuesIn]

end Row

def Rewording.masking : Rewording where
  name := id
  value _ := .null
  row := Row.masked
  size_row := Row.size_masked

namespace Rewording

@[simp] theorem masking_name (name : Text) : masking.name name = name := rfl

@[simp] theorem masking_items (items : List SelectItem) :
    items.map (SelectItem.reword masking) = items :=
  List.map_id'' (fun item => by cases item <;> rfl) items

@[simp] theorem masking_joins (joins : List Join) : joins.map (Join.reword masking) = joins :=
  List.map_id'' (fun _ => rfl) joins

@[simp] theorem masking_entries (entries : List SortEntry) :
    entries.map (SortEntry.reword masking) = entries :=
  List.map_id'' (fun entry => by cases entry <;> rfl) entries

end Rewording

open Rewording

def Statement.masked (s : Statement) : Statement := s.reword masking

def Kind.masked (kind : Kind) : Kind := kind.reword masking

def Condition.masked (condition : Condition) : Condition := condition.reword masking

def Predicate.masked (predicate : Predicate) : Predicate := predicate.reword masking

theorem Statement.masked_eq (s : Statement) :
    s.masked =
      { s with
        kind := s.kind.masked
        wheres := s.wheres.map Condition.masked
        havings := s.havings.map Condition.masked } := by
  have table : s.table.map masking.name = s.table := Option.map_id_apply
  rw [Statement.masked, Statement.reword_eq, table]
  simp [Kind.masked, Condition.masked]

theorem checkRows_masked (rows : List Row) : checkRows (rows.map Row.masked) = checkRows rows := by
  cases rows with
  | nil => rfl
  | cons first rest =>
    have same : ((rest.map Row.masked).all fun row => row.sameColumns first.masked) =
        rest.all fun row => row.sameColumns first := by
      simp only [List.all_map, Function.comp_def, Row.sameColumns_masked]
    rw [List.map_cons, checkRows, checkRows, same]

theorem length_rowValues_masked (rows : List Row) :
    (rowValues (rows.map Row.masked)).length = (rowValues rows).length := by
  simp [rowValues, List.length_flatMap, List.map_map, Function.comp_def, Row.length_valuesIn_masked]

theorem writeInsert_masked (table : Option Text) (rows : List Row) :
    writeInsert table (rows.map Row.masked) = writeInsert table rows := by
  simp [writeInsert, checkRows_masked, Function.comp_def]

theorem clause_rewordAll (words : Rewording) (conditions : List Condition) (lead : List Token)
    (body : Write) : Write.clause (Condition.rewordAll words conditions) lead body =
      Write.clause conditions lead body := by
  cases conditions <;> rfl

mutual

theorem Statement.write_masked (s : Statement) : (s.reword masking).write = s.write := by
  match s with
  | { settings, kind, distinct, table, joins, wheres, groups, havings, orders, pagination, .. } =>
    have inWheres := Condition.writeList_masked wheres
    have inHavings := Condition.writeList_masked havings
    have named : table.map masking.name = table := Option.map_id_apply
    match kind with
    | .unset | .select _ | .delete | .truncate =>
      simp [Statement.reword, Kind.reword, Kind.items, Statement.write, clause_rewordAll, named,
        inWheres, inHavings]
    | .insert rows =>
      have listed : writeInsert table (rows.map masking.row) = writeInsert table rows :=
        writeInsert_masked table rows
      simp [Statement.reword, Kind.reword, Statement.write, named, listed]
    | .update row =>
      have columns : (masking.row row).columns = row.columns := row.columns_masked
      simp [Statement.reword, Kind.reword, Statement.write, clause_rewordAll, named, inWheres, columns]
    | .union all members =>
      have inner := Statement.writeMembers_masked all members
      simp [Statement.reword, Kind.reword, Statement.write, named, inner]

theorem Statement.writeMembers_masked (all : Bool) (members : List Statement) :
    Statement.writeMembers all (Statement.rewordAll masking members) =
      Statement.writeMembers all members := by
  match members with
  | [] => rfl
  | member :: rest =>
    have first := Statement.write_masked member
    have later := Statement.writeLaterMembers_masked all rest
    simp [Statement.rewordAll, Statement.writeMembers, first, later]

theorem Statement.writeLaterMembers_masked (all : Bool) (members : List Statement) :
    Statement.writeLaterMembers all (Statement.rewordAll masking members) =
      Statement.writeLaterMembers all members := by
  match members with
  | [] => rfl
  | member :: rest =>
    have first := Statement.write_masked member
    have later := Statement.writeLaterMembers_masked all rest
    simp [Statement.rewordAll, Statement.writeLaterMembers, first, later]

theorem Condition.writeList_masked (conditions : List Condition) :
    Condition.writeList (Condition.rewordAll masking conditions) = Condition.writeList conditions := by
  match conditions with
  | [] => rfl
  | ⟨connective, predicate⟩ :: rest =>
    have first := Predicate.write_masked predicate
    have later := Condition.writeLater_masked rest
    simp [Condition.rewordAll, Condition.reword, Condition.writeList, first, later]

theorem Condition.writeLater_masked (conditions : List Condition) :
    Condition.writeLater (Condition.rewordAll masking conditions) =
      Condition.writeLater conditions := by
  match conditions with
  | [] => rfl
  | ⟨connective, predicate⟩ :: rest =>
    have first := Predicate.write_masked predicate
    have later := Condition.writeLater_masked rest
    simp [Condition.rewordAll, Condition.reword, Condition.writeLater, first, later]

theorem Predicate.write_masked (predicate : Predicate) :
    (predicate.reword masking).write = predicate.write := by
  match predicate with
  | .compare .. | .between .. | .isNull .. | .columns .. | .datePart .. => rfl
  | .inValues .. | .fragment .. => simp [Predicate.reword, Predicate.write]
  | .inQuery _ _ query | .existsQuery _ query =>
    have inner := Statement.write_masked query
    simp [Predicate.reword, Predicate.write, inner]
  | .group _ conditions =>
    have inner := Condition.writeList_masked conditions
    simp [Predicate.reword, Predicate.write, inner]

end

mutual

theorem Statement.length_values_masked (s : Statement) :
    (s.reword masking).values.length = s.values.length := by
  match s with
  | { kind, wheres, havings, .. } =>
    have inWheres := Condition.length_listValues_masked wheres
    have inHavings := Condition.length_listValues_masked havings
    match kind with
    | .unset | .select _ | .delete | .truncate =>
      simp [Statement.reword, Kind.reword, Statement.values, inWheres, inHavings]
    | .insert rows => exact length_rowValues_masked rows
    | .update row =>
      have sizes : (masking.row row).values.length = row.values.length := by
        rw [Row.length_values, Row.length_values]
        exact congrArg List.length row.columns_masked
      simp [Statement.reword, Kind.reword, Statement.values, inWheres, sizes]
    | .union all members =>
      have inner := Statement.length_listValues_masked members
      simpa [Statement.reword, Kind.reword, Statement.values] using inner

theorem Statement.length_listValues_masked (members : List Statement) :
    (Statement.listValues (Statement.rewordAll masking members)).length =
      (Statement.listValues members).length := by
  match members with
  | [] => rfl
  | member :: rest =>
    have first := Statement.length_values_masked member
    have later := Statement.length_listValues_masked rest
    simp [Statement.rewordAll, Statement.listValues, first, later]

theorem Condition.length_listValues_masked (conditions : List Condition) :
    (Condition.listValues (Condition.rewordAll masking conditions)).length =
      (Condition.listValues conditions).length := by
  match conditions with
  | [] => rfl
  | ⟨connective, predicate⟩ :: rest =>
    have first := Predicate.length_values_masked predicate
    have later := Condition.length_listValues_masked rest
    simp [Condition.rewordAll, Condition.reword, Condition.listValues, first, later]

theorem Predicate.length_values_masked (predicate : Predicate) :
    (predicate.reword masking).values.length = predicate.values.length := by
  match predicate with
  | .compare .. | .between .. | .isNull .. | .columns .. | .datePart .. => rfl
  | .inValues .. | .fragment .. => simp [Predicate.reword, Predicate.values]
  | .inQuery _ _ query | .existsQuery _ query => exact Statement.length_values_masked query
  | .group _ conditions => exact Condition.length_listValues_masked conditions

end

namespace Statement

variable {s t : Statement}

theorem sql_eq_of_masked (same : s.masked = t.masked) : s.sql = t.sql := by
  have quotes : s.settings = t.settings := by simpa [masked_eq] using congrArg Statement.settings same
  have writers : s.write = t.write := by
    rw [← s.write_masked, ← t.write_masked]
    exact congrArg Statement.write same
  rw [sql, sql, quotes, writers]

theorem length_values_of_masked (same : s.masked = t.masked) :
    s.values.length = t.values.length := by
  rw [← s.length_values_masked, ← t.length_values_masked]
  exact congrArg (fun masked => masked.values.length) same

end Statement

end SqlComposer
