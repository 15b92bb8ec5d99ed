import SqlComposer.Call
import SqlComposer.Sort.Map

set_option autoImplicit false

/-!
Statements with all the fields that calls keep of them: the kind, whether a call has set it and the
select list each by themselves, and sort clauses with numbers for their random entries. The statement
that such a draft stands for is `Draft.statement`.
-/

namespace SqlComposer

mutual

structure Draft where
  settings : Settings
  stage : Stage
  kind : DraftKind
  explicit : Bool
  items : List SelectItem
  distinct : Bool
  table : Option Text
  joins : List Join
  wheres : List DraftCondition
  groups : SortMap
  havings : List DraftCondition
  orders : SortMap
  pagination : Pagination

inductive DraftKind where
  | select
  | insert (rows : List Row)
  | update (row : Row)
  | delete
  | truncate
  | union (all : Bool) (members : List Draft)

structure DraftCondition where
  connective : Connective
  predicate : DraftPredicate

-- A plain predicate holds no statement and no other predicate.
inductive DraftPredicate where
  | plain (predicate : Predicate)
  | inQuery (negated : Bool) (column : Text) (query : Draft)
  | existsQuery (negated : Bool) (query : Draft)
  | group (negated : Bool) (conditions : List DraftCondition)

end

mutual

/-- The statement of a draft: its select list counts where it selects and a call has said so. -/
def Draft.statement : Draft → Statement
  | ⟨settings, stage, kind, explicit, items, distinct, table, joins, wheres, groups, havings, orders,
      pagination⟩ =>
    ⟨settings, stage, kind.merged explicit items, distinct, table, joins,
      DraftCondition.conditions wheres, groups.shown, DraftCondition.conditions havings, orders.shown,
      pagination⟩

def DraftKind.merged (explicit : Bool) (items : List SelectItem) : DraftKind → Kind
  | .select => if explicit then .select items else .unset
  | .insert rows => .insert rows
  | .update row => .update row
  | .delete => .delete
  | .truncate => .truncate
  | .union all members => .union all (Draft.statements members)

def Draft.statements : List Draft → List Statement
  | [] => []
  | member :: rest => member.statement :: Draft.statements rest

def DraftCondition.conditions : List DraftCondition → List Condition
  | [] => []
  | ⟨connective, predicate⟩ :: rest =>
    ⟨connective, predicate.merged⟩ :: DraftCondition.conditions rest

def DraftPredicate.merged : DraftPredicate → Predicate
  | .plain predicate => predicate
  | .inQuery negated column query => .inQuery negated column query.statement
  | .existsQuery negated query => .existsQuery negated query.statement
  | .group negated conditions => .group negated (DraftCondition.conditions conditions)

end

namespace DraftKind

def name : DraftKind → Text
  | .select => "select"
  | .insert _ => "insert"
  | .update _ => "update"
  | .delete => "delete"
  | .truncate => "truncate"
  | .union .. => "union"

def isLike : DraftKind → DraftKind → Bool
  | .select, .select | .insert _, .insert _ | .update _, .update _ | .delete, .delete
  | .truncate, .truncate | .union .., .union .. => true
  | _, _ => false

def isUnion : DraftKind → Bool
  | .union .. => true
  | _ => false

end DraftKind

namespace Draft

def new (settings : Settings) : Draft :=
  { settings
    stage := .fresh
    kind := .select
    explicit := false
    items := []
    distinct := false
    table := none
    joins := []
    wheres := []
    groups := .empty
    havings := []
    orders := .empty
    pagination := {} }

def touched (d : Draft) : Draft := { d with stage := d.stage.touched }

def compiled (d : Draft) : Draft := { d with stage := .compiled }

def reset (d : Draft) : Draft :=
  { new d.settings with table := if d.settings.retainTable then d.table else none }

def renewed (d : Draft) : Draft :=
  match d.stage with
  | .compiled => d.reset
  | _ => d

def child (bound : Bool) (d : Draft) : Draft :=
  { new d.settings with table := if bound then d.table else none }

def conflicts (kind : DraftKind) (d : Draft) : Bool :=
  d.explicit && (!d.kind.isLike kind || kind.isUnion)

def setKind (method : Text) (kind : DraftKind) (d : Draft) : Except Error Draft :=
  if d.conflicts kind then .error (.conflictingKind method d.kind.name)
  else .ok (touched { d with kind, explicit := true })

def push (item : SelectItem) (d : Draft) : Draft := { d with items := d.items ++ [item] }

def addItems (method : Text) (items : List SelectItem) (d : Draft) : Except Error Draft := do
  let d ← d.setKind method .select
  return items.foldl (fun d item => d.push item) d

def addWhere (connective : Connective) (predicate : DraftPredicate) (d : Draft) : Draft :=
  touched { d with wheres := d.wheres ++ [⟨connective, predicate⟩] }

def addHaving (connective : Connective) (predicate : DraftPredicate) (d : Draft) : Draft :=
  touched { d with havings := d.havings ++ [⟨connective, predicate⟩] }

def whereGroup (connective : Connective) (negated : Bool) (d child : Draft) : Draft :=
  if child.wheres.isEmpty then d else d.addWhere connective (.group negated child.wheres)

def havingGroup (connective : Connective) (negated : Bool) (d child : Draft) : Draft :=
  if child.havings.isEmpty then d else d.addHaving connective (.group negated child.havings)

def union (all : Bool) (members : List Draft) (d : Draft) : Except Error Draft :=
  if d.explicit then .error (.conflictingKind (Statement.unionMethod all) d.kind.name)
  else if members.isEmpty then .error (.invalidArgument (Statement.unionMethod all) .noStatements)
  else d.setKind (Statement.unionMethod all) (.union all (d :: members))

-- The fields that are the same in the statement, as a statement of their own, and put back.
def common (d : Draft) : Statement :=
  { Statement.new d.settings with
    stage := d.stage
    distinct := d.distinct
    table := d.table
    joins := d.joins
    pagination := d.pagination }

def withCommon (s : Statement) (d : Draft) : Draft :=
  { d with
    settings := s.settings
    stage := s.stage
    distinct := s.distinct
    table := s.table
    joins := s.joins
    pagination := s.pagination }

def apply (edit : Edit) (d : Draft) : Except Error Draft :=
  match edit with
  | .select columns => do
    let references ← columns.entries.mapM (Reference.check d.settings "select")
    d.addItems "select" (references.map .column)
  | .selectRaw columns => d.addItems "select_raw" (columns.entries.map .fragment)
  | .aggregate function column? alias? => do
    let item ← aggregateInput d.settings function column? alias?
    d.addItems function.name [item]
  | .wherePredicate connective input => do
    let connective ← connective.toConnective "where"
    let predicate ← input.toPredicate d.settings
    return d.addWhere connective (.plain predicate)
  | .havingCompare connective negated column comparison value => do
    let connective ← connective.toConnective "having"
    let predicate ← compareInput d.settings "having" negated column comparison value
    return d.addHaving connective (.plain predicate)
  | .groupBy input direction? => do
    let entries ← input.normalize d.settings "group_by" direction?
    return touched { d with groups := d.groups.putAll entries }
  | .orderBy input direction? => do
    let entries ← input.normalize d.settings "order_by" direction?
    return touched { d with orders := d.orders.putAll entries }
  | .orderByRandom => .ok (touched { d with orders := d.orders.add .random })
  | .insert rows => do
    let rows ← rows.toRows
    if rows.isEmpty then throw (.invalidArgument "insert" .noRows)
    rows.forM (Row.validate d.settings "insert")
    d.setKind "insert" (.insert rows)
  | .update row => do
    let row ← row.toRow
    row.validate d.settings "update"
    d.setKind "update" (.update row)
  | .delete => d.setKind "delete" .delete
  | .truncate => d.setKind "truncate" .truncate
  | .reset => .ok d.reset
  | .fromTable _ | .table _ | .distinct | .join .. | .limit _ | .take _ | .offset _ | .skip _
  | .paginate .. | .addReferenceChars _ | .setQuote _ => do
    let s ← edit.apply d.common
    return d.withCommon s

def base (edit : Edit) (d : Draft) : Draft := if edit.startsOver then d.renewed else d

def start (origin : Origin) : Except Error Draft :=
  match origin with
  | .blank => .ok (new {})
  | .table name => (new {}).apply (.fromTable name)
  | .settings input => input.build.map new
  | .dialect value => .ok (new (.ofDialect value))

-- Where the result is an error, the draft is left.
def conclude (d : Draft) : Except Error Draft → Except Error Reply × Draft
  | .ok next => (.ok .done, next)
  | .error error => (.error error, d)

mutual

def run : Call → Draft → Except Error Reply × Draft
  | .edit edit, d => (d.base edit).conclude ((d.base edit).apply edit)
  | .query query, d =>
    match query.answer d.statement with
    | .ok reply => (.ok reply, if query.compiles then d.compiled else d)
    | .error error => (.error error, d)
  | .whereGroup connective negated calls, d =>
    d.conclude ((build calls (d.child true)).map (d.whereGroup connective negated))
  | .whereInQuery connective negated column calls, d =>
    match Reference.check d.settings "where_in" column with
    | .error error => (.error error, d)
    | .ok column => d.conclude ((build calls (d.child false)).map fun child =>
      d.addWhere connective (.inQuery negated column child))
  | .whereExists connective negated calls, d =>
    d.conclude ((build calls (d.child true)).map fun child =>
      d.addWhere connective (.existsQuery negated child))
  | .havingGroup connective negated calls, d =>
    d.conclude ((build calls (d.child true)).map (d.havingGroup connective negated))
  | .union all members, d => d.conclude ((buildAll members).bind fun built => d.union all built)
  | .attempt call, d =>
    let (result, next) := run call d
    (.ok (.ofAttempt result), next)

def build : List Call → Draft → Except Error Draft
  | [], d => .ok d
  | call :: rest, d =>
    match run call d with
    | (.error error, _) => .error error
    | (.ok _, next) => build rest next

def buildMember : Member → Except Error Draft
  | ⟨origin, calls⟩ =>
    match start origin with
    | .error error => .error error
    | .ok d => build calls d

def buildAll : List Member → Except Error (List Draft)
  | [] => .ok []
  | member :: rest =>
    match buildMember member with
    | .error error => .error error
    | .ok first => (buildAll rest).map (first :: ·)

end

def runAll (calls : List Call) (d : Draft) : Draft := calls.foldl (fun d call => (run call d).2) d

end Draft

end SqlComposer
