import SqlComposer.Edit
import SqlComposer.Query

set_option autoImplicit false

namespace SqlComposer

inductive Origin where
  | blank
  | table (name : Text)
  | settings (input : SettingsInput)
  | dialect (value : Dialect)

def Origin.start : Origin → Except Error Statement
  | .blank => .ok (.new {})
  | .table name => (Statement.new {}).setTable "from" name
  | .settings input => input.build.map .new
  | .dialect value => .ok (.new (.ofDialect value))

mutual

inductive Call where
  | edit (edit : Edit)
  | query (query : Query)
  | whereGroup (connective : Connective) (negated : Bool) (calls : List Call)
  | whereInQuery (connective : Connective) (negated : Bool) (column : Text) (calls : List Call)
  | whereExists (connective : Connective) (negated : Bool) (calls : List Call)
  | havingGroup (connective : Connective) (negated : Bool) (calls : List Call)
  | union (all : Bool) (members : List Member)
  | attempt (call : Call)

structure Member where
  origin : Origin
  calls : List Call

end

structure Outcome where
  result : Except Error Reply
  statement : Statement
  inner : List Report

structure Built (A : Type) where
  result : Except Error A
  reports : List Report

def Outcome.report (outcome : Outcome) : Report := ⟨outcome.result, outcome.inner⟩

def Built.complete {A : Type} (s : Statement) (built : Built A) (finish : A → Change Unit) :
    Outcome :=
  match built.result with
  | .error error => ⟨.error error, s, built.reports⟩
  | .ok a =>
    match (finish a).run s with
    | .ok () next => ⟨.ok .done, next, built.reports⟩
    | .error error left => ⟨.error error, left, built.reports⟩

mutual

def Call.run : Call → Statement → Outcome
  | .edit edit, s =>
    let (result, next) := edit.run s
    ⟨result.map fun _ => .done, next, []⟩
  | .query query, s =>
    let (result, next) := query.run s
    ⟨result, next, []⟩
  | .whereGroup connective negated calls, s =>
    (Call.build calls (s.child true)).complete s (.whereGroup connective negated)
  | .whereInQuery connective negated column calls, s =>
    match Reference.check s.settings "where_in" column with
    | .error error => ⟨.error error, s, []⟩
    | .ok column => (Call.build calls (s.child false)).complete s fun child =>
      .addWhere connective (.inQuery negated column child)
  | .whereExists connective negated calls, s =>
    (Call.build calls (s.child true)).complete s fun child =>
      .addWhere connective (.existsQuery negated child)
  | .havingGroup connective negated calls, s =>
    (Call.build calls (s.child true)).complete s (.havingGroup connective negated)
  | .union all members, s =>
    (Member.buildAll members).complete s (.union all)
  | .attempt call, s =>
    let outcome := call.run s
    ⟨.ok (.ofAttempt outcome.result), outcome.statement, outcome.inner⟩

def Call.build : List Call → Statement → Built Statement
  | [], s => ⟨.ok s, []⟩
  | call :: rest, s =>
    let outcome := call.run s
    match outcome.result with
    | .error error => ⟨.error error, [outcome.report]⟩
    | .ok _ =>
      let built := Call.build rest outcome.statement
      ⟨built.result, outcome.report :: built.reports⟩

def Member.build : Member → Built Statement
  | ⟨origin, calls⟩ =>
    match origin.start with
    | .error error => ⟨.error error, []⟩
    | .ok s => Call.build calls s

def Member.buildAll : List Member → Built (List Statement)
  | [] => ⟨.ok [], []⟩
  | member :: rest =>
    let first := member.build
    match first.result with
    | .error error => ⟨.error error, first.reports⟩
    | .ok statement =>
      let others := Member.buildAll rest
      ⟨others.result.map (statement :: ·), first.reports ++ others.reports⟩

end

-- Every call runs on what the one before it left, whether that failed or not.
def Call.runEach : List Call → Statement → List Outcome
  | [], _ => []
  | call :: rest, s =>
    let outcome := call.run s
    outcome :: Call.runEach rest outcome.statement

def Call.runAll (calls : List Call) (s : Statement) : Statement :=
  calls.foldl (fun s call => (call.run s).statement) s

end SqlComposer
