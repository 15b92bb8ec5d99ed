import SqlComposer.Call
import SqlComposer.Session

set_option autoImplicit false

namespace SqlComposer

inductive Operation where
  | get
  | getOne
  | query (sql : Text) (values : List Value)
  | raw (sql : Text) (values : List Value)
  | insert (rows : RowsInput)
  | insertGetId (row : RowInput)
  | update (row : RowInput)
  | delete
  | count (column? : Option Text)
  | aggregate (function : Aggregate) (column : Text)
  | hasRows
  | begin
  | commit
  | rollback
  | enableLog
  | log
  | takeLog
  | counters

inductive SessionCall (C : Type) where
  | statement (call : Call)
  | operation (action : Operation)
  | transaction (calls : List (SessionCall C))
  | useConnection (use : C → C)
  | attempt (call : SessionCall C)

structure SessionOutcome (C : Type) where
  result : Except Error Reply
  session : Session C
  inner : List Report

variable {C : Type} [Connection C]

def replyWith {A : Type} (reply : A → Reply) (answered : Except Error A × Session C) :
    Except Error Reply × Session C :=
  (answered.1.map reply, answered.2)

def Operation.run (operation : Operation) (session : Session C) :
    Except Error Reply × Session C :=
  match operation with
  | .get => replyWith .rows session.execute
  | .getOne => replyWith .row session.getOne
  | .query sql values => replyWith .rows (session.query sql values)
  | .raw sql values => replyWith .rows (session.raw sql values)
  | .insert rows => replyWith (fun n : Nat => .number n) (session.insert rows)
  | .insertGetId row => replyWith (fun n : Nat => .number n) (session.insertGetId row)
  | .update row => replyWith (fun n : Nat => .number n) (session.update row)
  | .delete => replyWith (fun n : Nat => .number n) session.delete
  | .count column? => replyWith .number (session.count column?)
  | .aggregate function column => replyWith .value (session.aggregate function (some column))
  | .hasRows => replyWith .truth session.hasRows
  | .begin => replyWith (fun _ => .done) session.begin
  | .commit => replyWith (fun _ => .done) session.commit
  | .rollback => replyWith (fun _ => .done) session.rollback
  | .enableLog => (.ok .done, session.enableLog)
  | .log => (.ok (.entries (session.log.getD [])), session)
  | .takeLog => (.ok (.entries (session.log.getD [])), session.disableLog)
  | .counters =>
    (.ok (.counters (Connection.rowCount session.connection)
      (Connection.columnCount session.connection) (Connection.lastInsertId session.connection)),
      session)

structure Progress (C : Type) where
  result : Except Error Reply
  session : Session C
  reports : List Report

def Progress.settle (progress : Progress C) : SessionOutcome C :=
  let (result, session) := progress.session.settle progress.result
  ⟨result, session, progress.reports⟩

mutual

def SessionCall.run : SessionCall C → Session C → SessionOutcome C
  | .statement call, session =>
    let outcome := call.run session.statement
    ⟨outcome.result, { session with statement := outcome.statement }, outcome.inner⟩
  | .operation action, session =>
    let (result, session) := action.run session
    ⟨result, session, []⟩
  | .transaction calls, session =>
    match session.begin with
    | (.error error, session) => ⟨.error error, session, []⟩
    | (.ok (), session) => (SessionCall.runAll calls session).settle
  | .useConnection use, session =>
    ⟨.ok .done, { session with connection := use session.connection }, []⟩
  | .attempt call, session =>
    let outcome := call.run session
    ⟨.ok (.ofAttempt outcome.result), outcome.session, outcome.inner⟩

def SessionCall.runAll : List (SessionCall C) → Session C → Progress C
  | [], session => ⟨.ok .done, session, []⟩
  | call :: rest, session =>
    let outcome := call.run session
    match outcome.result with
    | .error error => ⟨.error error, outcome.session, [⟨outcome.result, outcome.inner⟩]⟩
    | .ok _ =>
      let progress := SessionCall.runAll rest outcome.session
      ⟨progress.result, progress.session, ⟨outcome.result, outcome.inner⟩ :: progress.reports⟩

end

end SqlComposer
