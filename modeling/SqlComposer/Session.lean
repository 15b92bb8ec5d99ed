import SqlComposer.Connection
import SqlComposer.Edit
import SqlComposer.LogEntry
import SqlComposer.Statement.Compile

set_option autoImplicit false

/-!
A session pairs a connection with the statement that is composed for it. Executing a statement
compiles it, hands it over and starts the next one; transactions nest, and only the outermost one
reaches the connection. Every function returns the session also where it fails.
-/

namespace SqlComposer

-- There is a log only while logging is on.
structure Session (C : Type) where
  connection : C
  statement : Statement
  depth : Nat
  log : Option (List LogEntry)

namespace Session

variable {C : Type} [Connection C]

def new (settings? : Option Settings) (connection : C) : Except Error (Session C) := do
  let dialect ← Dialect.ofDriver (Connection.driver connection)
  let settings := { settings?.getD {} with quote := dialect.quote }
  return ⟨connection, .new settings, 0, none⟩

def send (raw : Bool) (sql : Text) (values : List Value) (session : Session C) :
    Except Error (List Row) × Session C :=
  let (answer, connection) :=
    if raw then Connection.executeRaw sql values session.connection
    else Connection.execute sql values session.connection
  let failure := match answer with
    | .ok _ => none
    | .error message => some message
  (answer.mapError (Error.execution sql),
    { session with connection, log := session.log.map (· ++ [⟨sql, values, failure⟩]) })

def execute (session : Session C) : Except Error (List Row) × Session C :=
  match session.statement.sql with
  | .error error => (.error error, session)
  | .ok sql =>
    let (answer, session) :=
      { session with statement := session.statement.compiled }.send false sql session.statement.values
    match answer with
    | .ok rows => (.ok rows, { session with statement := session.statement.reset })
    | .error error => (.error error, session)

def finish (edit : Edit) (session : Session C) : Except Error (List Row) × Session C :=
  match edit.run session.statement with
  | (.error error, statement) => (.error error, { session with statement })
  | (.ok (), statement) => { session with statement }.execute

def getOne (session : Session C) : Except Error (Option Row) × Session C :=
  let (answer, session) := session.finish (.limit (.integer 1))
  (answer.map List.head?, session)

def query (sql : Text) (values : List Value) (session : Session C) :
    Except Error (List Row) × Session C :=
  match session.send false sql values with
  | (.ok rows, session) => (.ok rows, { session with statement := session.statement.reset })
  | (.error error, session) => (.error error, session)

-- Sends the caller's SQL and leaves the statement alone.
def raw (sql : Text) (values : List Value) (session : Session C) :
    Except Error (List Row) × Session C :=
  session.send true sql values

def finishCounting (counter : C → Nat) (edit : Edit) (session : Session C) :
    Except Error Nat × Session C :=
  let (answer, session) := session.finish edit
  (answer.map fun _ => counter session.connection, session)

def insert (rows : RowsInput) (session : Session C) : Except Error Nat × Session C :=
  session.finishCounting Connection.rowCount (.insert rows)

def insertGetId (row : RowInput) (session : Session C) : Except Error Nat × Session C :=
  session.finishCounting Connection.lastInsertId (.insert (.one row))

def update (row : RowInput) (session : Session C) : Except Error Nat × Session C :=
  session.finishCounting Connection.rowCount (.update row)

def delete (session : Session C) : Except Error Nat × Session C :=
  session.finishCounting Connection.rowCount .delete

def aggregate (function : Aggregate) (column? : Option Text) (session : Session C) :
    Except Error (Option Value) × Session C :=
  let (answer, session) := session.finish (.aggregate function column? none)
  (answer.map fun rows =>
    (rows.head?.bind fun row => row.get? function.name).filter fun value => !value.isNull, session)

-- An answer that is no integer counts as zero.
def count (column? : Option Text) (session : Session C) : Except Error Int × Session C :=
  let (answer, session) := session.aggregate .count column?
  (answer.map fun value? => (value?.bind Value.toInteger?).getD 0, session)

def hasRows (session : Session C) : Except Error Bool × Session C :=
  let (answer, session) := session.count none
  (answer.map fun count => decide (0 < count), session)

def begin (session : Session C) : Except Error Unit × Session C :=
  if session.depth = 0 then
    match Connection.begin session.connection with
    | (.ok (), connection) => (.ok (), { session with connection, depth := 1 })
    | (.error message, connection) =>
      (.error (.execution "BEGIN" message), { session with connection })
  else (.ok (), { session with depth := session.depth + 1 })

def close (method word : Text) (act : C → Except Text Unit × C) (session : Session C) :
    Except Error Unit × Session C :=
  match session.depth with
  | 0 => (.error (.invalidArgument method .noTransaction), session)
  | 1 =>
    match act session.connection with
    | (.ok (), connection) => (.ok (), { session with connection, depth := 0 })
    | (.error message, connection) => (.error (.execution word message), { session with connection })
  | depth + 1 => (.ok (), { session with depth })

def commit (session : Session C) : Except Error Unit × Session C :=
  session.close "commit" "COMMIT" Connection.commit

def rollback (session : Session C) : Except Error Unit × Session C :=
  session.close "rollback" "ROLLBACK" Connection.rollback

/-- Commits what succeeded. If it failed, or if the commit does, rolls back; the first error is the
answer also where that fails. -/
def settle {A : Type} (result : Except Error A) (session : Session C) : Except Error A × Session C :=
  match result with
  | .error error => (.error error, session.rollback.2)
  | .ok a =>
    match session.commit with
    | (.ok (), session) => (.ok a, session)
    | (.error error, session) => (.error error, session.rollback.2)

def transaction {A : Type} (body : Session C → Except Error A × Session C) (session : Session C) :
    Except Error A × Session C :=
  match session.begin with
  | (.error error, session) => (.error error, session)
  | (.ok (), session) =>
    let (result, session) := body session
    session.settle result

-- Logging that is on already loses nothing.
def enableLog (session : Session C) : Session C :=
  { session with log := some (session.log.getD []) }

def disableLog (session : Session C) : Session C := { session with log := none }

end Session

end SqlComposer
