import Mathlib.Control.Monad.Basic
import SqlComposer.Connection.Scripted
import SqlComposer.Proofs.Operations
import SqlComposer.Proofs.Recording

set_option autoImplicit false

namespace SqlComposer

namespace Operation

def completes : Operation → Bool
  | .get | .getOne | .insert _ | .insertGetId _ | .update _ | .delete | .count _ | .aggregate ..
  | .hasRows => true
  | _ => false

-- The clause that a method adds by itself.
def clause? : Operation → Option Edit
  | .getOne => some (.limit (.integer 1))
  | .insert rows => some (.insert rows)
  | .insertGetId row => some (.insert (.one row))
  | .update row => some (.update row)
  | .delete => some .delete
  | .count column? => some (.aggregate .count column? none)
  | .aggregate function column => some (.aggregate function (some column) none)
  | .hasRows => some (.aggregate .count none none)
  | _ => none

def complete (operation : Operation) (s : Statement) : Except Error Unit × Statement :=
  match operation.clause? with
  | some clause => clause.run s
  | none => (.ok (), s)

def text (operation : Operation) (s : Statement) : Except Error Text := do
  (operation.complete s).1
  (operation.complete s).2.sql

end Operation

variable {C : Type} [Connection C] {A B : Type}

theorem map_comp {D : Type} (f : A → B) (g : B → D) (result : Except Error A) :
    (result.map f).map g = result.map fun a => g (f a) := by
  cases result <;> rfl

/-- Just one call reached the connection. Where the driver failed, the answer has its message and the
session is left with one statement, otherwise with another. -/
inductive Sent (session : Session (Recorded C)) (arrival : Arrival) (failed done : Statement) :
    Except Error A × Session (Recorded C) → Prop where
  | failed {after : Session (Recorded C)} (message : Text)
    (received : after.receipts = session.receipts ++ [⟨arrival, some message⟩])
    (statement : after.statement = failed) (depth : after.depth = session.depth) :
    Sent session arrival failed done (.error (.execution arrival.sql message), after)
  | done {after : Session (Recorded C)} (a : A)
    (received : after.receipts = session.receipts ++ [⟨arrival, none⟩])
    (statement : after.statement = done) (depth : after.depth = session.depth) :
    Sent session arrival failed done (.ok a, after)

namespace Sent

variable {session : Session (Recorded C)} {arrival : Arrival} {failed done : Statement}

omit [Connection C] in
theorem answering {answered : Except Error A × Session (Recorded C)}
    (sent : Sent session arrival failed done answered) (reply : A → Session (Recorded C) → B) :
    Sent session arrival failed done
      (answered.1.map fun a => reply a answered.2, answered.2) := by
  cases sent with
  | failed message received statement depth => exact .failed message received statement depth
  | done a received statement depth => exact .done (reply a _) received statement depth

end Sent

namespace Session

variable (session : Session (Recorded C))

theorem send_sent (raw : Bool) (sql : Text) (values : List Value) :
    Sent session ⟨if raw then .executeRaw else .execute, sql, values⟩ session.statement
      session.statement (session.send raw sql values) := by
  -- Both ways of executing are received alike.
  obtain ⟨act, received⟩ : ∃ act : C → Except Text (List Row) × C,
      (if raw then Connection.executeRaw sql values session.connection
        else Connection.execute sql values session.connection) =
      Recorded.receive ⟨if raw then .executeRaw else .execute, sql, values⟩ act
        session.connection := by
    cases raw
    · exact ⟨Connection.execute sql values, rfl⟩
    · exact ⟨Connection.executeRaw sql values, rfl⟩
  unfold send
  rw [received]
  rcases acted : act session.connection.connection with ⟨message | rows, connection⟩
  · simp only [Recorded.receive, acted]
    exact .failed message rfl rfl rfl
  · simp only [Recorded.receive, acted]
    exact .done rows rfl rfl rfl

theorem execute_sent {s : Statement} {sql : Text} (compiles : s.sql = .ok sql) :
    Sent session ⟨.execute, sql, s.values⟩ s.compiled s.reset
      { session with statement := s }.execute := by
  have sent := send_sent { session with statement := s.compiled } false sql s.values
  simp only [execute, compiles]
  generalize { session with statement := s.compiled }.send false sql s.values = answered at sent ⊢
  cases sent with
  | failed message received statement depth => exact .failed message received statement depth
  | done rows received statement depth =>
    exact .done rows received (by rw [statement]; rfl) depth

theorem query_sent (sql : Text) (values : List Value) :
    Sent session ⟨.execute, sql, values⟩ session.statement session.statement.reset
      (session.query sql values) := by
  have sent := session.send_sent false sql values
  unfold query
  generalize session.send false sql values = answered at sent ⊢
  cases sent with
  | failed message received statement depth => exact .failed message received statement depth
  | done rows received statement depth =>
    exact .done rows received (by rw [statement]) depth

def perform (operation : Operation) (session : Session C) :
    Except Error (List Row) × Session C :=
  match operation.clause? with
  | some clause => session.finish clause
  | none => session.execute

theorem perform_eq (operation : Operation) (session : Session C) :
    session.perform operation = match operation.complete session.statement with
      | (.error error, statement) => (.error error, { session with statement })
      | (.ok (), statement) => { session with statement }.execute := by
  unfold perform Operation.complete
  cases operation.clause? <;> rfl

end Session

def Aggregate.valueIn (function : Aggregate) (rows : List Row) : Option Value :=
  (rows.head?.bind fun row => row.get? function.name).filter fun value => !value.isNull

def countIn (rows : List Row) : Int :=
  ((Aggregate.count.valueIn rows).bind Value.toInteger?).getD 0

namespace Operation

-- What a method that completes the statement answers. The counters are read behind the execution.
def reply (operation : Operation) (rows : List Row) (after : Session C) : Reply :=
  match operation with
  | .get => .rows rows
  | .getOne => .row rows.head?
  | .insert _ | .update _ | .delete => .number (Connection.rowCount after.connection)
  | .insertGetId _ => .number (Connection.lastInsertId after.connection)
  | .count _ => .number (countIn rows)
  | .aggregate function _ => .value (function.valueIn rows)
  | .hasRows => .truth (decide (0 < countIn rows))
  | _ => .done

variable {operation : Operation}

theorem run_eq_perform (completes : operation.completes) (session : Session C) :
    operation.run session =
      ((session.perform operation).1.map fun rows => operation.reply rows (session.perform operation).2,
        (session.perform operation).2) := by
  cases operation with
  | get => rfl
  | getOne => simp only [run, replyWith, Session.getOne, Session.perform, clause?, map_comp, reply]
  | insert | update | delete | insertGetId =>
    simp only [run, replyWith, Session.insert, Session.update, Session.delete, Session.insertGetId,
      Session.finishCounting, Session.perform, clause?, map_comp, reply]
  | count | aggregate =>
    simp only [run, replyWith, Session.count, Session.aggregate, Session.perform, clause?, map_comp,
      reply, countIn, Aggregate.valueIn]
  | hasRows =>
    simp only [run, replyWith, Session.hasRows, Session.count, Session.aggregate, Session.perform,
      clause?, map_comp]
    rfl
  | query | raw | begin | commit | rollback | enableLog | log | takeLog | counters => cases completes

theorem run_refused (completes : operation.completes) {session : Session C} {error : Error}
    (refused : operation.text session.statement = .error error) :
    operation.run session =
      (.error error, { session with statement := (operation.complete session.statement).2 }) := by
  rw [run_eq_perform completes, session.perform_eq]
  unfold text at refused
  rcases added : operation.complete session.statement with ⟨reason | _, s⟩ <;> rw [added] at refused
  · cases refused
    rfl
  · have uncompiled : s.sql = .error error := refused
    simp [Session.execute, uncompiled, Except.map]

theorem run_sent (completes : operation.completes) (session : Session (Recorded C)) {sql : Text}
    (ready : operation.text session.statement = .ok sql) :
    Sent session ⟨.execute, sql, (operation.complete session.statement).2.values⟩
      (operation.complete session.statement).2.compiled
      (operation.complete session.statement).2.reset (operation.run session) := by
  obtain ⟨accepted, compiles⟩ := then_eq_ok.1 ready
  rw [run_eq_perform completes, session.perform_eq]
  rcases added : operation.complete session.statement with ⟨reason | _, s⟩ <;>
    rw [added] at accepted compiles
  · cases accepted
  · exact (session.execute_sent compiles).answering operation.reply

end Operation

/-- Every method that completes the statement sends one call with the completed statement's own text
and values, and none where the clause is refused or the statement does not compile. Only success
starts the next statement; where the driver fails, the completed statement is left as compiled. -/
theorem methods_send (session : Session (Recorded C)) :
    (∀ operation : Operation,
      operation.run session.unrecorded = unrecord (operation.run session)) ∧
    (∀ operation : Operation, operation.completes →
      let completed := (operation.complete session.statement).2
      match operation.text session.statement with
      | .error error => operation.run session = (.error error, { session with statement := completed })
      | .ok sql =>
        Sent session ⟨.execute, sql, completed.values⟩ { completed with stage := .compiled }
          { Statement.new completed.settings with
            table := if completed.settings.retainTable then completed.table else none }
          (operation.run session)) ∧
    ∀ (sql : Text) (values : List Value),
      Sent session ⟨.execute, sql, values⟩ session.statement
        { Statement.new session.statement.settings with
          table := if session.statement.settings.retainTable then session.statement.table else none }
        ((Operation.query sql values).run session) ∧
      Sent session ⟨.executeRaw, sql, values⟩ session.statement session.statement
        ((Operation.raw sql values).run session) := by
  refine ⟨fun operation => operation.run_unrecorded session, fun operation completes => ?_,
    fun sql values => ⟨?_, ?_⟩⟩
  · dsimp only
    split
    · next refused => exact Operation.run_refused completes refused
    · next ready => exact Operation.run_sent completes session ready
  · exact (session.query_sent sql values).answering fun rows _ => Reply.rows rows
  · exact (session.send_sent true sql values).answering fun rows _ => Reply.rows rows

-- The driver refuses the one row, which leaves the statement compiled.
theorem methods_send_locked :
    let driver : Scripted := { driver := "mysql", ownRaw := true, failures := [(.execute, "locked")] }
    let s := Call.runAll [.edit (.fromTable "a"), .edit .distinct] (.new { retainTable := true })
    let session : Session (Recorded Scripted) := ⟨{ connection := driver }, s, 3, none⟩
    let completed := (Operation.getOne.complete s).2
    let text : Text := "SELECT DISTINCT * FROM \x60a\x60 LIMIT 1"
    Operation.getOne.completes ∧ Operation.getOne.text s = .ok text ∧
      (Operation.getOne.run session).2.receipts.map Receipt.failure = [some ("locked" : Text)] ∧
      Sent session ⟨.execute, text, []⟩ { completed with stage := .compiled }
        { Statement.new completed.settings with table := some "a" } (Operation.getOne.run session) := by
  intro driver s session completed text
  have ready : Operation.getOne.text s = .ok text := by decide +kernel
  have sent := (methods_send session).2.1 .getOne rfl
  rw [show Operation.getOne.text session.statement = .ok text from ready] at sent
  exact ⟨rfl, ready, by decide +kernel, sent⟩

end SqlComposer
