import SqlComposer.Connection.Arrival

set_option autoImplicit false

namespace SqlComposer

-- The failure is the driver's message.
structure Receipt where
  arrival : Arrival
  failure : Option Text

structure Recorded (C : Type) where
  connection : C
  receipts : List Receipt := []

namespace Recorded

def failure {A : Type} : Except Text A → Option Text
  | .ok _ => none
  | .error message => some message

variable {C : Type} [Connection C]

def receive {A : Type} (arrival : Arrival) (act : C → Except Text A × C) (c : Recorded C) :
    Except Text A × Recorded C :=
  let (answer, connection) := act c.connection
  (answer, ⟨connection, c.receipts ++ [⟨arrival, failure answer⟩]⟩)

instance : Connection (Recorded C) where
  driver c := Connection.driver c.connection
  execute sql values := receive ⟨.execute, sql, values⟩ (Connection.execute sql values)
  executeRaw sql values := receive ⟨.executeRaw, sql, values⟩ (Connection.executeRaw sql values)
  begin := receive { action := .begin } Connection.begin
  commit := receive { action := .commit } Connection.commit
  rollback := receive { action := .rollback } Connection.rollback
  rowCount c := Connection.rowCount c.connection
  columnCount c := Connection.columnCount c.connection
  lastInsertId c := Connection.lastInsertId c.connection

end Recorded

end SqlComposer
