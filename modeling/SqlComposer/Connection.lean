import SqlComposer.Row

set_option autoImplicit false

namespace SqlComposer

/-- A connection answers with rows or with the driver's message. Caller supplied SQL goes the way of
any other unless the connection has a way of its own for it. The counters describe the last executed
statement. -/
class Connection (C : Type) where
  driver : C → Text
  execute : Text → List Value → C → Except Text (List Row) × C
  executeRaw : Text → List Value → C → Except Text (List Row) × C := execute
  begin : C → Except Text Unit × C
  commit : C → Except Text Unit × C
  rollback : C → Except Text Unit × C
  rowCount : C → Nat
  columnCount : C → Nat
  lastInsertId : C → Nat

end SqlComposer
