import SqlComposer.Connection.Arrival

set_option autoImplicit false

namespace SqlComposer

structure Scripted where
  driver : Text
  ownRaw : Bool
  results : List (List Row) := []
  failures : List (Action × Text) := []
  rowCount : Nat := 0
  columnCount : Nat := 0
  lastInsertId : Nat := 0
  arrivals : List Arrival := []

namespace Scripted

def takeFailure (action : Action) : List (Action × Text) → Option Text × List (Action × Text)
  | [] => (none, [])
  | (other, message) :: rest =>
    if other = action then (some message, rest)
    else
      let (taken, rest) := takeFailure action rest
      (taken, (other, message) :: rest)

def receive (arrival : Arrival) (c : Scripted) : Except Text Unit × Scripted :=
  let (failure, failures) := takeFailure arrival.action c.failures
  let c := { c with arrivals := c.arrivals ++ [arrival], failures }
  match failure with
  | some message => (.error message, c)
  | none => (.ok (), c)

-- The next result answers a statement, and no rows when there is none.
def answer (arrival : Arrival) (c : Scripted) : Except Text (List Row) × Scripted :=
  match c.receive arrival with
  | (.error message, c) => (.error message, c)
  | (.ok (), c) =>
    match c.results with
    | [] => (.ok [], c)
    | rows :: rest => (.ok rows, { c with results := rest })

instance : Connection Scripted where
  driver c := c.driver
  execute sql values c := c.answer ⟨.execute, sql, values⟩
  executeRaw sql values c := c.answer ⟨if c.ownRaw then .executeRaw else .execute, sql, values⟩
  begin c := c.receive { action := .begin }
  commit c := c.receive { action := .commit }
  rollback c := c.receive { action := .rollback }
  rowCount c := c.rowCount
  columnCount c := c.columnCount
  lastInsertId c := c.lastInsertId

end Scripted

end SqlComposer
