import SqlComposer.Statement.Values
import SqlComposer.Statement.Write

set_option autoImplicit false

namespace SqlComposer

namespace Statement

def sql (s : Statement) : Except Error Text := s.write.textIn ⟨s.settings.quote, none⟩

def compiled (s : Statement) : Statement := { s with stage := .compiled }

/-- Replaces the first placeholders by the values, each between single quotes. A character of a
value is never taken for a placeholder. -/
def fill : List Value → Text → Text
  | value :: values, '?' :: rest => '\'' :: value.display ++ '\'' :: fill values rest
  | values, c :: rest => c :: fill values rest
  | _, [] => []

-- For diagnostics only: the values are not escaped.
def sqlWith (values : List Value) (s : Statement) : Except Error Text := s.sql.map (fill values)

def debugText (sql : Text) : Text := "\nQuery debug:\n" ++ sql ++ "\n"

def debug (halt : Bool) (sinkFailure : Option Text) (s : Statement) : Except Error Text := do
  let sql ← s.sqlWith s.values
  match sinkFailure with
  | some message => throw (.output message)
  | none => if halt then throw (.debugHalt sql) else return debugText sql

end Statement

end SqlComposer
