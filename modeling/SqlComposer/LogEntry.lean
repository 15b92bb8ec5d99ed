import SqlComposer.Value

set_option autoImplicit false

namespace SqlComposer

structure LogEntry where
  sql : Text
  values : List Value
  failure : Option Text

def LogEntry.display (entry : LogEntry) : Text :=
  let values := entry.values.map fun value => '\'' :: value.display ++ ['\'']
  let failure := match entry.failure with
    | some message => "\nerror: " ++ message
    | none => []
  entry.sql ++ "\n[" ++ List.intercalate ", " values ++ "]" ++ failure

end SqlComposer
