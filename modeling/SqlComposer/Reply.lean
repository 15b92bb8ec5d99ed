import SqlComposer.Error
import SqlComposer.LogEntry
import SqlComposer.Row

set_option autoImplicit false

namespace SqlComposer

inductive Reply where
  | done
  | text (value : Text)
  | values (values : List Value)
  | compiled (sql : Text) (values : List Value)
  | flags (flags : List Bool)
  | failed (error : Error)
  | rows (rows : List Row)
  | row (row : Option Row)
  | value (value : Option Value)
  | number (value : Int)
  | truth (value : Bool)
  | entries (entries : List LogEntry)
  | counters (rows columns insertId : Nat)

def Reply.ofAttempt : Except Error Reply → Reply
  | .ok reply => reply
  | .error error => .failed error

structure Report where
  result : Except Error Reply
  inner : List Report

end SqlComposer
