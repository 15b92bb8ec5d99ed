import SqlComposer.Connection

set_option autoImplicit false

namespace SqlComposer

inductive Action where
  | execute
  | executeRaw
  | begin
  | commit
  | rollback
deriving DecidableEq

structure Arrival where
  action : Action
  sql : Text := []
  values : List Value := []

end SqlComposer
