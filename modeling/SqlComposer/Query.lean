import SqlComposer.Reply
import SqlComposer.Statement.Compile

set_option autoImplicit false

namespace SqlComposer

inductive Query where
  | toSql
  | params
  | compile
  | toSqlWith (values : List Value)
  | debug (halt : Bool) (sinkFailure : Option Text)
  | quoteChar
  | allows (text : Text)

namespace Query

def answer (query : Query) (s : Statement) : Except Error Reply :=
  match query with
  | .toSql => s.sql.map .text
  | .params => .ok (.values s.values)
  | .compile => s.sql.map fun sql => .compiled sql s.values
  | .toSqlWith values => (s.sqlWith values).map .text
  | .debug halt sinkFailure => (s.debug halt sinkFailure).map .text
  | .quoteChar => .ok (.text [s.settings.quote.char])
  | .allows text => .ok (.flags (text.map s.settings.allows))

def compiles : Query → Bool
  | .toSql | .compile => true
  | _ => false

def run (query : Query) (s : Statement) : Except Error Reply × Statement :=
  match query.answer s with
  | .ok reply => (.ok reply, if query.compiles then s.compiled else s)
  | .error error => (.error error, s)

end Query

end SqlComposer
