import SqlComposer.Token

set_option autoImplicit false

namespace SqlComposer

structure Join where
  kind : JoinKind
  table : Text
  left : Text
  comparison : Comparison
  right : Text
deriving DecidableEq

namespace Join

def tokens (scope : Scope) (join : Join) : List Token :=
  Token.words join.kind.words ++ .space :: Reference.quoted scope.quote join.table ++
    [.space, .word .ON, .space] ++ scope.column join.left ++ join.comparison.tokens ++
    scope.columnOf (Reference.tableName join.table) join.right

-- Each join follows a space on a line of its own, the first on the line of the table.
def listTokens (scope : Scope) (joins : List Join) : List Token :=
  [Token.newline].intercalate (joins.map fun join => .space :: join.tokens scope)

end Join

end SqlComposer
