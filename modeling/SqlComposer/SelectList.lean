import SqlComposer.Token

set_option autoImplicit false

namespace SqlComposer

inductive ColumnInput where
  | text (value : Text)
  | list (values : List Text)

def ColumnInput.entries : ColumnInput → List Text
  | .text value => Text.split ',' value
  | .list values => values

inductive SelectItem where
  | column (reference : Text)
  | fragment (value : Text)
  | aggregate (function : Aggregate) (reference name : Text)
deriving DecidableEq

namespace SelectItem

def tokens (scope : Scope) : SelectItem → List Token
  | .column reference => scope.column reference
  | .fragment value => [.fragment value]
  | .aggregate function reference name =>
    .word (.aggregate function) ::
      Token.parenthesised (if Reference.isWildcard reference then [.star] else scope.column reference) ++
      [.space, .word .AS, .space] ++ Reference.quoted scope.quote name

def listTokens (scope : Scope) (items : List SelectItem) : List Token :=
  if items.isEmpty then [.star] else Token.commaSeparated (items.map (tokens scope))

end SelectItem

end SqlComposer
