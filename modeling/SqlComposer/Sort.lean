import SqlComposer.Keyed
import SqlComposer.Token

set_option autoImplicit false

namespace SqlComposer

inductive SortEntry where
  | column (reference : Text) (direction : Direction)
  | random
deriving DecidableEq

namespace SortEntry

def put (reference : Text) (direction : Direction) : List SortEntry → List SortEntry
  | [] => [.column reference direction]
  | .column other old :: rest =>
    if other = reference then .column other direction :: rest
    else .column other old :: put reference direction rest
  | .random :: rest => .random :: put reference direction rest

def putAll (pairs : List (Text × Direction)) (entries : List SortEntry) : List SortEntry :=
  pairs.foldl (fun entries (reference, direction) => put reference direction entries) entries

def tokens (scope : Scope) : SortEntry → List Token
  | .column reference .ascending => scope.column reference
  | .column reference .descending => scope.column reference ++ [.space, .word .DESC]
  | .random => [.word .RAND, .leftParen, .rightParen]

end SortEntry

inductive SortInput where
  | text (value : Text)
  | tokens (values : List Text)
  | pairs (values : List (Text × Text))

namespace SortInput

def ofMap (pairs : List (Text × Text)) : SortInput := .pairs (Keyed.ofList pairs)

def parseToken (settings : Settings) (method token : Text) : Except Error (Text × Direction) := do
  let (column, direction?) := Text.splitFirst ' ' token.trim
  Reference.validate settings method column
  let direction ← Direction.parseOptional method (direction?.map Text.trim)
  return (column, direction)

def parsePair (settings : Settings) (method : Text) : Text × Text → Except Error (Text × Direction)
  | (column, direction) => do
    let column ← Reference.check settings method column
    let direction ← Direction.parse method direction
    return (column, direction)

def parseList {A : Type} (method : Text) (direction? : Option Text)
    (parse : A → Except Error (Text × Direction)) (items : List A) :
    Except Error (List (Text × Direction)) :=
  if direction?.isSome then .error (.invalidArgument method .listWithDirection)
  else items.mapM parse

def normalize (settings : Settings) (method : Text) (direction? : Option Text) :
    SortInput → Except Error (List (Text × Direction))
  | .text value =>
    if value.contains ',' then
      parseList method direction? (parseToken settings method) (Text.split ',' value)
    else do
      let column := value.trim
      Reference.validate settings method column
      let direction ← Direction.parseOptional method direction?
      return [(column, direction)]
  | .tokens values => parseList method direction? (parseToken settings method) values
  | .pairs values => parseList method direction? (parsePair settings method) values

end SortInput

end SqlComposer
