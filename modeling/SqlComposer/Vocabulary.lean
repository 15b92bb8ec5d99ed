import SqlComposer.Error
import SqlComposer.Text.Blank
import SqlComposer.Text.Letter

set_option autoImplicit false

namespace SqlComposer

inductive Comparison where
  | equal
  | unequal
  | bangEqual
  | greater
  | greaterEqual
  | less
  | lessEqual
  | like
deriving DecidableEq

namespace Comparison

def all : List Comparison :=
  [.equal, .unequal, .bangEqual, .greater, .greaterEqual, .less, .lessEqual, .like]

def sql : Comparison → Text
  | .equal => "="
  | .unequal => "<>"
  | .bangEqual => "!="
  | .greater => ">"
  | .greaterEqual => ">="
  | .less => "<"
  | .lessEqual => "<="
  | .like => "LIKE"

def read? (text : Text) : Option Comparison := all.find? fun comparison => comparison.sql == text

theorem read?_sql (comparison : Comparison) : read? comparison.sql = some comparison := by
  cases comparison <;> decide

def parse (method text : Text) : Except Error Comparison :=
  match read? text.upper with
  | some comparison => .ok comparison
  | none => .error (.invalidOperator method text)

def isSpelled (text : Text) : Bool := (read? text).isSome

end Comparison

inductive ComparisonInput where
  | text (value : Text)
  | typed (comparison : Comparison)

def ComparisonInput.toComparison (method : Text) : ComparisonInput → Except Error Comparison
  | .text value => Comparison.parse method value
  | .typed comparison => .ok comparison

-- What stands before every predicate but the first.
inductive Connective where
  | and
  | or
  | xor
deriving DecidableEq

namespace Connective

def sql : Connective → Text
  | .and => "AND"
  | .or => "OR"
  | .xor => "XOR"

def parse (method text : Text) : Except Error Connective :=
  match [Connective.and, .or, .xor].find? fun connective => connective.sql == text with
  | some connective => .ok connective
  | none => .error (.invalidLogic method text)

end Connective

inductive ConnectiveInput where
  | text (value : Text)
  | typed (connective : Connective)

def ConnectiveInput.toConnective (method : Text) : ConnectiveInput → Except Error Connective
  | .text value => Connective.parse method value
  | .typed connective => .ok connective

inductive Direction where
  | ascending
  | descending
deriving DecidableEq

namespace Direction

-- The first three characters decide, in any case of letters.
def parse (method text : Text) : Except Error Direction :=
  let start := (text.take 3).map Char.toLower
  if start = "asc" then .ok .ascending
  else if start = "dsc" ∨ start = "des" then .ok .descending
  else .error (.invalidDirection method text)

def parseOptional (method : Text) : Option Text → Except Error Direction
  | some text => parse method text
  | none => .ok .ascending

end Direction

inductive JoinKind where
  | plain
  | inner
  | outer
  | left
  | right
  | full
  | self
  | cross
deriving DecidableEq

-- An unknown name gives a plain join.
def JoinKind.parse (text : Text) : JoinKind :=
  let names : List (Text × JoinKind) :=
    [("INNER", .inner), ("OUTER", .outer), ("LEFT", .left), ("RIGHT", .right), ("FULL", .full),
      ("SELF", .self), ("CROSS", .cross)]
  (names.lookup text.trim.upper).getD .plain

inductive DatePart where
  | time
  | hour
  | minute
  | date
  | day
  | month
  | year
  | week
  | weekday
  | quarter
deriving DecidableEq

namespace DatePart

def sql : DatePart → Text
  | .time => "TIME"
  | .hour => "HOUR"
  | .minute => "MINUTE"
  | .date => "DATE"
  | .day => "DAY"
  | .month => "MONTH"
  | .year => "YEAR"
  | .week => "WEEK"
  | .weekday => "WEEKDAY"
  | .quarter => "QUARTER"

def method (part : DatePart) : Text := "where_" ++ part.sql.map Char.toLower

end DatePart

inductive Aggregate where
  | avg
  | count
  | max
  | min
  | sum
deriving DecidableEq

namespace Aggregate

def name : Aggregate → Text
  | .avg => "avg"
  | .count => "count"
  | .max => "max"
  | .min => "min"
  | .sum => "sum"

def sql (aggregate : Aggregate) : Text := aggregate.name.map Char.toUpper

end Aggregate

end SqlComposer
