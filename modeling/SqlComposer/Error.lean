import SqlComposer.Text

set_option autoImplicit false

namespace SqlComposer

inductive Fault where
  | noColumns
  | noRows
  | noValues
  | noStatements
  | unequalColumns
  | noFields
  | unserializable (reason : Text)
  | placeholderCount (expected given : Nat)
  | notCount (value : Text)
  | pageOverflow
  | offsetWithoutLimit
  | listWithDirection
  | joinWithoutTable
  | noTable
  | longReferenceChar
  | longQuote
  | unknownQuote
  | noTransaction
deriving DecidableEq

-- The caller's method is named where it refused its input.
inductive Error where
  | invalidReference (method value : Text)
  | invalidOperator (method value : Text)
  | invalidLogic (method value : Text)
  | invalidDirection (method value : Text)
  | invalidArgument (method : Text) (fault : Fault)
  | conflictingKind (method previous : Text)
  | debugHalt (sql : Text)
  | unsupportedDriver (name : Text)
  | execution (sql message : Text)
  | output (message : Text)
deriving DecidableEq

def Fault.message (method : Text) : Fault → Text
  | .noColumns => "requires at least one column"
  | .noRows => "requires at least one row"
  | .noValues => "requires at least one value"
  | .noStatements => "requires at least one statement"
  | .unequalColumns => "Cannot get column names, ensure the provided columns are consistent"
  | .noFields => "cannot insert non associative data, pass a struct or key=>value map"
  | .unserializable reason => reason
  | .placeholderCount expected given =>
    "the fragment has " ++ decimal expected ++ " placeholders but " ++ decimal given ++
      " values were bound"
  | .notCount value =>
    "Supplied argument to " ++ method ++ "() must be a positive integer, got '" ++ value ++ "'"
  | .pageOverflow => "page and per_page overflow the offset"
  | .offsetWithoutLimit => "Cannot set OFFSET without LIMIT, please set limit() to use offset()"
  | .listWithDirection =>
    "Cannot use a comma separated list of references and pass direction argument"
  | .joinWithoutTable =>
    "The join() method requires the parent table to be set using the from() or table() methods"
  | .noTable =>
    "Cannot construct query without a table name, please set using the from() or table() methods"
  | .longReferenceChar =>
    "only accepts an Array of single chars, a longer string was provided"
  | .longQuote => "only accepts a single character"
  | .unknownQuote => "only accepts a back-quote or double quote character"
  | .noTransaction => "no transaction is open"

namespace Error

def message : Error → Text
  | .invalidReference method value =>
    method ++ "() cannot use reference '" ++ value ++ "', it contains invalid characters"
  | .invalidOperator method value =>
    method ++ "() cannot use operator '" ++ value ++
      "', it must be one of: = <> != > >= < <= LIKE"
  | .invalidLogic method value =>
    "The " ++ method ++ "() logic must be one of: AND OR XOR, got '" ++ value ++ "'"
  | .invalidDirection method value =>
    "Cannot set unknown sort direction " ++ value ++ " in " ++ method ++ "()"
  | .invalidArgument method fault => method ++ "(): " ++ fault.message method
  | .conflictingKind method previous =>
    "Cannot mix query types, " ++ method ++ "() called but " ++ previous ++
      "() was called previously"
  | .debugHalt sql => "Query debug halt:\n" ++ sql
  | .unsupportedDriver name => "Unsupported driver " ++ name
  | .execution sql message => "Cannot execute query '" ++ sql ++ "', " ++ message
  | .output message => message

def method? : Error → Option Text
  | .invalidReference method _ | .invalidOperator method _ | .invalidLogic method _
  | .invalidDirection method _ | .invalidArgument method _ | .conflictingKind method _ => some method
  | _ => none

def isInvalidInput : Error → Bool
  | .invalidReference .. | .invalidOperator .. | .invalidLogic .. | .invalidDirection ..
  | .invalidArgument .. => true
  | _ => false

def isConflictingKind : Error → Bool
  | .conflictingKind .. => true
  | _ => false

def isDebugHalt : Error → Bool
  | .debugHalt .. => true
  | _ => false

def isExecution : Error → Bool
  | .execution .. => true
  | _ => false

end Error

end SqlComposer
