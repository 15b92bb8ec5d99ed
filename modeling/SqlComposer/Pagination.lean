import SqlComposer.Token

set_option autoImplicit false

namespace SqlComposer

inductive CountInput where
  | text (value : Text)
  | integer (value : Int)

namespace CountInput

def toText : CountInput → Text
  | .text value => value
  | .integer value => decimalInt value

def toCount (method : Text) (input : CountInput) : Except Error Nat :=
  if input.toText.all Char.isDigit then .ok (Nat.ofDigitChars 10 input.toText 0)
  else .error (.invalidArgument method (.notCount input.toText))

end CountInput

structure Pagination where
  limit : Nat := 0
  offset : Nat := 0
deriving DecidableEq

namespace Pagination

def paginate (pagination : Pagination) (page perPage : UInt64) : Except Error Pagination :=
  let offset := (page.toNat - 1) * perPage.toNat
  if page.toNat ≤ 1 then .ok { pagination with limit := perPage.toNat }
  else if offset < UInt64.size then .ok ⟨perPage.toNat, offset⟩
  else .error (.invalidArgument "paginate" .pageOverflow)

def validate (pagination : Pagination) : Except Error Unit :=
  if pagination.limit = 0 ∧ pagination.offset ≠ 0 then
    .error (.invalidArgument "offset" .offsetWithoutLimit)
  else .ok ()

def tokens (separator : Token) (pagination : Pagination) : List Token :=
  if pagination.limit = 0 then []
  else
    [separator, .word .LIMIT, .space, .number pagination.limit] ++
      if pagination.offset = 0 then []
      else [.space, .word .OFFSET, .space, .number pagination.offset]

end Pagination

end SqlComposer
