import SqlComposer.Pagination

set_option autoImplicit false

/-!
Limits and offsets as the digits they were given. They are never read as numbers: they are tested for zeros,
and cut to be written.
-/

namespace SqlComposer

structure Count where
  digits : Text
  numeric : digits.all Char.isDigit = true
deriving DecidableEq

namespace Count

-- No digits at all are a zero too.
def unset : Count := ⟨[], rfl⟩

def parse (method value : Text) : Except Error Count :=
  if numeric : value.all Char.isDigit = true then .ok ⟨value, numeric⟩
  else .error (.invalidArgument method (.notCount value))

def ofNat (n : Nat) : Count where
  digits := decimal n
  numeric := List.all_eq_true.2 fun _ member => Nat.isDigit_of_mem_toDigits (by decide) (by decide) member

def isZero (count : Count) : Bool := count.digits.all (· == '0')

def text (count : Count) : Text :=
  match count.digits.dropWhile (· == '0') with
  | [] => "0"
  | digits => digits

end Count

structure Counts where
  limit : Count := .unset
  offset : Count := .unset
deriving DecidableEq

namespace Counts

-- Behind the first page the offset is set before the limit.
def paginate (counts : Counts) (page perPage : UInt64) : Except Error Counts := do
  let counts ←
    if 1 < page.toNat then
      let offset := (page.toNat - 1) * perPage.toNat
      if offset < UInt64.size then .ok { counts with offset := .ofNat offset }
      else .error (.invalidArgument "paginate" .pageOverflow)
    else .ok counts
  .ok { counts with limit := .ofNat perPage.toNat }

def isEmpty (counts : Counts) : Bool := counts.limit.isZero && counts.offset.isZero

def validate (counts : Counts) : Except Error Unit :=
  if counts.limit.isZero && !counts.offset.isZero then
    .error (.invalidArgument "offset" .offsetWithoutLimit)
  else .ok ()

def write (counts : Counts) : Except Error Text := do
  counts.validate
  if counts.limit.isZero then .ok []
  else
    .ok (("LIMIT " : Text) ++ counts.limit.text ++
      if counts.offset.isZero then [] else (" OFFSET " : Text) ++ counts.offset.text)

def writeBehind (separator : Text) (counts : Counts) : Except Error Text := do
  counts.validate
  if counts.isEmpty then .ok []
  else
    let text ← counts.write
    .ok (separator ++ text)

end Counts

end SqlComposer
