import SqlComposer.Proofs.Execution
import SqlComposer.Proofs.Numerals
import SqlComposer.Proofs.Spelling
import SqlComposer.Value.Word

set_option autoImplicit false

namespace SqlComposer

/-! ### Words -/

theorem Value.inRange_eq (n : Int) :
    Value.inRange n = if -2 ^ 63 ≤ n ∧ n < 2 ^ 63 then some n else none := by
  have high : n ≤ maxInteger ↔ n < 2 ^ 63 := by unfold maxInteger; omega
  exact if_congr (and_congr_right fun _ => high) rfl rfl

theorem Value.inRange_toInt (word : Int64) : inRange word.toInt = some word.toInt := by
  rw [inRange_eq, if_pos ⟨word.le_toInt, word.toInt_lt⟩]

namespace Sign

variable (sign : Sign) (m n : Nat)

theorem apply_mul : sign.apply m * n = sign.apply (m * n) := by
  cases sign <;> simp [apply]

theorem apply_add : sign.apply m + sign.apply n = sign.apply (m + n) := by
  cases sign <;> simp [apply]; omega

end Sign

namespace Word

variable {sign : Sign} {m n : Nat} {word : Int64} {c : Char} {digits : Text}

theorem map_checked (n : Int) : (checked n).map Int64.toInt = Value.inRange n := by
  unfold checked
  rw [Value.inRange_eq]
  split
  · next fits => simp [Int64.toInt_ofInt_of_le fits.1 fits.2]
  · rfl

theorem checked_toInt (word : Int64) : checked word.toInt = some word := by
  rw [checked, Value.inRange_toInt, Option.map_some, Int64.ofInt_toInt]

theorem checked_eq_some {n : Int} (fits : checked n = some word) : word.toInt = n := by
  have read := map_checked n
  rw [fits, Value.inRange_eq] at read
  split at read
  · exact Option.some.inj read
  · cases read

theorem checked_eq_none (more : m ≤ n) (overflows : checked (sign.apply m) = none) :
    checked (sign.apply n) = none := by
  simp only [checked, Value.inRange_eq, Option.map_eq_none_iff, ite_eq_right_iff, reduceCtorEq, imp_false]
    at overflows ⊢
  cases sign <;> simp only [Sign.apply] at overflows ⊢ <;> omega

theorem push_eq (reads : word.toInt = sign.apply m) (numeric : c.isDigit = true) :
    push sign word c = checked (sign.apply (m * 10 + Text.digit c)) := by
  have tens : word.toInt * 10 = sign.apply (m * 10) := by rw [reads, ← Sign.apply_mul]; rfl
  rw [push, if_pos numeric, tens, ← Sign.apply_add]
  cases fits : checked (sign.apply (m * 10)) with
  | none =>
    rw [Sign.apply_add, checked_eq_none (Nat.le_add_right ..) fits]
    rfl
  | some word =>
    rw [← checked_eq_some fits]
    rfl

theorem foldlM_push (reads : word.toInt = sign.apply m) (numeric : digits.all Char.isDigit = true) :
    digits.foldlM (push sign) word = checked (sign.apply (m * 10 ^ digits.length + digits.value)) := by
  induction digits generalizing word m with
  | nil => simp [Text.value, ← reads, checked_toInt]
  | cons c rest ih =>
    rw [List.all_cons, Bool.and_eq_true] at numeric
    have value : m * 10 ^ (c :: rest).length + Text.value (c :: rest) =
        (m * 10 + Text.digit c) * 10 ^ rest.length + Text.value rest := by
      rw [Text.value, List.length_cons]
      ring
    rw [List.foldlM_cons, push_eq reads numeric.1, value]
    cases fits : checked (sign.apply (m * 10 + Text.digit c)) with
    | none =>
      -- The places that follow only add to what overflows already.
      have larger : m * 10 + Text.digit c ≤ (m * 10 + Text.digit c) * 10 ^ rest.length + Text.value rest :=
        (Nat.le_mul_of_pos_right _ (Nat.pow_pos (by decide))).trans (Nat.le_add_right ..)
      rw [checked_eq_none larger fits]
      rfl
    | some word => exact ih (checked_eq_some fits) numeric.2

theorem foldlM_push_of_other (other : digits.all Char.isDigit ≠ true) :
    digits.foldlM (push sign) word = none := by
  induction digits generalizing word with
  | nil => exact absurd rfl other
  | cons c rest ih =>
    rw [List.foldlM_cons]
    by_cases numeric : c.isDigit = true
    · have later : rest.all Char.isDigit ≠ true := by simpa [numeric] using other
      cases push sign word c with
      | none => rfl
      | some word => exact ih later
    · simp [push, numeric]

end Word

/-! ### Texts -/

def Text.IsInteger (text : Text) : Prop :=
  ∃ (sign : Sign) (digits : Text), text = sign.text ++ digits ∧ digits ≠ [] ∧ digits.all Char.isDigit = true

namespace Sign

variable {text digits : Text}

theorem read_text (text : Text) : text = (read text).1.text ++ (read text).2 := by
  unfold read
  split <;> rfl

theorem read_plain (minus : ∀ rest, text ≠ '-' :: rest) (plus : ∀ rest, text ≠ '+' :: rest) :
    read text = (.plain, text) := by
  unfold read
  split
  · next rest => exact absurd rfl (minus rest)
  · next rest => exact absurd rfl (plus rest)
  · rfl

theorem read_append (sign : Sign) (some : digits ≠ []) (numeric : digits.all Char.isDigit = true) :
    read (sign.text ++ digits) = (sign, digits) := by
  cases sign with
  | minus | plus => rfl
  | plain =>
    obtain ⟨c, rest, rfl⟩ := List.exists_cons_of_ne_nil some
    have first : c.isDigit = true := List.all_eq_true.1 numeric c (by simp)
    refine read_plain (fun rest same => ?_) fun rest same => ?_
    · exact absurd first (by simp [(List.cons.inj same).1])
    · exact absurd first (by simp [(List.cons.inj same).1])

end Sign

namespace Value

variable {text digits : Text}

theorem readDigits_eq (some : digits ≠ []) (numeric : digits.all Char.isDigit = true) :
    readDigits digits = .some digits.value := by
  simp [readDigits, some, numeric, Text.value_eq_ofDigitChars]

theorem readDigits_eq_none (other : ¬ (digits ≠ [] ∧ digits.all Char.isDigit = true)) :
    readDigits digits = none := by
  simp only [readDigits, ite_eq_left_iff, reduceCtorEq, imp_false, not_not]
  by_cases empty : digits = [] <;> simp_all

theorem readInteger_eq (text : Text) :
    readInteger text = (readDigits (Sign.read text).2).bind fun n => inRange ((Sign.read text).1.apply n) := by
  unfold readInteger
  split
  · rfl
  · rfl
  · next minus plus => rw [Sign.read_plain minus plus]; rfl

theorem readInteger_signed (sign : Sign) (some : digits ≠ []) (numeric : digits.all Char.isDigit = true) :
    readInteger (sign.text ++ digits) = inRange (sign.apply digits.value) := by
  rw [readInteger_eq, Sign.read_append sign some numeric, readDigits_eq some numeric, Option.bind_some]

theorem readInteger_eq_none (other : ¬ text.IsInteger) : readInteger text = none := by
  rw [readInteger_eq, readDigits_eq_none, Option.bind_none]
  exact fun digits => other ⟨_, _, Sign.read_text text, digits⟩

end Value

theorem Word.map_read (text : Text) : (read text).map Int64.toInt = Value.readInteger text := by
  rw [Value.readInteger_eq, read]
  rcases Sign.read text with ⟨sign, digits⟩
  by_cases some : digits = []
  · simp [some, Value.readDigits]
  by_cases numeric : digits.all Char.isDigit = true
  · have start : (0 : Int64).toInt = sign.apply 0 := by cases sign <;> rfl
    simp only [List.isEmpty_iff, some, if_false]
    rw [foldlM_push start numeric, map_checked, Value.readDigits_eq some numeric, Option.bind_some, Nat.zero_mul,
      Nat.zero_add]
  · simp [some, foldlM_push_of_other numeric, Value.readDigits_eq_none fun digits => numeric digits.2]

/-! ### Values -/

theorem Binary.truncate_fits {f : Format} (value : Binary f) :
    -2 ^ 63 ≤ value.truncate Value.minInteger Value.maxInteger ∧
      value.truncate Value.minInteger Value.maxInteger < 2 ^ 63 := by
  unfold truncate Value.minInteger Value.maxInteger
  cases value with
  | nan => simp
  | infinite negative => cases negative <;> simp
  | finite negative mantissa exponent => simp only; omega

theorem Word.toInt_toInt64 {word : UInt64} (fits : word.toNat < 2 ^ 63) : word.toInt64.toInt = word.toNat :=
  BitVec.toInt_eq_toNat_of_lt (show 2 * word.toNat < 2 ^ 64 by omega)

theorem Value.map_toWord? (value : Value) : value.toWord?.map Int64.toInt = value.toInteger? := by
  have top : Int64.maxValue.toUInt64.toNat = 2 ^ 63 - 1 := rfl
  cases value with
  | null | json => rfl
  | text value => exact Word.map_read value.trim
  | bool value => cases value <;> rfl
  | single value | double value =>
    have fits := Binary.truncate_fits value
    simp [toWord?, toInteger?, Int64.toInt_ofInt_of_le fits.1 fits.2]
  | int8 word | int16 word | int32 word => simp [toWord?, toInteger?]
  | int64 word => rfl
  | uint8 word | uint16 word | uint32 word =>
    have fits := word.toNat_lt
    have small : word.toUInt64.toNat < 2 ^ 63 := by simp; omega
    simp [toWord?, toInteger?, Word.toInt_toInt64 small]
  | uint64 word =>
    have bound : word ≤ Int64.maxValue.toUInt64 ↔ word.toNat < 2 ^ 63 := by
      rw [UInt64.le_iff_toNat_le, top]
      omega
    have positive : -2 ^ 63 ≤ (word.toNat : Int) := by omega
    have range : (word.toNat : Int) < 2 ^ 63 ↔ word.toNat < 2 ^ 63 := by omega
    simp only [toWord?, toInteger?, bound, inRange_eq, positive, range, true_and]
    by_cases small : word.toNat < 2 ^ 63
    · simp only [small, if_true, Option.map_some, Word.toInt_toInt64 small]
    · simp only [small, if_false, Option.map_none]

theorem Value.inRange_of_toInteger? {value : Value} {n : Int} (read : value.toInteger? = some n) :
    inRange n = some n := by
  rw [← value.map_toWord?, Option.map_eq_some_iff] at read
  obtain ⟨word, -, rfl⟩ := read
  exact inRange_toInt word

/-! ### What stands for an integer -/

/-- How an integer is written: its decimal digits behind any number of zeros and a sign that fits it, with blanks
before and behind. -/
structure IntegerText (n : Int) where
  before : Text
  sign : Sign
  zeros : Nat
  after : Text
  signed : sign.apply n.natAbs = n
  blank : ∀ c ∈ before ++ after, isBlank c = true

theorem isBlank_of_isDigit {c : Char} (numeric : c.isDigit = true) : isBlank c = false := by
  obtain ⟨low, high⟩ : 48 ≤ c.toNat ∧ c.toNat ≤ 57 := Text.isDigit_iff.1 numeric
  simp [isBlank, blankRanges]
  omega

namespace IntegerText

variable {n : Int} (written : IntegerText n)

def digits : Text := List.replicate written.zeros '0' ++ decimal n.natAbs

def text : Text := written.before ++ (written.sign.text ++ written.digits) ++ written.after

theorem digits_ne_nil : written.digits ≠ [] := by
  have some : decimal n.natAbs ≠ [] := by
    obtain zero | ⟨c, rest, digits, -⟩ := decimal_least n.natAbs <;> simp [*]
  exact List.append_ne_nil_of_right_ne_nil _ some

theorem numeric : written.digits.all Char.isDigit = true := by
  have numeric := (numeral_decimal n.natAbs).numeric
  simp [digits, numeric]

theorem value_digits : written.digits.value = n.natAbs :=
  (Text.value_zeros ..).trans (numeral_decimal n.natAbs).value

theorem trim_text : written.text.trim = written.sign.text ++ written.digits := by
  have solid : ∀ c ∈ written.sign.text ++ written.digits, isBlank c = false := by
    intro c member
    rcases List.mem_append.1 member with signed | digit
    · cases sign : written.sign <;> simp [sign, Sign.text] at signed <;> subst signed <;> rfl
    · exact isBlank_of_isDigit (List.all_eq_true.1 written.numeric c digit)
  rw [text, Text.trim_blanks (fun c member => written.blank c (by simp [member]))
    fun c member => written.blank c (by simp [member])]
  exact Reference.trim_of_blankless solid

theorem read_text : (Value.text written.text).toInteger? = Value.inRange n := by
  rw [Value.toInteger?, written.trim_text,
    Value.readInteger_signed written.sign written.digits_ne_nil written.numeric, written.value_digits,
    written.signed]

-- As a signed number is displayed.
def shortest (n : Int) : IntegerText n where
  before := []
  sign := if n < 0 then .minus else .plain
  zeros := 0
  after := []
  signed := by split <;> simp only [Sign.apply] <;> omega
  blank := nofun

theorem text_shortest (n : Int) : (shortest n).text = decimalInt n := by
  cases n with
  | ofNat n =>
    have sign : (shortest (.ofNat n)).sign = .plain := by simp [shortest]
    simp only [text, digits, sign]
    simp [shortest, Sign.text, decimalInt]
  | negSucc n =>
    have sign : (shortest (.negSucc n)).sign = .minus := if_pos (Int.negSucc_lt_zero n)
    simp only [text, digits, sign]
    simp [shortest, Sign.text, decimalInt]

end IntegerText

inductive Value.Denotes : Value → Int → Prop where
  | int8 (word : Int8) : Denotes (.int8 word) word.toInt
  | int16 (word : Int16) : Denotes (.int16 word) word.toInt
  | int32 (word : Int32) : Denotes (.int32 word) word.toInt
  | int64 (word : Int64) : Denotes (.int64 word) word.toInt
  | uint8 (word : UInt8) : Denotes (.uint8 word) word.toNat
  | uint16 (word : UInt16) : Denotes (.uint16 word) word.toNat
  | uint32 (word : UInt32) : Denotes (.uint32 word) word.toNat
  | uint64 (word : UInt64) : Denotes (.uint64 word) word.toNat
  | text {n : Int} (written : IntegerText n) : Denotes (.text written.text) n

namespace Value.Denotes

variable {value : Value} {n : Int}

theorem toInteger?_eq (denotes : value.Denotes n) : value.toInteger? = inRange n := by
  -- What is read of a narrow word is in range, as it is of any value.
  have narrow (read : value.toInteger? = some n) : value.toInteger? = inRange n :=
    read.trans (inRange_of_toInteger? read).symm
  cases denotes with
  | int8 | int16 | int32 | int64 | uint8 | uint16 | uint32 => exact narrow rfl
  | uint64 => rfl
  | text written => exact written.read_text

theorem isNull_eq (denotes : value.Denotes n) : value.isNull = false := by
  cases denotes <;> rfl

end Value.Denotes

/-! ### Counting -/

variable {C : Type} [Connection C]

def Session.Answered (session : Session C) (operation : Operation) (rows : List Row) : Prop :=
  ∃ sql, operation.text session.statement = .ok sql ∧
    (Connection.execute sql (operation.complete session.statement).2.values session.connection).1 = .ok rows

namespace Session

variable {session : Session C} {operation : Operation} {rows : List Row}

theorem perform_answered (answered : session.Answered operation rows) :
    (session.perform operation).1 = .ok rows := by
  obtain ⟨sql, ready, answer⟩ := answered
  obtain ⟨accepted, compiles⟩ := then_eq_ok.1 ready
  rw [perform_eq]
  rcases added : operation.complete session.statement with ⟨reason | _, s⟩ <;>
    rw [added] at accepted compiles answer
  · cases accepted
  · rcases executed : Connection.execute sql s.values session.connection with ⟨result, connection⟩
    rw [executed] at answer
    subst answer
    simp [execute, compiles, send, executed, Except.mapError]

theorem count_eq (session : Session C) (column? : Option Text) :
    (session.count column?).1 = (session.perform (.count column?)).1.map countIn := by
  simp only [count, aggregate, perform, Operation.clause?, map_comp]
  rfl

end Session

theorem countIn_eq {rows : List Row} {row : Row} {value : Value} {n : Int} (first : rows.head? = some row)
    (held : row.get? "count" = some value) (denotes : value.Denotes n) :
    countIn rows = (Value.inRange n).getD 0 := by
  have held : row.get? Aggregate.count.name = some value := held
  simp [countIn, Aggregate.valueIn, first, held, denotes.isNull_eq, denotes.toInteger?_eq, Option.filter]

/-- An integer is read from whatever value stands for it just as it is where a word of 64 bits holds it, and not at
all elsewhere, so that no answer is wrapped or cut off at a bound. A text that is no integer is not read. The text
that displays a word is read as the word, and counting gives the number that any such answer stands for. -/
theorem integers_read_exactly (session : Session C) (column? : Option Text) :
    (∀ (value : Value) (n : Int), value.Denotes n →
      value.toInteger? = if -2 ^ 63 ≤ n ∧ n < 2 ^ 63 then some n else none) ∧
    (∀ value : Value, value.toWord?.map Int64.toInt = value.toInteger?) ∧
    (∀ text : Text, ¬ text.trim.IsInteger → (Value.text text).toInteger? = none) ∧
    (∀ word : Int64, (Value.text (Value.int64 word).display).toInteger? = some word.toInt) ∧
    ∀ (rows : List Row) (row : Row) (value : Value) (n : Int), session.Answered (.count column?) rows →
      rows.head? = some row → row.get? "count" = some value → value.Denotes n →
      (session.count column?).1 = .ok (if -2 ^ 63 ≤ n ∧ n < 2 ^ 63 then n else 0) := by
  refine ⟨fun value n denotes => ?_, Value.map_toWord?, fun text other => ?_, fun word => ?_,
    fun rows row value n answered first held denotes => ?_⟩
  · rw [denotes.toInteger?_eq, Value.inRange_eq]
  · exact Value.readInteger_eq_none other
  · have displayed := (IntegerText.shortest word.toInt).read_text
    rw [IntegerText.text_shortest, Value.inRange_toInt] at displayed
    exact displayed
  · rw [session.count_eq, Session.perform_answered answered, Except.map, countIn_eq first held denotes,
      Value.inRange_eq]
    split <;> rfl

-- The lowest integer of a word, between blanks and behind zeros, answers the count; beside it, the first that no
-- word holds, and a text that is no integer.
theorem integers_read_exactly_lowest :
    let value : Value := .text "\t-009223372036854775808\u3000"
    let row := Row.ofPairs [("count", value)]
    let driver : Scripted := { driver := "mysql", ownRaw := false, results := [[row]] }
    let session : Session Scripted := ⟨driver, Call.runAll [.edit (.fromTable "a")] (.new {}), 0, none⟩
    value.Denotes (-2 ^ 63) ∧ session.Answered (.count none) [row] ∧
      value.toInteger? = some (-2 ^ 63) ∧ (Value.uint64 0x8000000000000000).toInteger? = none ∧
      (Value.text "7.5").toInteger? = none ∧ (session.count none).1 = .ok (-2 ^ 63) := by
  intro value row driver session
  obtain ⟨whole, -, other, -, counted⟩ := integers_read_exactly session none
  let written : IntegerText (-2 ^ 63) := ⟨"\t", .minus, 2, "\u3000", rfl, List.all_eq_true.1 rfl⟩
  have same : written.text = "\t-009223372036854775808\u3000".toList := by decide +kernel
  have denotes : value.Denotes (-2 ^ 63) := by
    have denotes := Value.Denotes.text written
    rwa [same] at denotes
  have answered : session.Answered (.count none) [row] :=
    ⟨"SELECT COUNT(*) AS \x60count\x60 FROM \x60a\x60", by decide +kernel, rfl⟩
  have fraction : ¬ Text.IsInteger (Text.trim "7.5") := by
    rintro ⟨sign, digits, same, -, numeric⟩
    have point : '.' ∈ sign.text ++ digits := by rw [← same]; decide
    rcases List.mem_append.1 point with signed | digit
    · cases sign <;> simp [Sign.text] at signed
    · exact absurd (List.all_eq_true.1 numeric '.' digit) (by decide)
  have lowest := whole value _ denotes
  have beyond := whole _ _ (.uint64 0x8000000000000000)
  have count := counted [row] row value _ answered rfl rfl denotes
  rw [if_pos (by decide)] at lowest count
  rw [if_neg (by decide +kernel)] at beyond
  exact ⟨denotes, answered, lowest, beyond, other _ fraction, count⟩

end SqlComposer
