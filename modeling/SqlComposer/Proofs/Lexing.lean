import SqlComposer.Token

set_option autoImplicit false

/-!
Reading SQL text back as tokens, character by character. Between quotes everything up to the next
equal quote is one body; outside, letters, digits and comparison signs form runs that are as long as
possible, and every other token is one character. The text of tokens that no other run touches is
read back as just these tokens: `Token.lexFrom_sql`.
-/

namespace SqlComposer

inductive Run where
  | digits
  | letters
  | signs
deriving DecidableEq

def Run.of? (c : Char) : Option Run :=
  if c.isDigit then some .digits
  else if c.isAlpha then some .letters
  else if c ∈ ['<', '>', '=', '!'] then some .signs
  else none

namespace Word

def all : List Word :=
  ([.SELECT, .DISTINCT, .FROM, .WHERE, .GROUP, .BY, .HAVING, .ORDER, .LIMIT, .OFFSET, .INSERT, .INTO,
    .VALUES, .UPDATE, .SET, .DELETE, .TRUNCATE, .TABLE, .UNION, .ALL, .JOIN, .INNER, .OUTER, .LEFT,
    .RIGHT, .FULL, .SELF, .CROSS, .ON, .AS, .AND, .OR, .XOR, .NOT, .BETWEEN, .IN, .IS, .NULL, .EXISTS,
    .LIKE, .DESC, .RAND] : List Word) ++
  List.map Word.datePart [.time, .hour, .minute, .date, .day, .month, .year, .week, .weekday, .quarter] ++
  List.map Word.aggregate [.avg, .count, .max, .min, .sum]

def read? (text : Text) : Option Word := all.find? fun word => word.text == text

theorem read?_text (word : Word) : read? word.text = some word := by
  cases word with
  | datePart part => cases part <;> decide
  | aggregate function => cases function <;> decide
  | _ => decide

end Word

-- What has been read since the last token.
inductive Reading where
  | nothing
  | run (kind : Run) (seen : Text)
  | body (quote : Quote) (seen : Text)

def Reading.finish : Reading → Option (List Token)
  | .nothing => some []
  | .run .letters seen => (Word.read? seen).map fun word => [.word word]
  | .run .digits seen => some [.number (Nat.ofDigitChars 10 seen 0)]
  | .run .signs seen => (Comparison.read? seen).map fun comparison => [.symbol comparison]
  | .body .. => none

def Token.single? (c : Char) : Option Token :=
  [.space, .newline, .comma, .dot, .star, .leftParen, .rightParen, .placeholder].find? fun token =>
    token.text == [c]

def Reading.start (c : Char) : Option (List Token × Reading) :=
  match Run.of? c, Quote.ofChar c with
  | some kind, _ => some ([], .run kind [c])
  | none, .ok quote => some ([], .body quote [])
  | none, .error _ => (Token.single? c).map fun token => ([token], .nothing)

def Reading.step (c : Char) : Reading → Option (List Token × Reading)
  | .nothing => start c
  | .run kind seen =>
    if Run.of? c = some kind then some ([], .run kind (seen ++ [c]))
    else (finish (.run kind seen)).bind fun done =>
      (start c).map fun (more, next) => (done ++ more, next)
  | .body quote seen =>
    if c = quote.char then some ([.quoted quote seen], .nothing)
    else some ([], .body quote (seen ++ [c]))

namespace Token

def lexFrom : Reading → Text → Option (List Token)
  | reading, [] => reading.finish
  | reading, c :: rest =>
    (reading.step c).bind fun (done, next) => (lexFrom next rest).map (done ++ ·)

/-- Gives no tokens for a text that ends between quotes. -/
def lex (text : Text) : Option (List Token) := lexFrom .nothing text

theorem lexFrom_run (kind : Run) (seen text rest : Text)
    (within : ∀ c ∈ text, Run.of? c = some kind) :
    lexFrom (.run kind seen) (text ++ rest) = lexFrom (.run kind (seen ++ text)) rest := by
  induction text generalizing seen with
  | nil => simp
  | cons c text ih =>
    have first := within c (by simp)
    have others := ih (seen ++ [c]) fun other member => within other (by simp [member])
    simp [lexFrom, Reading.step, first, others]

theorem lexFrom_start (kind : Run) (text rest : Text) (some_text : text ≠ [])
    (within : ∀ c ∈ text, Run.of? c = some kind) :
    lexFrom .nothing (text ++ rest) = lexFrom (.run kind text) rest := by
  obtain ⟨c, more, rfl⟩ := List.exists_cons_of_ne_nil some_text
  have first : (Reading.nothing).step c = some ([], .run kind [c]) := by
    simp [Reading.step, Reading.start, within c (by simp)]
  have others := lexFrom_run kind [c] more rest fun other member => within other (by simp [member])
  simp [lexFrom, first, others]

theorem lexFrom_body (quote : Quote) (seen body rest : Text) (closed : quote.char ∉ body) :
    lexFrom (.body quote seen) (body ++ quote.char :: rest) =
      (lexFrom .nothing rest).map (.quoted quote (seen ++ body) :: ·) := by
  induction body generalizing seen with
  | nil =>
    simp [lexFrom, Reading.step]
  | cons c body ih =>
    have other : c ≠ quote.char := fun same => closed (by simp [same])
    have inner := ih (seen ++ [c]) fun member => closed (by simp [member])
    simp [lexFrom, Reading.step, other, inner, Function.comp_def]

theorem lexFrom_finish (kind : Run) (seen text : Text) (done : List Token)
    (complete : (Reading.run kind seen).finish = some done)
    (ended : ∀ c ∈ text.head?, Run.of? c = none) :
    lexFrom (.run kind seen) text = (lexFrom .nothing text).map (done ++ ·) := by
  cases text with
  | nil =>
    rw [lexFrom, lexFrom, complete]
    simp [Reading.finish]
  | cons c rest =>
    have fresh := ended c (by simp)
    cases started : Reading.start c with
    | none => simp [lexFrom, Reading.step, fresh, complete, started]
    | some pair =>
      simp [lexFrom, Reading.step, fresh, complete, started, Function.comp_def]

def run? : Token → Option Run
  | .word _ => some .letters
  | .number _ => some .digits
  | .symbol _ => some .signs
  | _ => none

def Plain (counts : Nat → Prop) : Token → Prop
  | .fragment _ => False
  | .quoted quote body => quote.char ∉ body
  | .symbol comparison => comparison ≠ .like
  | .number n => counts n
  | _ => True

def Readable (counts : Nat → Prop) : Bool → List Token → Prop
  | _, [] => True
  | touching, token :: rest =>
    (touching = true → token.run? = none) ∧ token.Plain counts ∧ Readable counts token.run?.isSome rest

namespace Readable

variable {counts : Nat → Prop} {touching : Bool} {tokens more : List Token}

theorem mono (readable : Readable counts true tokens) : Readable counts touching tokens := by
  cases tokens with
  | nil => trivial
  | cons token rest => exact ⟨fun _ => readable.1 rfl, readable.2⟩

theorem append (first : Readable counts touching tokens) (second : Readable counts true more) :
    Readable counts touching (tokens ++ more) := by
  induction tokens generalizing touching with
  | nil => exact second.mono
  | cons token rest ih => exact ⟨first.1, first.2.1, ih first.2.2⟩

theorem plain_of_mem (readable : Readable counts touching tokens) :
    ∀ token ∈ tokens, token.Plain counts := by
  induction tokens generalizing touching with
  | nil => simp
  | cons first rest ih =>
    intro token member
    rcases List.mem_cons.1 member with rfl | later
    · exact readable.2.1
    · exact ih readable.2.2 token later

end Readable

theorem finish_text (token : Token) (kind : Run) (run : token.run? = some kind) :
    (Reading.run kind token.text).finish = some [token] := by
  cases token <;> cases run
  case word word => simp [Reading.finish, Word.read?_text]
  case symbol comparison => simp [Reading.finish, Comparison.read?_sql]
  case number n => simp [Reading.finish, decimal, Nat.ofDigitChars_ten_toDigits]

theorem run_of_mem_text (token : Token) (counts : Nat → Prop) (plain : token.Plain counts)
    (kind : Run) (run : token.run? = some kind) :
    token.text ≠ [] ∧ ∀ c ∈ token.text, Run.of? c = some kind := by
  -- On lists of characters, so that nothing ranges over all of them.
  have spelled (text : Text) (solid : text ≠ [])
      (each : text.all fun c => Run.of? c == some kind) :
      text ≠ [] ∧ ∀ c ∈ text, Run.of? c = some kind :=
    ⟨solid, by simpa using each⟩
  cases token <;> cases run
  case word word =>
    cases word with
    | datePart part => cases part <;> exact spelled _ (by decide) (by decide)
    | aggregate function => cases function <;> exact spelled _ (by decide) (by decide)
    | _ => exact spelled _ (by decide) (by decide)
  case symbol comparison =>
    cases comparison with
    | like => exact absurd rfl plain
    | _ => exact spelled _ (by decide) (by decide)
  case number n =>
    refine ⟨Nat.toDigits_ne_nil, fun c member => ?_⟩
    simp [Run.of?, Nat.isDigit_of_mem_toDigits (by decide) (by decide) member]

theorem head?_text (token : Token) (counts : Nat → Prop) (plain : token.Plain counts)
    (alone : token.run? = none) : ∃ c rest, token.text = c :: rest ∧ Run.of? c = none := by
  cases token <;> simp only [run?, reduceCtorEq] at alone
  case fragment => exact plain.elim
  case quoted quote body => exact ⟨quote.char, body ++ [quote.char], rfl, by cases quote <;> decide⟩
  all_goals exact ⟨_, [], rfl, by decide⟩

theorem Readable.head?_sql {counts : Nat → Prop} {tokens : List Token}
    (readable : Readable counts true tokens) : ∀ c ∈ (sql tokens).head?, Run.of? c = none := by
  cases tokens with
  | nil => simp
  | cons token rest =>
    obtain ⟨c, more, text, fresh⟩ := head?_text token counts readable.2.1 (readable.1 rfl)
    simp [text, fresh]

theorem lexFrom_text (token : Token) (counts : Nat → Prop) (rest : Text)
    (plain : token.Plain counts) (alone : token.run? = none) :
    lexFrom .nothing (token.text ++ rest) = (lexFrom .nothing rest).map (token :: ·) := by
  cases token <;> simp only [run?, reduceCtorEq] at alone
  case fragment => exact plain.elim
  case quoted quote body =>
    have start : (Reading.nothing).step quote.char = some ([], .body quote []) := by
      cases quote <;> rfl
    have read := lexFrom_body quote [] body rest plain
    simp [lexFrom, start, read, Function.comp_def]
  all_goals rfl

theorem lexFrom_sql (counts : Nat → Prop) (tokens : List Token)
    (readable : Readable counts false tokens) : lexFrom .nothing (sql tokens) = some tokens := by
  induction tokens with
  | nil => rfl
  | cons token rest ih =>
    obtain ⟨-, plain, later⟩ := readable
    cases run : token.run? with
    | none =>
      rw [run] at later
      rw [sql_cons, lexFrom_text token counts _ plain run, ih later]
      rfl
    | some kind =>
      rw [run] at later
      obtain ⟨some_text, within⟩ := run_of_mem_text token counts plain kind run
      have whole := lexFrom_start kind token.text (sql rest) some_text within
      have ended := lexFrom_finish kind token.text (sql rest) [token] (finish_text token kind run)
        later.head?_sql
      rw [sql_cons, whole, ended, ih (later.mono)]
      rfl

end Token

end SqlComposer
