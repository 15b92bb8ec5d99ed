import SqlComposer.Proofs.Grouping

set_option autoImplicit false

namespace SqlComposer

open Token

namespace Token

def spanColumn : List Token → List Token × List Token
  | .space :: .word .AS :: .space :: rest =>
    let (column, rest) := spanColumn rest
    (.space :: .word .AS :: .space :: column, rest)
  | .dot :: rest =>
    let (column, rest) := spanColumn rest
    (.dot :: column, rest)
  | .star :: rest =>
    let (column, rest) := spanColumn rest
    (.star :: column, rest)
  | .quoted quote body :: rest =>
    let (column, rest) := spanColumn rest
    (.quoted quote body :: column, rest)
  | rest => ([], rest)

def readNot : List Token → Bool × List Token
  | .word .NOT :: .space :: rest => (true, rest)
  | rest => (false, rest)

def readComparison : List Token → Option (Comparison × List Token)
  | .space :: .word .LIKE :: .space :: rest => some (.like, rest)
  | .symbol comparison :: rest => some (comparison, rest)
  | _ => none

def closing (depth : Nat) : List Token → Option (List Token × List Token)
  | [] => none
  | token :: rest =>
    let within (depth : Nat) := (closing depth rest).map fun (inner, rest) => (token :: inner, rest)
    match token, depth with
    | .rightParen, 0 => some ([], rest)
    | .rightParen, depth + 1 => within depth
    | .leftParen, depth => within (depth + 1)
    | _, depth => within depth

def Columnar (tokens : List Token) : Prop :=
  ∀ rest, spanColumn (tokens ++ rest) = (tokens ++ (spanColumn rest).1, (spanColumn rest).2)

namespace Columnar

variable {tokens more : List Token}

theorem nil : Columnar [] := fun _ => rfl

theorem append (first : Columnar tokens) (second : Columnar more) : Columnar (tokens ++ more) := by
  intro rest
  rw [List.append_assoc, first, second]
  simp

theorem dotted (quote : Quote) (part : Text) : Columnar (Reference.dotted quote part) := by
  apply Text.intercalate_closed (P := Columnar) nil (fun _ _ => append) fun _ => rfl
  intro item member
  obtain ⟨name, -, rfl⟩ := List.mem_map.1 member
  unfold Reference.segment
  split <;> exact fun _ => rfl

theorem quoted (quote : Quote) (reference : Text) : Columnar (Reference.quoted quote reference) := by
  apply Text.intercalate_closed (P := Columnar) nil (fun _ _ => append) fun _ => rfl
  intro item member
  obtain ⟨part, -, rfl⟩ := List.mem_map.1 member
  exact dotted quote part

end Columnar

theorem spanColumn_column (scope : Scope) (reference : Text) {rest : List Token}
    (ended : spanColumn rest = ([], rest)) :
    spanColumn (scope.column reference ++ rest) = (scope.column reference, rest) := by
  have whole : spanColumn (scope.column reference ++ rest) = _ :=
    Columnar.quoted scope.quote _ rest
  rw [whole, ended, List.append_nil]
  rfl

theorem closing_leftParen (depth : Nat) (rest : List Token) :
    closing depth (.leftParen :: rest) =
      (closing (depth + 1) rest).map fun (inner, rest) => (.leftParen :: inner, rest) := by
  cases depth <;> rfl

theorem closing_rightParen (depth : Nat) (rest : List Token) :
    closing (depth + 1) (.rightParen :: rest) =
      (closing depth rest).map fun (inner, rest) => (.rightParen :: inner, rest) := rfl

theorem closing_other {token : Token} (open_ : token ≠ .leftParen) (close : token ≠ .rightParen)
    (depth : Nat) (rest : List Token) :
    closing depth (token :: rest) =
      (closing depth rest).map fun (inner, rest) => (token :: inner, rest) := by
  cases token <;> first | rfl | contradiction

theorem closing_flat {token : Token} (plain : token.isFlat) (depth : Nat) (rest : List Token) :
    closing depth (token :: rest) =
      (closing depth rest).map fun (inner, rest) => (token :: inner, rest) := by
  apply closing_other <;> rintro rfl <;> cases plain

theorem closing_word (word : Word) (depth : Nat) (rest : List Token) :
    closing depth (.word word :: rest) =
      (closing depth rest).map fun (inner, rest) => (.word word :: inner, rest) :=
  closing_other (by simp) (by simp) depth rest

theorem Grouped.closing_append {tokens : List Token} (grouped : Grouped tokens) :
    ∀ depth rest, closing depth (tokens ++ rest) =
      (closing depth rest).map fun (inner, rest) => (tokens ++ inner, rest) := by
  have space (depth : Nat) (rest : List Token) : closing depth (.space :: rest) = _ :=
    closing_flat rfl depth rest
  have mark (depth : Nat) (rest : List Token) : closing depth (.placeholder :: rest) = _ :=
    closing_flat rfl depth rest
  induction grouped with
  | nil => simp
  | flat token plain _ ih =>
    intro depth rest
    simp [closing_flat plain, ih, Function.comp_def]
  | group _ _ _ ihInner ihLater =>
    intro depth rest
    simp [closing_leftParen, ihInner, closing_rightParen, ihLater, Function.comp_def]
  | random _ ih =>
    intro depth rest
    simp [closing_word, closing_leftParen, closing_rightParen, ih, Function.comp_def]
  | set name named _ ih =>
    intro depth rest
    have plain : name.isFlat := by cases name <;> first | rfl | cases named
    simp [closing_word, space, closing_flat plain, ih, Function.comp_def]
  | values _ _ ihInner ihLater =>
    intro depth rest
    simp [closing_word, space, mark, closing_leftParen, ihInner, closing_rightParen, ihLater,
      Function.comp_def]

theorem Grouped.closing_eq {tokens : List Token} (grouped : Grouped tokens) (rest : List Token) :
    closing 0 (tokens ++ .rightParen :: rest) = some (tokens, rest) := by
  have closed : closing 0 (.rightParen :: rest) = some ([], rest) := rfl
  rw [grouped.closing_append, closed]
  simp

theorem readNot_notTokens (negated : Bool) {tokens : List Token}
    (other : tokens.head? ≠ some (.word .NOT)) :
    readNot (notTokens negated ++ tokens) = (negated, tokens) := by
  cases negated with
  | true => rfl
  | false =>
    unfold notTokens readNot
    split
    · simp_all
    · rfl

theorem readComparison_tokens (comparison : Comparison) (rest : List Token) :
    readComparison (comparison.tokens ++ rest) = some (comparison, rest) := by
  cases comparison <;> rfl

theorem spanColumn_comparison (comparison : Comparison) (rest : List Token) :
    spanColumn (comparison.tokens ++ rest) = ([], comparison.tokens ++ rest) := by
  cases comparison <;> rfl

end Token

inductive Outline where
  | compare (negated : Bool) (column : List Token) (comparison : Comparison)
  | between (negated : Bool) (column : List Token)
  | inValues (negated : Bool) (column : List Token) (count : Nat)
  | inQuery (negated : Bool) (column query : List Token)
  | isNull (negated : Bool) (column : List Token)
  | columns (left : List Token) (comparison : Comparison) (right : List Token)
  | datePart (part : DatePart) (column : List Token) (comparison : Comparison)
  | existsQuery (negated : Bool) (query : List Token)
  | fragment (negated : Bool) (text : Text)
  | group (negated : Bool) (conditions : List Token)

namespace Outline

def readList (negated : Bool) (column : List Token) (tokens : List Token) :
    Option (Outline × List Token) :=
  (closing 0 tokens).map fun (list, rest) =>
    if list.head? = some .placeholder then (inValues negated column (list.count .placeholder), rest)
    else (inQuery negated column list, rest)

-- Behind the column of a predicate that is no comparison.
def readTest (column : List Token) : List Token → Option (Outline × List Token)
  | .word .IS :: .space :: rest =>
    match readNot rest with
    | (negated, .word .NULL :: rest) => some (isNull negated column, rest)
    | _ => none
  | rest =>
    match readNot rest with
    | (negated, .word .BETWEEN :: .space :: .placeholder :: .space :: .word .AND :: .space ::
        .placeholder :: rest) => some (between negated column, rest)
    | (negated, .word .IN :: .space :: .leftParen :: rest) => readList negated column rest
    | _ => none

def readOperand (negated : Bool) (tokens : List Token) : Option (Outline × List Token) :=
  let (column, rest) := spanColumn tokens
  match readComparison rest, rest with
  | some (comparison, .placeholder :: rest), _ => some (compare negated column comparison, rest)
  | some (comparison, rest), _ =>
    let (right, rest) := spanColumn rest
    some (columns column comparison right, rest)
  | none, .space :: rest => readTest column rest
  | none, _ => none

def readDatePart (part : DatePart) (tokens : List Token) : Option (Outline × List Token) :=
  (closing 0 tokens).bind fun (column, rest) =>
    match readComparison rest with
    | some (comparison, .placeholder :: rest) => some (datePart part column comparison, rest)
    | _ => none

def read (tokens : List Token) : Option (Outline × List Token) :=
  match readNot tokens with
  | (negated, .leftParen :: rest) =>
    (closing 0 rest).map fun (inner, rest) => (group negated inner, rest)
  | (negated, .word .EXISTS :: .space :: .leftParen :: rest) =>
    (closing 0 rest).map fun (query, rest) => (existsQuery negated query, rest)
  | (negated, .fragment text :: rest) => some (fragment negated text, rest)
  | (_, .word (.datePart part) :: .leftParen :: rest) => readDatePart part rest
  | (negated, rest) => readOperand negated rest

end Outline

def Predicate.outline (scope : Scope) : Predicate → Outline
  | .compare negated column comparison _ => .compare negated (scope.column column) comparison
  | .between negated column _ _ => .between negated (scope.column column)
  | .inValues negated column values => .inValues negated (scope.column column) values.length
  | .inQuery negated column query => .inQuery negated (scope.column column) query.tokens
  | .isNull negated column => .isNull negated (scope.column column)
  | .columns left comparison right =>
    .columns (scope.column left) comparison (scope.column right)
  | .datePart part column comparison _ => .datePart part (scope.column column) comparison
  | .existsQuery negated query => .existsQuery negated query.tokens
  | .fragment negated text _ => .fragment negated text
  | .group negated conditions => .group negated (Condition.listTokens scope conditions)

def Token.Continues (tokens : List Token) : Prop :=
  tokens = [] ∨ ∃ (connective : Connective) (rest : List Token),
    tokens = .space :: .word connective.word :: rest

theorem Token.Continues.spanColumn_eq {tokens : List Token} (continues : Continues tokens) :
    spanColumn tokens = ([], tokens) := by
  rcases continues with rfl | ⟨connective, rest, rfl⟩
  · rfl
  · cases connective <;> rfl

theorem Condition.continues_laterTokens (scope : Scope) (conditions : List Condition) :
    Continues (Condition.laterTokens scope conditions) := by
  cases conditions with
  | nil => exact .inl rfl
  | cons condition rest =>
    rw [Condition.laterTokens_cons]
    exact .inr ⟨condition.connective, _, rfl⟩

namespace Outline

variable (scope : Scope)

-- A predicate that begins with its column, behind a possible NOT.
theorem read_column (negated : Bool) (column : Text) (tokens : List Token) :
    read (notTokens negated ++ (scope.column column ++ tokens)) =
      readOperand negated (scope.column column ++ tokens) := by
  obtain ⟨name, rest, same, named⟩ := scope.column_eq_cons column
  rw [same, List.cons_append]
  have other : (name :: (rest ++ tokens)).head? ≠ some (.word .NOT) := by
    rintro ⟨⟩
    cases named
  rw [read, readNot_notTokens negated other]
  cases name <;> first | rfl | cases named

theorem readOperand_comparison (negated : Bool) (column : Text) (comparison : Comparison)
    (rest : List Token) :
    readOperand negated (scope.column column ++ (comparison.tokens ++ .placeholder :: rest)) =
      some (compare negated (scope.column column) comparison, rest) := by
  rw [readOperand, spanColumn_column scope column (spanColumn_comparison comparison _)]
  simp only [readComparison_tokens]

-- No comparison and no further part of the column begins with the word.
theorem readOperand_test (negated : Bool) (column : Text) (word : Word) (tokens : List Token)
    (part : word ≠ .AS) (like : word ≠ .LIKE) :
    readOperand negated (scope.column column ++ .space :: .word word :: tokens) =
      readTest (scope.column column) (.word word :: tokens) := by
  have ended : spanColumn (.space :: .word word :: tokens) = ([], .space :: .word word :: tokens) := by
    cases word <;> first | rfl | exact absurd rfl part
  have none : readComparison (.space :: .word word :: tokens) = none := by
    cases word <;> first | rfl | exact absurd rfl like
  rw [readOperand, spanColumn_column scope column ended]
  simp only [none]

theorem read_test (negated : Bool) (column : Text) (word : Word) (tokens : List Token)
    (part : word ≠ .AS) (like : word ≠ .LIKE) :
    read (scope.column column ++ .space :: (notTokens negated ++ .word word :: tokens)) =
      readTest (scope.column column) (notTokens negated ++ .word word :: tokens) := by
  have opened := read_column scope false column (.space :: (notTokens negated ++ .word word :: tokens))
  refine opened.trans ?_
  cases negated with
  | true => exact readOperand_test scope false column .NOT _ (by simp) (by simp)
  | false => exact readOperand_test scope false column word tokens part like

theorem readTest_list (negated : Bool) (column tokens : List Token) :
    readTest column (notTokens negated ++ .word .IN :: .space :: .leftParen :: tokens) =
      readList negated column tokens := by
  cases negated <;> rfl

theorem readList_values (negated : Bool) (column : List Token) {values : List Value}
    (listed : values ≠ []) (rest : List Token) :
    readList negated column (placeholders values.length ++ .rightParen :: rest) =
      some (inValues negated column values.length, rest) := by
  have grouped : Grouped (placeholders values.length) := .of_flat (flat_placeholders values.length)
  obtain ⟨value, others, rfl⟩ := List.exists_cons_of_ne_nil listed
  simp only [List.length_cons] at grouped ⊢
  have size : (placeholders (others.length + 1)).count .placeholder = others.length + 1 := by
    simp [placeholders_succ, List.count_flatten]
  have first : (placeholders (others.length + 1)).head? = some .placeholder := by
    rw [placeholders_succ]
    rfl
  simp only [readList, grouped.closing_eq, Option.map_some, first, if_true, size]

theorem readList_query (negated : Bool) (column : List Token) {query : Statement}
    (every : query.Every Statement.WellFormed Predicate.WellFormed) (rest : List Token) :
    readList negated column (query.tokens ++ .rightParen :: rest) =
      some (inQuery negated column query.tokens, rest) := by
  obtain ⟨token, more, same, other⟩ :=
    Statement.tokens_eq_cons ((Statement.every_iff query).1 every).1.kind
  have first : query.tokens.head? ≠ some .placeholder := by simpa [same] using other
  simp only [readList, (query.tokens_grouped every).closing_eq, Option.map_some, first, if_false]

theorem read_tokens (predicate : Predicate)
    (every : predicate.Every Statement.WellFormed Predicate.WellFormed) {rest : List Token}
    (continues : Continues rest) :
    read (predicate.tokens scope ++ rest) = some (predicate.outline scope, rest) := by
  match predicate with
  | .compare negated column comparison _ =>
    simp only [Predicate.tokens, List.append_assoc, List.cons_append, List.nil_append]
    rw [read_column, readOperand_comparison]
    rfl
  | .between negated column _ _ =>
    simp only [Predicate.tokens, List.append_assoc, List.cons_append, List.nil_append]
    rw [read_test scope negated column .BETWEEN _ (by simp) (by simp)]
    cases negated <;> rfl
  | .inValues negated column values =>
    simp only [Predicate.tokens, parenthesised, List.append_assoc, List.cons_append, List.nil_append]
    rw [read_test scope negated column .IN _ (by simp) (by simp), readTest_list,
      readList_values negated _ every]
    rfl
  | .inQuery negated column query =>
    simp only [Predicate.tokens, parenthesised, List.append_assoc, List.cons_append, List.nil_append]
    rw [read_test scope negated column .IN _ (by simp) (by simp), readTest_list,
      readList_query negated _ every.2]
    rfl
  | .isNull negated column =>
    simp only [Predicate.tokens, List.append_assoc, List.cons_append, List.nil_append]
    have opened := read_test scope false column .IS (.space :: (notTokens negated ++ .word .NULL :: rest))
      (by simp) (by simp)
    refine opened.trans ?_
    cases negated <;> rfl
  | .columns left comparison right =>
    simp only [Predicate.tokens, List.append_assoc]
    have opened := read_column scope false left (comparison.tokens ++ (scope.column right ++ rest))
    refine opened.trans ?_
    rw [readOperand, spanColumn_column scope left (spanColumn_comparison comparison _)]
    have second := spanColumn_column scope right continues.spanColumn_eq
    obtain ⟨name, more, same, named⟩ := scope.column_eq_cons right
    rw [same, List.cons_append] at second ⊢
    simp only [readComparison_tokens]
    cases name with
    | star | quoted => simp only [second, Predicate.outline, same]
    | _ => cases named
  | .datePart part column comparison _ =>
    simp only [Predicate.tokens, parenthesised, List.append_assoc, List.cons_append, List.nil_append]
    have grouped : Grouped (scope.column column) := .of_flat (scope.flat_column column)
    show readDatePart part _ = _
    rw [readDatePart, grouped.closing_eq, Option.bind_some]
    simp only [readComparison_tokens]
    rfl
  | .existsQuery negated query =>
    simp only [Predicate.tokens, parenthesised, List.append_assoc, List.cons_append, List.nil_append]
    rw [read, readNot_notTokens negated (by simp)]
    simp only [(query.tokens_grouped every.2).closing_eq]
    rfl
  | .group negated conditions =>
    simp only [Predicate.tokens, parenthesised, List.append_assoc, List.cons_append, List.nil_append]
    have inner := Condition.listTokens_grouped scope conditions every.2
    rw [read, readNot_notTokens negated (by simp)]
    simp only [inner.closing_eq]
    rfl
  | .fragment negated text _ =>
    simp only [Predicate.tokens, List.append_assoc, List.cons_append, List.nil_append]
    rw [read, readNot_notTokens negated (by simp)]
    rfl

end Outline

end SqlComposer
