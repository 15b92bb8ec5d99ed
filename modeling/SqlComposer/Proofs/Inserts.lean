import SqlComposer.Proofs.Changes
import SqlComposer.Proofs.Compiling
import SqlComposer.Proofs.Writing

set_option autoImplicit false

namespace SqlComposer

open Token

theorem getElem?_flatMap_group {A B : Type} {groups : List A} {f : A → List B} {width : Nat}
    (each : ∀ group ∈ groups, (f group).length = width) (i : Nat) {j : Nat} (inside : j < width) :
    (groups.flatMap f)[i * width + j]? = groups[i]?.bind fun group => (f group)[j]? := by
  induction groups generalizing i with
  | nil => simp
  | cons group rest ih =>
    have first : (f group).length = width := each group (by simp)
    rw [List.flatMap_cons]
    cases i with
    | zero =>
      rw [List.getElem?_append_left (by omega)]
      simp
    | succ i =>
      have behind : (i + 1) * width + j = width + (i * width + j) := by
        rw [Nat.succ_mul]
        omega
      rw [behind, List.getElem?_append_right (by omega), first, Nat.add_sub_cancel_left,
        ih fun other member => each other (by simp [member])]
      rfl

theorem Row.getElem?_valuesIn (row : Row) {columns : List Text}
    (present : ∀ column ∈ columns, column ∈ row.columns) (j : Nat) :
    (row.valuesIn columns)[j]? = columns[j]?.bind row.get? := by
  induction columns generalizing j with
  | nil => rfl
  | cons column rest ih =>
    obtain ⟨value, found⟩ :=
      Option.isSome_iff_exists.1 ((row.isSome_get? column).2 (present column (by simp)))
    have others := ih fun other member => present other (by simp [member])
    have split : row.valuesIn (column :: rest) = value :: row.valuesIn rest := by
      simp [valuesIn, found]
    rw [split]
    cases j with
    | zero => simp [found]
    | succ j => simpa using others j

theorem getElem?_rowValues {first row : Row} {rest : List Row} {column : Text} {i j : Nat}
    (present : ∀ row ∈ first :: rest, ∀ column ∈ first.columns, column ∈ row.columns)
    (rowAt : (first :: rest)[i]? = some row) (columnAt : first.columns[j]? = some column) :
    ∃ value, row.get? column = some value ∧
      (rowValues (first :: rest))[i * first.columns.length + j]? = some value := by
  have member : row ∈ first :: rest := List.mem_of_getElem? rowAt
  obtain ⟨value, found⟩ := Option.isSome_iff_exists.1
    ((row.isSome_get? column).2 (present row member column (List.mem_of_getElem? columnAt)))
  have widths : ∀ row ∈ first :: rest,
      (row.valuesIn first.columns).length = first.columns.length :=
    fun row member => row.length_valuesIn first.columns (present row member)
  have inside : j < first.columns.length := (List.getElem?_eq_some_iff.1 columnAt).1
  have placed : (rowValues (first :: rest))[i * first.columns.length + j]? =
      (first :: rest)[i]?.bind fun row => (row.valuesIn first.columns)[j]? :=
    getElem?_flatMap_group widths i inside
  refine ⟨value, found, ?_⟩
  rw [placed, rowAt, Option.bind_some, row.getElem?_valuesIn (present row member), columnAt,
    Option.bind_some, found]

def commaJoined (texts : List Text) : Text := [','].intercalate texts

def insertText (table : Text) (columns : List Text) (count : Nat) : Text :=
  let group := '(' :: commaJoined (List.replicate columns.length ['?']) ++ [')']
  "INSERT INTO " ++ table ++ " (" ++ commaJoined columns ++ ") VALUES " ++
    commaJoined (List.replicate count group)

theorem sql_commaSeparated (items : List (List Token)) :
    Token.sql (commaSeparated items) = commaJoined (items.map Token.sql) :=
  sql_intercalate [.comma] items

theorem sql_group (count : Nat) : Token.sql (parenthesised (placeholders count)) =
    '(' :: commaJoined (List.replicate count ['?']) ++ [')'] := by
  simp [parenthesised, placeholders, sql_commaSeparated]

theorem sql_insertTokens (scope : Scope) (table : Text) (first : Row) (rest : List Row) :
    Token.sql (insertTokens scope (some table) (first :: rest)) =
      insertText (Reference.written scope.quote table) (first.columns.map (Reference.written scope.quote))
        (rest.length + 1) := by
  have split : insertTokens scope (some table) (first :: rest) =
      (words [.INSERT, .INTO] ++ [.space]) ++ Reference.quoted scope.quote table ++
        [.space, .leftParen] ++ commaSeparated (first.columns.map (Reference.quoted scope.quote)) ++
        [.rightParen, .space, .word .VALUES, .space] ++ commaSeparated
          (List.replicate (rest.length + 1) (parenthesised (placeholders first.columns.length))) := by
    simp [insertTokens, tableTokens, parenthesised, List.replicate_succ]
  have lead : Token.sql (words [.INSERT, .INTO] ++ [.space]) = ("INSERT INTO " : Text) := rfl
  have opens : Token.sql [.space, .leftParen] = (" (" : Text) := rfl
  have values : Token.sql [.rightParen, .space, .word .VALUES, .space] = (") VALUES " : Text) := rfl
  have names : (first.columns.map (Reference.quoted scope.quote)).map Token.sql =
      first.columns.map (Reference.written scope.quote) := List.map_map
  rw [split]
  unfold insertText
  simp only [sql_append, lead, opens, values, sql_commaSeparated, names, List.map_replicate, sql_group,
    List.length_map, Reference.written]

namespace Statement

variable {s next : Statement} {first : Row} {rest : List Row} {table : Text}

theorem sql_of_insert (kind : s.kind = .insert (first :: rest)) (held : s.table = some table) :
    s.sql = (checkRows (first :: rest)).map fun _ =>
      insertText (Reference.written s.settings.quote table)
        (first.columns.map (Reference.written s.settings.quote)) (rest.length + 1) := by
  match s with
  | { settings, .. } =>
    obtain rfl := kind
    obtain rfl := held
    rw [sql_eq, check, tokens, sql_insertTokens]
    rfl

theorem values_of_insert (kind : s.kind = .insert (first :: rest)) :
    s.values = rowValues (first :: rest) := by
  match s with
  | { .. } =>
    obtain rfl := kind
    rfl

end Statement

theorem Edit.insert_run_ok {s next : Statement} {input : RowsInput}
    (accepted : (Edit.insert input).run s = (.ok (), next)) : ∃ first rest,
      input.toRows = .ok (first :: rest) ∧ .touched { s with kind := .insert (first :: rest) } = next := by
  have base : (Edit.insert input).base s = s := rfl
  rw [run_eq, base] at accepted
  cases applied : (Edit.insert input).apply s with
  | error error => simp [applied] at accepted
  | ok made =>
    obtain rfl : made = next := by simpa [applied] using accepted
    obtain ⟨rows, given, done⟩ := insert_eq_ok.1 applied
    obtain ⟨some, -, established⟩ := Statement.insert_eq_ok.1 done
    obtain ⟨first, rest, rfl⟩ := List.exists_cons_of_ne_nil some
    exact ⟨first, rest, given, (Statement.establish_eq_ok.1 established).2⟩

namespace Query

def showsText : Query → Bool
  | .toSql | .compile | .toSqlWith _ | .debug .. => true
  | .params | .quoteChar | .allows _ => false

theorem run_of_error {query : Query} (shows : query.showsText) {s : Statement} {error : Error}
    (failed : s.sql = .error error) : query.run s = (.error error, s) := by
  have refused : query.answer s = .error error := by
    cases query with
    | toSql | compile => simp [answer, failed, Except.map]
    | toSqlWith values => simp [answer, Statement.sqlWith, failed, Except.map]
    | debug halt failure =>
      simp [answer, Statement.debug, Statement.sqlWith, failed, Except.map, bind, Except.bind]
    | params | quoteChar | allows => cases shows
  rw [run, refused]

end Query

/-- Accepted rows are written as the columns of the first and a group of placeholders for each, and every
value stands at the placeholder of its row and column, if all rows have the same columns in any order. If
one has other columns than the first, nothing is written, whatever asks for the text. -/
theorem insert_places_values (s next : Statement) (table : Text) (input : RowsInput)
    (held : s.table = some table) (accepted : (Edit.insert input).run s = (.ok (), next)) :
    ∃ first rest, input.toRows = .ok (first :: rest) ∧
      let rows := first :: rest
      let columns := first.columns
      let written := Reference.written s.settings.quote
      let text := insertText (written table) (columns.map written) rows.length
      let same := ∀ row ∈ rows, ∀ column, column ∈ row.columns ↔ column ∈ columns
      (same → ∃ values,
        Query.toSql.answer next = .ok (.text text) ∧ Query.params.answer next = .ok (.values values) ∧
        Query.compile.answer next = .ok (.compiled text values) ∧
        values.length = rows.length * columns.length ∧
        ∀ i row j column, rows[i]? = some row → columns[j]? = some column →
          ∃ value, row.get? column = some value ∧ values[i * columns.length + j]? = some value) ∧
      (¬ same → ∀ query : Query, query.showsText →
        query.run next = (.error (.invalidArgument "insert" .unequalColumns), next)) := by
  obtain ⟨first, rest, given, rfl⟩ := Edit.insert_run_ok accepted
  refine ⟨first, rest, given, ?_⟩
  intro rows columns written text same
  have compiles_iff : checkRows rows = .ok () ↔ same := by
    simpa [rows, same, columns] using checkRows_eq_ok_iff (List.cons_ne_nil first rest)
  have compiled := Statement.sql_of_insert
    (s := .touched { s with kind := .insert (first :: rest) }) rfl held
  have bound := Statement.values_of_insert
    (s := .touched { s with kind := .insert (first :: rest) }) rfl
  constructor
  · intro holds
    have checked : checkRows rows = .ok () := compiles_iff.2 holds
    rw [checked] at compiled
    refine ⟨rowValues rows, ?_, ?_, ?_, length_rowValues checked, ?_⟩
    · rw [Query.answer, compiled]
      rfl
    · rw [Query.answer, bound]
    · rw [Query.answer, compiled, bound]
      rfl
    · exact fun i row j column rowAt columnAt =>
        getElem?_rowValues (fun row member column => (holds row member column).2) rowAt columnAt
  · intro differ query shows
    have refused : checkRows rows = .error (.invalidArgument "insert" .unequalColumns) := by
      have fails := mt compiles_iff.1 differ
      simp only [rows, checkRows] at fails ⊢
      split
      · next passed => simp [passed] at fails
      · rfl
    refine Query.run_of_error shows ?_
    rw [compiled, refused]
    rfl

-- The second row gives its columns in another order, or has another column in the place of one.
theorem insert_places_values_reordered :
    let s := Call.runAll [.edit (.fromTable "a AS b")] (.new {})
    let first : List (Text × Value) := [("x", .null), ("y", .bool true)]
    let reordered : RowsInput := .many [first, [("y", .bool false), ("x", .text "z")]]
    let renamed : RowsInput := .many [first, [("x", .null), ("z", .null)]]
    let t := ((Edit.insert reordered).run s).2
    let u := ((Edit.insert renamed).run s).2
    let text : Text := "INSERT INTO `a` AS `b` (`x`,`y`) VALUES (?,?),(?,?)"
    s.table = some "a AS b" ∧ (Edit.insert reordered).run s = (.ok (), t) ∧
      (Edit.insert renamed).run s = (.ok (), u) ∧
      (∃ values, Query.compile.answer t = .ok (.compiled text values) ∧ values.length = 4 ∧
        values[2]? = some (.text "z")) ∧
      Query.toSql.run u = (.error (.invalidArgument "insert" .unequalColumns), u) := by
  intro s first reordered renamed t u text
  have held : s.table = some "a AS b" := by decide +kernel
  have left : (Edit.insert reordered).run s = (.ok (), t) := Prod.ext (by decide +kernel) rfl
  have right : (Edit.insert renamed).run s = (.ok (), u) := Prod.ext (by decide +kernel) rfl
  refine ⟨held, left, right, ?_, ?_⟩
  · obtain ⟨row, rest, given, places, -⟩ := insert_places_values s t _ reordered held left
    obtain ⟨rfl, rfl⟩ := List.cons.inj (Except.ok.inj given)
    obtain ⟨values, -, -, compiled, count, placed⟩ :=
      places ((checkRows_eq_ok_iff (by simp)).1 (by decide +kernel) _ rfl)
    refine ⟨values, compiled.trans ?_, count, ?_⟩
    · exact congrArg (fun text => Except.ok (Reply.compiled text values)) (by decide +kernel)
    · obtain ⟨value, found, there⟩ := placed 1 _ 0 "x" rfl rfl
      obtain rfl : Value.text "z" = value := Option.some.inj found
      exact there
  · obtain ⟨row, rest, given, -, refuses⟩ := insert_places_values s u _ renamed held right
    obtain ⟨rfl, rfl⟩ := List.cons.inj (Except.ok.inj given)
    refine refuses (fun same => ?_) .toSql rfl
    have kept := (same _ (List.mem_cons_of_mem _ (List.mem_singleton_self _)) "z").1
    exact absurd (kept (by decide +kernel)) (by decide +kernel)

end SqlComposer
