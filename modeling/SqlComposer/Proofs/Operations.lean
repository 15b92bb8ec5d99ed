import SqlComposer.Edit

set_option autoImplicit false

namespace SqlComposer

section Results

variable {A B : Type} {result : Except Error A} {b : B}

theorem bind_eq_ok {f : A → Except Error B} :
    (result >>= f) = .ok b ↔ ∃ a, result = .ok a ∧ f a = .ok b := by
  cases result <;> simp [Bind.bind, Except.bind]

theorem then_eq_ok {first : Except Error Unit} {second : Except Error B} :
    (first >>= fun _ => second) = .ok b ↔ first = .ok () ∧ second = .ok b := by
  cases first <;> simp [Bind.bind, Except.bind]

theorem pure_eq_ok {a : B} : (pure a : Except Error B) = .ok b ↔ a = b := by
  simp [pure, Except.pure]

theorem map_eq_ok {f : A → B} : result.map f = .ok b ↔ ∃ a, result = .ok a ∧ f a = b := by
  cases result <;> simp [Except.map]

theorem mem_of_mapM_eq_ok {f : A → Except Error B} {items : List A} {results : List B}
    (mapped : items.mapM f = .ok results) : ∀ b ∈ results, ∃ item ∈ items, f item = .ok b := by
  induction items generalizing results with
  | nil =>
    obtain rfl := Except.ok.inj mapped
    simp
  | cons item rest ih =>
    rw [List.mapM_cons] at mapped
    obtain ⟨first, found, later⟩ := bind_eq_ok.1 mapped
    obtain ⟨others, rested, same⟩ := bind_eq_ok.1 later
    obtain rfl := Except.ok.inj same
    intro b member
    rcases List.mem_cons.1 member with rfl | inside
    · exact ⟨item, by simp, found⟩
    · obtain ⟨source, within, gave⟩ := ih rested b inside
      exact ⟨source, by simp [within], gave⟩

theorem forM_eq_ok {f : A → Except Error Unit} {items : List A} :
    items.forM f = .ok () ↔ ∀ item ∈ items, f item = .ok () := by
  induction items with
  | nil => simp [pure, Except.pure]
  | cons item rest ih =>
    have split : (item :: rest).forM f = f item >>= fun _ => rest.forM f := rfl
    rw [split, then_eq_ok, ih, List.forall_mem_cons]

end Results

theorem Reference.check_eq_ok {settings : Settings} {method reference checked : Text} :
    check settings method reference = .ok checked ↔
      validate settings method reference = .ok () ∧ reference.trim = checked := by
  rw [check, then_eq_ok, pure_eq_ok]

theorem compareInput_eq_ok {settings : Settings} {method column : Text} {negated : Bool}
    {comparison : ComparisonInput} {value : Value} {predicate : Predicate} :
    compareInput settings method negated column comparison value = .ok predicate ↔
      ∃ checked operator, Reference.check settings method column = .ok checked ∧
        comparison.toComparison method = .ok operator ∧
        .compare negated checked operator value = predicate := by
  simp only [compareInput, bind_eq_ok, pure_eq_ok, exists_and_left]

theorem aggregateInput_eq_ok {settings : Settings} {function : Aggregate} {column? alias? : Option Text}
    {item : SelectItem} (given : aggregateInput settings function column? alias? = .ok item) :
    ∃ checked name, Reference.check settings function.name (aggregateColumn column?) = .ok checked ∧
      Reference.check settings function.name (alias?.getD function.name) = .ok name ∧
      .aggregate function checked name = item := by
  simp only [aggregateInput] at given
  split at given
  · obtain ⟨_, thrown, -⟩ := bind_eq_ok.1 given
    cases thrown
  · obtain ⟨checked, found, rest⟩ := bind_eq_ok.1 given
    obtain ⟨name, named, same⟩ := bind_eq_ok.1 rest
    exact ⟨checked, name, found, named, pure_eq_ok.1 same⟩

theorem joinColumn_eq_ok {settings : Settings} {table standard name : Text} {column? : Option Text} :
    joinColumn settings table standard column? = .ok name ↔
      (column? = none ∧ standard = name) ∨
      ∃ column, column? = some column ∧ Reference.validate settings "join" column = .ok () ∧
        Reference.stripTable settings.quote table column = name := by
  cases column? <;> simp only [joinColumn, then_eq_ok, pure_eq_ok, Except.ok.injEq, true_and,
    reduceCtorEq, false_and, exists_false, or_false, Option.some.injEq, exists_eq_left', false_or]

theorem joinInput_eq_ok {settings : Settings} {current table : Text}
    {left? right? operator? kind? : Option Text} {join : Join}
    (given : joinInput settings current table left? right? operator? kind? = .ok join) :
    Reference.check settings "join" table = .ok join.table ∧
      joinColumn settings current "id" left? = .ok join.left ∧
      joinColumn settings join.table
        (Reference.clean settings.quote (Reference.cutAlias current).1 ++ "_id")
        (joinOperands right? operator?).1 = .ok join.right := by
  simp only [joinInput, bind_eq_ok, pure_eq_ok] at given
  obtain ⟨checked, found, comparison, -, left, left_found, right, right_found, same⟩ := given
  subst same
  exact ⟨found, left_found, right_found⟩

namespace Statement

variable {s next : Statement}

theorem establish_eq_ok {method : Text} {kind : Kind} :
    s.establish method kind = .ok next ↔
      s.kind.admits kind ∧ touched { s with kind } = next := by
  unfold establish
  split <;> simp [*]

theorem setTable_eq_ok {method table : Text} :
    s.setTable method table = .ok next ↔ ∃ checked,
      Reference.check s.settings method table = .ok checked ∧
        touched { s with table := some checked } = next := by
  simp only [setTable, bind_eq_ok, pure_eq_ok]

theorem select_eq_ok {columns : ColumnInput} :
    s.select columns = .ok next ↔ ∃ references,
      columns.entries.mapM (Reference.check s.settings "select") = .ok references ∧
        s.addItems "select" (references.map .column) = .ok next := by
  simp only [select, bind_eq_ok]

theorem aggregate_eq_ok {function : Aggregate} {column? alias? : Option Text} :
    s.aggregate function column? alias? = .ok next ↔ ∃ item,
      aggregateInput s.settings function column? alias? = .ok item ∧
        s.addItems function.name [item] = .ok next := by
  simp only [aggregate, bind_eq_ok]

theorem join_eq_ok {table : Text} {left? right? operator? kind? : Option Text} :
    s.join table left? right? operator? kind? = .ok next ↔ ∃ current join, s.table = some current ∧
      joinInput s.settings current table left? right? operator? kind? = .ok join ∧
        touched { s with joins := s.joins ++ [join] } = next := by
  unfold join
  cases s.table with
  | none => simp
  | some current => simp only [bind_eq_ok, pure_eq_ok, Option.some.injEq, exists_and_left, exists_eq_left']

theorem wherePredicate_eq_ok {connective : ConnectiveInput} {input : PredicateInput} :
    s.wherePredicate connective input = .ok next ↔ ∃ word predicate,
      connective.toConnective "where" = .ok word ∧ input.toPredicate s.settings = .ok predicate ∧
        s.addWhere word predicate = next := by
  simp only [wherePredicate, bind_eq_ok, pure_eq_ok, exists_and_left]

theorem havingCompare_eq_ok {connective : ConnectiveInput} {negated : Bool} {column : Text}
    {comparison : ComparisonInput} {value : Value} :
    s.havingCompare connective negated column comparison value = .ok next ↔ ∃ word predicate,
      connective.toConnective "having" = .ok word ∧
        compareInput s.settings "having" negated column comparison value = .ok predicate ∧
          s.addHaving word predicate = next := by
  simp only [havingCompare, bind_eq_ok, pure_eq_ok, exists_and_left]

theorem groupBy_eq_ok {input : SortInput} {direction? : Option Text} :
    s.groupBy input direction? = .ok next ↔ ∃ entries,
      input.normalize s.settings "group_by" direction? = .ok entries ∧
        touched { s with groups := SortEntry.putAll entries s.groups } = next := by
  simp only [groupBy, bind_eq_ok, pure_eq_ok]

theorem orderBy_eq_ok {input : SortInput} {direction? : Option Text} :
    s.orderBy input direction? = .ok next ↔ ∃ entries,
      input.normalize s.settings "order_by" direction? = .ok entries ∧
        touched { s with orders := SortEntry.putAll entries s.orders } = next := by
  simp only [orderBy, bind_eq_ok, pure_eq_ok]

theorem setLimit_eq_ok {method : Text} {count : CountInput} :
    s.setLimit method count = .ok next ↔ ∃ limit, count.toCount method = .ok limit ∧
      touched { s with pagination := { s.pagination with limit } } = next := by
  simp only [setLimit, bind_eq_ok, pure_eq_ok]

theorem setOffset_eq_ok {method : Text} {count : CountInput} :
    s.setOffset method count = .ok next ↔ ∃ offset, count.toCount method = .ok offset ∧
      touched { s with pagination := { s.pagination with offset } } = next := by
  simp only [setOffset, bind_eq_ok, pure_eq_ok]

theorem paginate_eq_ok {page perPage : UInt64} :
    s.paginate page perPage = .ok next ↔ ∃ pagination,
      s.pagination.paginate page perPage = .ok pagination ∧ touched { s with pagination } = next := by
  simp only [paginate, bind_eq_ok, pure_eq_ok]

theorem insert_cons (s : Statement) (row : Row) (rest : List Row) :
    s.insert (row :: rest) = ((row :: rest).forM (Row.validate s.settings "insert") >>= fun _ =>
      s.establish "insert" (.insert (row :: rest))) := rfl

theorem insert_eq_ok {rows : List Row} :
    s.insert rows = .ok next ↔ rows ≠ [] ∧
      (∀ row ∈ rows, row.validate s.settings "insert" = .ok ()) ∧
        s.establish "insert" (.insert rows) = .ok next := by
  cases rows with
  | nil => simp [insert, throw, throwThe, MonadExceptOf.throw, Bind.bind, Except.bind]
  | cons row rest =>
    rw [insert_cons, then_eq_ok, forM_eq_ok]
    exact ⟨fun given => ⟨List.cons_ne_nil row rest, given⟩, And.right⟩

theorem update_eq_ok {row : Row} :
    s.update row = .ok next ↔ row.validate s.settings "update" = .ok () ∧
      s.establish "update" (.update row) = .ok next := by
  simp only [update, then_eq_ok]

theorem union_of_unset (s : Statement) (all : Bool) (members : List Statement) (unset : s.kind = .unset) :
    s.union all members =
      if members.isEmpty then .error (.invalidArgument (unionMethod all) .noStatements)
      else s.establish (unionMethod all) (.union all (s :: members)) := by
  rw [union, unset]

theorem union_of_established (s : Statement) (all : Bool) (members : List Statement)
    (established : s.kind ≠ .unset) :
    s.union all members = .error (.conflictingKind (unionMethod all) s.kind.name) := by
  unfold union
  split
  · contradiction
  · rfl

theorem union_eq_ok {all : Bool} {members : List Statement} :
    s.union all members = .ok next ↔ s.kind = .unset ∧ members ≠ [] ∧
      touched { s with kind := .union all (s :: members) } = next := by
  by_cases unset : s.kind = .unset
  · rw [union_of_unset _ _ _ unset]
    by_cases empty : members = []
    · simp [empty]
    · simp [empty, unset, establish_eq_ok, Kind.admits]
  · rw [union_of_established _ _ _ unset]
    simp [unset]

end Statement

namespace Edit

variable {s next : Statement}

theorem insert_eq_ok {input : RowsInput} :
    (Edit.insert input).apply s = .ok next ↔ ∃ rows, input.toRows = .ok rows ∧
      s.insert rows = .ok next := by
  simp only [apply, bind_eq_ok]

theorem update_eq_ok {input : RowInput} :
    (Edit.update input).apply s = .ok next ↔ ∃ row, input.toRow = .ok row ∧
      s.update row = .ok next := by
  simp only [apply, bind_eq_ok]

theorem addReferenceChars_eq_ok {chars : ReferenceChars} :
    (Edit.addReferenceChars chars).apply s = .ok next ↔ ∃ list, chars.toChars = .ok list ∧
      { s with settings := s.settings.addReferenceChars list } = next := by
  simp only [apply, bind_eq_ok, pure_eq_ok]

theorem setQuote_eq_ok {text : Text} :
    (Edit.setQuote text).apply s = .ok next ↔ ∃ quote, Quote.ofText text = .ok quote ∧
      { s with settings := { s.settings with quote } } = next := by
  simp only [apply, bind_eq_ok, pure_eq_ok]

end Edit

end SqlComposer
