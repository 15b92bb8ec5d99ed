import SqlComposer.Proofs.Operations

set_option autoImplicit false

namespace SqlComposer

namespace Predicate

def isLeaf : Predicate → Bool
  | .inQuery .. | .existsQuery .. | .group .. => false
  | _ => true

def references : Predicate → List Text
  | .compare _ column _ _ | .between _ column _ _ | .inValues _ column _ | .inQuery _ column _
  | .isNull _ column | .datePart _ column _ _ => [column]
  | .columns left _ right => [left, right]
  | .existsQuery .. | .fragment .. | .group .. => []

structure MadeIn (settings : Settings) (predicate : Predicate) : Prop where
  leaf : predicate.isLeaf
  checked : ∀ reference ∈ predicate.references, ∃ method given,
    Reference.check settings method given = .ok reference
  balanced : ∀ negated text values, predicate = .fragment negated text values →
    text.count '?' = values.length
  listed : ∀ negated column values, predicate = .inValues negated column values → values ≠ []

end Predicate

section Making

variable {settings : Settings} {predicate : Predicate}

theorem checked_single {method given column : Text}
    (found : Reference.check settings method given = .ok column) :
    ∀ reference ∈ [column], ∃ method given, Reference.check settings method given = .ok reference := by
  intro reference member
  obtain rfl := List.mem_singleton.1 member
  exact ⟨method, given, found⟩

theorem madeIn_of_compareInput {method column : Text} {negated : Bool} {comparison : ComparisonInput}
    {value : Value}
    (given : compareInput settings method negated column comparison value = .ok predicate) :
    predicate.MadeIn settings := by
  obtain ⟨checked, operator, found, -, rfl⟩ := compareInput_eq_ok.1 given
  exact ⟨rfl, checked_single found, by simp, by simp⟩

theorem PredicateInput.madeIn_of_toPredicate {input : PredicateInput}
    (given : input.toPredicate settings = .ok predicate) : predicate.MadeIn settings := by
  cases input with
  | compare => exact madeIn_of_compareInput given
  | between | isNull =>
    obtain ⟨checked, found, given⟩ := bind_eq_ok.1 given
    obtain rfl := Except.ok.inj given
    exact ⟨rfl, checked_single found, by simp, by simp⟩
  | inValues negated column values =>
    obtain ⟨checked, found, given⟩ := bind_eq_ok.1 given
    split at given
    · cases given
    · next some =>
      obtain rfl := Except.ok.inj given
      refine ⟨rfl, checked_single found, by simp, ?_⟩
      rintro _ _ _ ⟨⟩ rfl
      exact some rfl
  | columns =>
    obtain ⟨left, left_found, given⟩ := bind_eq_ok.1 given
    obtain ⟨comparison, -, given⟩ := bind_eq_ok.1 given
    obtain ⟨right, right_found, given⟩ := bind_eq_ok.1 given
    obtain rfl := Except.ok.inj given
    refine ⟨rfl, ?_, by simp, by simp⟩
    intro reference member
    rcases List.mem_cons.1 member with rfl | last
    · exact ⟨_, _, left_found⟩
    · exact checked_single right_found reference last
  | datePart =>
    obtain ⟨checked, found, given⟩ := bind_eq_ok.1 given
    obtain ⟨comparison, -, given⟩ := bind_eq_ok.1 given
    obtain rfl := Except.ok.inj given
    exact ⟨rfl, checked_single found, by simp, by simp⟩
  | fragment =>
    simp only [toPredicate] at given
    split at given
    · next counted =>
      obtain rfl := Except.ok.inj given
      refine ⟨rfl, by simp [Predicate.references], ?_, by simp⟩
      rintro _ _ _ ⟨⟩
      exact counted
    · cases given

end Making

def Kind.Solid : Kind → Prop
  | .unset | .union .. => False
  | .insert rows => rows ≠ [] ∧ ∀ row ∈ rows, row.columns ≠ []
  | .update row => row.columns ≠ []
  | .select _ | .delete | .truncate => True

theorem Row.columns_ne_nil {settings : Settings} {method : Text} {row : Row}
    (valid : row.validate settings method = .ok ()) : row.columns ≠ [] := by
  unfold validate at valid
  split at valid
  · cases valid
  · next filled => simpa [columns, Keyed.keys, isEmpty] using filled

namespace Edit

def configures : Edit → Bool
  | .addReferenceChars _ | .setQuote _ => true
  | _ => false

def kindName? : Edit → Option Text
  | .select _ | .selectRaw _ | .aggregate .. => some "select"
  | .insert _ => some "insert"
  | .update _ => some "update"
  | .delete => some "delete"
  | .truncate => some "truncate"
  | _ => none

inductive Effect (edit : Edit) (s : Statement) : Statement → Prop where
  | clauses (plain : edit.kindName? = none) (distinct : Bool) (table : Option Text)
      (joins : List Join) (groups orders : List SortEntry) (pagination : Pagination) :
      Effect edit s (.touched { s with distinct, table, joins, groups, orders, pagination })
  | established (kind : Kind) (admitted : s.kind.admits kind) (solid : kind.Solid)
      (named : edit.kindName? = some kind.name) : Effect edit s (.touched { s with kind })
  | filtered (plain : edit.kindName? = none) (connective : Connective) (predicate : Predicate)
      (made : predicate.MadeIn s.settings) : Effect edit s (s.addWhere connective predicate)
  | compared (plain : edit.kindName? = none) (connective : Connective) (negated : Bool)
      (column : Text) (comparison : Comparison) (value : Value)
      (made : (Predicate.compare negated column comparison value).MadeIn s.settings) :
      Effect edit s (s.addHaving connective (.compare negated column comparison value))
  | configured (settings : Settings) (configures : edit.configures) : Effect edit s { s with settings }
  | cleared (resets : edit = .reset) : Effect edit s s.reset

variable {edit : Edit} {s next : Statement}

theorem Effect.establish {method : Text} {kind : Kind} (done : s.establish method kind = .ok next)
    (solid : kind.Solid) (named : edit.kindName? = some kind.name) : edit.Effect s next := by
  obtain ⟨admitted, rfl⟩ := Statement.establish_eq_ok.1 done
  exact .established kind admitted solid named

theorem effect (applied : edit.apply s = .ok next) : edit.Effect s next := by
  cases edit with
  | fromTable | table =>
    obtain ⟨checked, -, rfl⟩ := Statement.setTable_eq_ok.1 applied
    exact .clauses rfl ..
  | select =>
    obtain ⟨references, -, added⟩ := Statement.select_eq_ok.1 applied
    exact .establish added trivial rfl
  | aggregate =>
    obtain ⟨item, -, added⟩ := Statement.aggregate_eq_ok.1 applied
    exact .establish added trivial rfl
  | selectRaw | delete | truncate => exact .establish applied trivial rfl
  | distinct | orderByRandom =>
    obtain rfl := Except.ok.inj applied
    exact .clauses rfl ..
  | join =>
    obtain ⟨current, join, -, -, rfl⟩ := Statement.join_eq_ok.1 applied
    exact .clauses rfl ..
  | wherePredicate =>
    obtain ⟨word, predicate, -, found, rfl⟩ := Statement.wherePredicate_eq_ok.1 applied
    exact .filtered rfl word predicate (PredicateInput.madeIn_of_toPredicate found)
  | havingCompare =>
    obtain ⟨word, predicate, -, found, rfl⟩ := Statement.havingCompare_eq_ok.1 applied
    have made := madeIn_of_compareInput found
    obtain ⟨checked, operator, -, -, rfl⟩ := compareInput_eq_ok.1 found
    exact .compared rfl word _ _ _ _ made
  | groupBy =>
    obtain ⟨entries, -, rfl⟩ := Statement.groupBy_eq_ok.1 applied
    exact .clauses rfl ..
  | orderBy =>
    obtain ⟨entries, -, rfl⟩ := Statement.orderBy_eq_ok.1 applied
    exact .clauses rfl ..
  | limit | take =>
    obtain ⟨limit, -, rfl⟩ := Statement.setLimit_eq_ok.1 applied
    exact .clauses rfl ..
  | offset | skip =>
    obtain ⟨offset, -, rfl⟩ := Statement.setOffset_eq_ok.1 applied
    exact .clauses rfl ..
  | paginate =>
    obtain ⟨pagination, -, rfl⟩ := Statement.paginate_eq_ok.1 applied
    exact .clauses rfl ..
  | insert =>
    obtain ⟨rows, -, inserted⟩ := Edit.insert_eq_ok.1 applied
    obtain ⟨some, valid, done⟩ := Statement.insert_eq_ok.1 inserted
    exact .establish done ⟨some, fun row member => Row.columns_ne_nil (valid row member)⟩ rfl
  | update =>
    obtain ⟨row, -, updated⟩ := Edit.update_eq_ok.1 applied
    obtain ⟨valid, done⟩ := Statement.update_eq_ok.1 updated
    exact .establish done (Row.columns_ne_nil valid) rfl
  | addReferenceChars =>
    obtain ⟨list, -, rfl⟩ := Edit.addReferenceChars_eq_ok.1 applied
    exact .configured _ rfl
  | setQuote =>
    obtain ⟨quote, -, rfl⟩ := Edit.setQuote_eq_ok.1 applied
    exact .configured _ rfl
  | reset =>
    obtain rfl := Except.ok.inj applied
    exact .cleared rfl

theorem settings_apply (plain : edit.configures = false) (applied : edit.apply s = .ok next) :
    next.settings = s.settings := by
  cases effect applied with
  | configured _ configures => simp [plain] at configures
  | _ => rfl

end Edit

end SqlComposer
