import SqlComposer.Proofs.Characters
import SqlComposer.Proofs.Nesting

set_option autoImplicit false

namespace SqlComposer

def SelectItem.references : SelectItem → List Text
  | .column reference => [reference]
  | .fragment _ => []
  | .aggregate _ reference name => [reference, name]

def SortEntry.references : SortEntry → List Text
  | .column reference _ => [reference]
  | .random => []

def Join.references (join : Join) : List Text := [join.table, join.left, join.right]

def Kind.references : Kind → List Text
  | .select items => items.flatMap SelectItem.references
  | .insert rows => rows.flatMap Row.columns
  | .update row => row.columns
  | _ => []

def Statement.references (s : Statement) : List Text :=
  s.table.toList ++ s.kind.references ++ s.joins.flatMap Join.references ++
    (s.groups ++ s.orders).flatMap SortEntry.references

variable {mark : Char} {P : Settings → Prop} {D R J : Text → Prop}

structure Reference.Kept (P : Settings → Prop) (R J : Text → Prop) : Prop where
  given : ∀ {settings : Settings} {method text : Text}, P settings →
    validate settings method text = .ok () → R text ∧ R text.trim
  stripped : ∀ {settings : Settings} {method text : Text} (table : Text), P settings →
    validate settings method text = .ok () → J (stripTable settings.quote table text)
  identity : J "id"
  named : ∀ {settings : Settings} {current : Text}, P settings → R current →
    J (clean settings.quote (cutAlias current).1 ++ "_id")

theorem Reference.Kept.checked (kept : Kept P R J) {settings : Settings} {method text checked : Text}
    (allowed : P settings) (found : check settings method text = .ok checked) : R checked := by
  obtain ⟨valid, rfl⟩ := check_eq_ok.1 found
  exact (kept.given allowed valid).2

def SelectItem.Holds (D R : Text → Prop) : SelectItem → Prop
  | .column reference => R reference
  | .fragment _ => True
  | .aggregate _ reference name => R reference ∧ D name

def Kind.Holds (D R : Text → Prop) : Kind → Prop
  | .select items => ∀ item ∈ items, item.Holds D R
  | .insert rows => ∀ row ∈ rows, ∀ column ∈ row.columns, D column
  | .update row => ∀ column ∈ row.columns, R column
  | _ => True

structure Join.Holds (D J : Text → Prop) (join : Join) : Prop where
  table : D join.table
  left : J join.left
  right : J join.right

structure Statement.Holds (D R J : Text → Prop) (s : Statement) : Prop where
  table : ∀ table ∈ s.table, D table
  kind : s.kind.Holds D R
  joins : ∀ join ∈ s.joins, join.Holds D J
  groups : ∀ entry ∈ s.groups, ∀ reference ∈ entry.references, R reference
  orders : ∀ entry ∈ s.orders, ∀ reference ∈ entry.references, R reference

def Predicate.Holds (R : Text → Prop) (predicate : Predicate) : Prop :=
  ∀ reference ∈ predicate.references, R reference

def Statement.Unmarked (mark : Char) (s : Statement) : Prop :=
  ∀ reference ∈ s.references, mark ∉ reference

def Predicate.Unmarked (mark : Char) (predicate : Predicate) : Prop :=
  ∀ reference ∈ predicate.references, mark ∉ reference

theorem forall_mem_flatMap {A B : Type} {f : A → List B} {items : List A} {p : B → Prop} :
    (∀ b ∈ items.flatMap f, p b) ↔ ∀ a ∈ items, ∀ b ∈ f a, p b := by
  simp only [List.mem_flatMap, forall_exists_index, and_imp]
  exact ⟨fun all a member b inside => all b a member inside,
    fun all b a member inside => all a member b inside⟩

theorem Join.holds_iff {join : Join} : join.Holds R R ↔ ∀ reference ∈ join.references, R reference := by
  simp only [references, List.forall_mem_cons, List.not_mem_nil, false_imp_iff, implies_true, and_true]
  exact ⟨fun ⟨table, left, right⟩ => ⟨table, left, right⟩, fun ⟨table, left, right⟩ => ⟨table, left, right⟩⟩

theorem Kind.items_holds {kind : Kind} (holds : kind.Holds D R) : ∀ item ∈ kind.items, item.Holds D R := by
  cases kind with
  | select items => exact holds
  | _ => simp [Kind.items]

theorem Kind.Holds.imp {D' R' : Text → Prop} {kind : Kind} (direct : ∀ text, D text → D' text)
    (column : ∀ text, R text → R' text) (holds : kind.Holds D R) : kind.Holds D' R' := by
  cases kind with
  | select items =>
    intro item member
    have known := holds item member
    cases item with
    | column reference => exact column reference known
    | fragment text => trivial
    | aggregate function reference name => exact ⟨column reference known.1, direct name known.2⟩
  | insert rows => exact fun row member name inside => direct name (holds row member name inside)
  | update row => exact fun name inside => column name (holds name inside)
  | _ => trivial

theorem Kind.Holds.and {D' R' : Text → Prop} {kind : Kind} (first : kind.Holds D R)
    (second : kind.Holds D' R') :
    kind.Holds (fun text => D text ∧ D' text) fun text => R text ∧ R' text := by
  cases kind with
  | select items =>
    intro item member
    have known := first item member
    have known' := second item member
    cases item with
    | column => exact ⟨known, known'⟩
    | fragment => trivial
    | aggregate => exact ⟨⟨known.1, known'.1⟩, known.2, known'.2⟩
  | insert rows =>
    exact fun row member name inside => ⟨first row member name inside, second row member name inside⟩
  | update row => exact fun name inside => ⟨first name inside, second name inside⟩
  | _ => trivial

theorem SelectItem.holds_iff {item : SelectItem} :
    item.Holds R R ↔ ∀ reference ∈ item.references, R reference := by
  cases item <;> simp [SelectItem.Holds, references]

theorem Kind.holds_iff {kind : Kind} : kind.Holds R R ↔ ∀ reference ∈ kind.references, R reference := by
  cases kind <;>
    simp only [Kind.Holds, references, forall_mem_flatMap, SelectItem.holds_iff, List.not_mem_nil,
      false_imp_iff, implies_true]

namespace Statement

variable {s : Statement}

theorem holds_iff : s.Holds R R R ↔ ∀ reference ∈ s.references, R reference := by
  simp only [references, List.forall_mem_append, forall_mem_flatMap, Option.mem_toList,
    ← Join.holds_iff, ← Kind.holds_iff]
  exact ⟨fun holds => ⟨⟨⟨holds.table, holds.kind⟩, holds.joins⟩, holds.groups, holds.orders⟩,
    fun ⟨⟨⟨table, kind⟩, joins⟩, groups, orders⟩ => ⟨table, kind, joins, groups, orders⟩⟩

theorem unmarked_iff : s.Unmarked mark ↔
    (∀ table ∈ s.table, mark ∉ table) ∧ (∀ reference ∈ s.kind.references, mark ∉ reference) ∧
      (∀ join ∈ s.joins, ∀ reference ∈ join.references, mark ∉ reference) ∧
      (∀ entry ∈ s.groups, ∀ reference ∈ entry.references, mark ∉ reference) ∧
      ∀ entry ∈ s.orders, ∀ reference ∈ entry.references, mark ∉ reference := by
  simp only [Unmarked, references, List.forall_mem_append, forall_mem_flatMap, Option.mem_toList,
    Option.mem_def, and_assoc]

end Statement

namespace SortEntry

theorem references_put {column : Text} {direction : Direction} {entries : List SortEntry}
    {entry : SortEntry} (member : entry ∈ put column direction entries) {reference : Text}
    (inside : reference ∈ entry.references) :
    reference = column ∨ ∃ old ∈ entries, reference ∈ old.references := by
  fun_induction put column direction entries with
  | case1 =>
    obtain rfl := List.mem_singleton.1 member
    exact .inl (List.mem_singleton.1 inside)
  | case2 old rest =>
    rcases List.mem_cons.1 member with rfl | later
    · exact .inl (List.mem_singleton.1 inside)
    · exact .inr ⟨entry, by simp [later], inside⟩
  | case3 other old rest differs ih =>
    rcases List.mem_cons.1 member with rfl | later
    · exact .inr ⟨_, by simp, inside⟩
    · rcases ih later with same | ⟨kept, present, holds⟩
      · exact .inl same
      · exact .inr ⟨kept, by simp [present], holds⟩
  | case4 rest ih =>
    rcases List.mem_cons.1 member with rfl | later
    · cases inside
    · rcases ih later with same | ⟨kept, present, holds⟩
      · exact .inl same
      · exact .inr ⟨kept, by simp [present], holds⟩

theorem references_putAll {pairs : List (Text × Direction)} {entries : List SortEntry}
    (added : ∀ pair ∈ pairs, R pair.1)
    (held : ∀ entry ∈ entries, ∀ reference ∈ entry.references, R reference) :
    ∀ entry ∈ putAll pairs entries, ∀ reference ∈ entry.references, R reference := by
  induction pairs generalizing entries with
  | nil => exact held
  | cons pair rest ih =>
    refine ih (fun other member => added other (by simp [member])) fun entry member reference inside => ?_
    rcases references_put member inside with rfl | ⟨old, present, holds⟩
    · exact added pair (by simp)
    · exact held old present reference holds

end SortEntry

namespace SortInput

variable {settings : Settings} {method : Text} {direction? : Option Text}

theorem parseList_holds {A : Type} {parse : A → Except Error (Text × Direction)} {items : List A}
    {pairs : List (Text × Direction)} (each : ∀ item pair, parse item = .ok pair → R pair.1)
    (given : parseList method direction? parse items = .ok pairs) : ∀ pair ∈ pairs, R pair.1 := by
  unfold parseList at given
  split at given
  · cases given
  · intro pair member
    obtain ⟨item, -, parsed⟩ := mem_of_mapM_eq_ok given pair member
    exact each item pair parsed

variable (kept : Reference.Kept P R J) (allowed : P settings)

include kept allowed

theorem parseToken_holds (token : Text) (pair : Text × Direction)
    (given : parseToken settings method token = .ok pair) : R pair.1 := by
  unfold parseToken at given
  obtain ⟨valid, given⟩ := then_eq_ok.1 given
  obtain ⟨direction, -, given⟩ := bind_eq_ok.1 given
  obtain rfl := pure_eq_ok.1 given
  exact (kept.given allowed valid).1

theorem parsePair_holds (given : Text × Text) (pair : Text × Direction)
    (parsed : parsePair settings method given = .ok pair) : R pair.1 := by
  unfold parsePair at parsed
  obtain ⟨column, found, parsed⟩ := bind_eq_ok.1 parsed
  obtain ⟨direction, -, parsed⟩ := bind_eq_ok.1 parsed
  obtain rfl := pure_eq_ok.1 parsed
  exact kept.checked allowed found

theorem normalize_holds {input : SortInput} {pairs : List (Text × Direction)}
    (given : input.normalize settings method direction? = .ok pairs) : ∀ pair ∈ pairs, R pair.1 := by
  cases input with
  | text value =>
    simp only [normalize] at given
    split at given
    · exact parseList_holds (parseToken_holds kept allowed) given
    · obtain ⟨valid, given⟩ := then_eq_ok.1 given
      obtain ⟨direction, -, given⟩ := bind_eq_ok.1 given
      obtain rfl := pure_eq_ok.1 given
      intro pair member
      obtain rfl := List.mem_singleton.1 member
      exact (kept.given allowed valid).1
  | tokens values => exact parseList_holds (parseToken_holds kept allowed) given
  | pairs values => exact parseList_holds (parsePair_holds kept allowed) given

end SortInput

section Given

variable {settings : Settings} (kept : Reference.Kept P R J) (allowed : P settings)

include kept allowed

theorem Predicate.MadeIn.holds {predicate : Predicate} (made : predicate.MadeIn settings) :
    predicate.Holds R := by
  intro reference member
  obtain ⟨method, given, found⟩ := made.checked reference member
  exact kept.checked allowed found

theorem joinColumn_holds {table standard name : Text} {column? : Option Text} (plain : J standard)
    (given : joinColumn settings table standard column? = .ok name) : J name := by
  rcases joinColumn_eq_ok.1 given with ⟨-, rfl⟩ | ⟨column, -, valid, rfl⟩
  · exact plain
  · exact kept.stripped table allowed valid

theorem joinInput_holds {current table : Text} {left? right? operator? kind? : Option Text} {join : Join}
    (named : R current)
    (given : joinInput settings current table left? right? operator? kind? = .ok join) :
    join.Holds R J := by
  obtain ⟨found, left, right⟩ := joinInput_eq_ok given
  exact ⟨kept.checked allowed found, joinColumn_holds kept allowed kept.identity left,
    joinColumn_holds kept allowed (kept.named allowed named) right⟩

theorem Row.validate_holds {method : Text} {row : Row} (valid : row.validate settings method = .ok ()) :
    ∀ column ∈ row.columns, R column := by
  unfold Row.validate at valid
  split at valid
  · cases valid
  · intro column member
    exact (kept.given allowed (forM_eq_ok.1 valid column member)).1

end Given

namespace Statement

variable {s next : Statement}

theorem Holds.establish {method : Text} {kind : Kind} (holds : s.Holds D R J)
    (references : kind.Holds D R) (done : s.establish method kind = .ok next) : next.Holds D R J := by
  obtain ⟨-, rfl⟩ := establish_eq_ok.1 done
  exact { holds with kind := references }

theorem Holds.addItems {method : Text} {items : List SelectItem} (holds : s.Holds D R J)
    (added : ∀ item ∈ items, item.Holds D R) (done : s.addItems method items = .ok next) :
    next.Holds D R J := by
  refine holds.establish ?_ done
  intro item member
  rcases List.mem_append.1 member with old | new
  · exact Kind.items_holds holds.kind item old
  · exact added item new

theorem Holds.imp {D' R' J' : Text → Prop} (direct : ∀ text, D text → D' text)
    (column : ∀ text, R text → R' text) (joined : ∀ text, J text → J' text) (holds : s.Holds D R J) :
    s.Holds D' R' J' where
  table table present := direct table (holds.table table present)
  kind := holds.kind.imp direct column
  joins join member :=
    have known := holds.joins join member
    ⟨direct _ known.table, joined _ known.left, joined _ known.right⟩
  groups entry member reference inside := column reference (holds.groups entry member reference inside)
  orders entry member reference inside := column reference (holds.orders entry member reference inside)

theorem Holds.and {D' R' J' : Text → Prop} (first : s.Holds D R J) (second : s.Holds D' R' J') :
    s.Holds (fun text => D text ∧ D' text) (fun text => R text ∧ R' text)
      fun text => J text ∧ J' text where
  table table present := ⟨first.table table present, second.table table present⟩
  kind := first.kind.and second.kind
  joins join member :=
    have known := first.joins join member
    have known' := second.joins join member
    ⟨⟨known.table, known'.table⟩, ⟨known.left, known'.left⟩, known.right, known'.right⟩
  groups entry member reference inside :=
    ⟨first.groups entry member reference inside, second.groups entry member reference inside⟩
  orders entry member reference inside :=
    ⟨first.orders entry member reference inside, second.orders entry member reference inside⟩

-- The table is all that a new statement can hold.
theorem holds_new {settings : Settings} {table : Option Text} (named : ∀ name ∈ table, D name) :
    ({ new settings with table } : Statement).Holds D R J :=
  ⟨named, trivial, by simp [new], by simp [new], by simp [new]⟩

theorem Holds.retained (holds : s.Holds D R J) (keep : Bool) :
    ∀ name ∈ (if keep then s.table else none), D name := by
  cases keep with
  | false => simp
  | true => exact holds.table

end Statement

section Kept

variable (kept : Reference.Kept P R J)

include kept

theorem Edit.apply_holds {s next : Statement} (edit : Edit) (allowed : P s.settings)
    (holds : s.Holds R R J) (applied : edit.apply s = .ok next) : next.Holds R R J := by
  cases edit with
  | fromTable | table =>
    obtain ⟨checked, found, rfl⟩ := Statement.setTable_eq_ok.1 applied
    refine { holds with table := ?_ }
    rintro _ ⟨⟩
    exact kept.checked allowed found
  | select =>
    obtain ⟨references, mapped, added⟩ := Statement.select_eq_ok.1 applied
    refine holds.addItems ?_ added
    intro item member
    obtain ⟨column, present, rfl⟩ := List.mem_map.1 member
    obtain ⟨given, -, found⟩ := mem_of_mapM_eq_ok mapped _ present
    exact kept.checked allowed found
  | selectRaw =>
    refine holds.addItems ?_ applied
    intro item member
    obtain ⟨text, -, rfl⟩ := List.mem_map.1 member
    trivial
  | aggregate =>
    obtain ⟨item, made, added⟩ := Statement.aggregate_eq_ok.1 applied
    obtain ⟨checked, name, found, named, rfl⟩ := aggregateInput_eq_ok made
    refine holds.addItems ?_ added
    intro item member
    obtain rfl := List.mem_singleton.1 member
    exact ⟨kept.checked allowed found, kept.checked allowed named⟩
  | join =>
    obtain ⟨current, join, present, made, rfl⟩ := Statement.join_eq_ok.1 applied
    refine { holds with joins := ?_ }
    intro other member
    rcases List.mem_append.1 member with old | new
    · exact holds.joins other old
    · obtain rfl := List.mem_singleton.1 new
      exact joinInput_holds kept allowed (holds.table current present) made
  | orderByRandom =>
    obtain rfl := Except.ok.inj applied
    refine { holds with orders := ?_ }
    intro entry member
    rcases List.mem_append.1 member with old | new
    · exact holds.orders entry old
    · obtain rfl := List.mem_singleton.1 new
      simp [SortEntry.references]
  | distinct =>
    obtain rfl := Except.ok.inj applied
    exact { holds with }
  | wherePredicate =>
    obtain ⟨word, predicate, -, -, rfl⟩ := Statement.wherePredicate_eq_ok.1 applied
    exact { holds with }
  | havingCompare =>
    obtain ⟨word, predicate, -, -, rfl⟩ := Statement.havingCompare_eq_ok.1 applied
    exact { holds with }
  | groupBy =>
    obtain ⟨entries, made, rfl⟩ := Statement.groupBy_eq_ok.1 applied
    exact { holds with
      groups := SortEntry.references_putAll (SortInput.normalize_holds kept allowed made) holds.groups }
  | orderBy =>
    obtain ⟨entries, made, rfl⟩ := Statement.orderBy_eq_ok.1 applied
    exact { holds with
      orders := SortEntry.references_putAll (SortInput.normalize_holds kept allowed made) holds.orders }
  | limit | take =>
    obtain ⟨limit, -, rfl⟩ := Statement.setLimit_eq_ok.1 applied
    exact { holds with }
  | offset | skip =>
    obtain ⟨offset, -, rfl⟩ := Statement.setOffset_eq_ok.1 applied
    exact { holds with }
  | paginate =>
    obtain ⟨pagination, -, rfl⟩ := Statement.paginate_eq_ok.1 applied
    exact { holds with }
  | insert =>
    obtain ⟨rows, -, inserted⟩ := Edit.insert_eq_ok.1 applied
    obtain ⟨-, valid, established⟩ := Statement.insert_eq_ok.1 inserted
    refine holds.establish ?_ established
    exact fun row member => Row.validate_holds kept allowed (valid row member)
  | update =>
    obtain ⟨row, -, updated⟩ := Edit.update_eq_ok.1 applied
    obtain ⟨valid, established⟩ := Statement.update_eq_ok.1 updated
    refine holds.establish ?_ established
    exact Row.validate_holds kept allowed valid
  | delete | truncate =>
    refine holds.establish ?_ applied
    trivial
  | addReferenceChars =>
    obtain ⟨list, -, rfl⟩ := Edit.addReferenceChars_eq_ok.1 applied
    exact { holds with }
  | setQuote =>
    obtain ⟨quote, -, rfl⟩ := Edit.setQuote_eq_ok.1 applied
    exact { holds with }
  | reset =>
    obtain rfl := Except.ok.inj applied
    exact Statement.holds_new (holds.retained s.settings.retainTable)

theorem nested_holds : Nested P (Statement.Holds R R J) (Predicate.Holds R) where
  new settings _ := Statement.holds_new (by simp)
  child bound _ holds := Statement.holds_new (holds.retained bound)
  edit edit allowed _ holds applied := edit.apply_holds kept allowed holds applied
  compiled holds := { holds with }
  addWhere _ _ holds := { holds with }
  havingGroup _ _ holds _ := { holds with }
  union holds made := by
    obtain ⟨-, -, rfl⟩ := Statement.union_eq_ok.1 made
    exact { holds with kind := trivial }
  predicate allowed made := made.holds kept allowed
  group negated conditions _ := by simp [Predicate.Holds, Predicate.references]
  inQuery negated _ checked query allowed found := by
    intro reference member
    obtain rfl := List.mem_singleton.1 member
    exact kept.checked allowed found
  existsQuery negated query := by simp [Predicate.Holds, Predicate.references]

theorem Reachable.holds {s : Statement} (reached : Reachable P s) :
    s.Every (Statement.Holds R R J) (Predicate.Holds R) :=
  reached.invariant (nested_holds kept).invariant

end Kept

section Unmarked

variable (foreign : Reference.IsForeign mark)

include foreign

theorem Reference.kept_unmarked :
    Kept (fun settings => settings.allows mark = false) (mark ∉ ·) (mark ∉ ·) where
  given banned valid :=
    have absent := not_mem_of_validate foreign banned valid
    ⟨absent, fun member => absent (Text.mem_of_mem_trim member)⟩
  stripped _ banned valid member :=
    not_mem_of_validate foreign banned valid (mem_of_mem_stripTable member)
  identity := foreign.not_mem (by decide)
  named _ absent member := by
    rcases List.mem_append.1 member with named | suffixed
    · exact absent (mem_of_mem_parts (cutAlias_fst_mem_parts _) (mem_of_mem_clean named))
    · exact foreign.not_mem (by decide) suffixed

theorem Reachable.unmarked {s : Statement}
    (reached : Reachable (fun settings => settings.allows mark = false) s) :
    s.Every (Statement.Unmarked mark) (Predicate.Unmarked mark) :=
  (reached.holds (Reference.kept_unmarked foreign)).imp (fun _ holds => Statement.holds_iff.1 holds)
    fun _ holds => holds

end Unmarked

end SqlComposer
