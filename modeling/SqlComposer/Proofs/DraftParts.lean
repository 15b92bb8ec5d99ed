import SqlComposer.Draft
import SqlComposer.Proofs.Every

set_option autoImplicit false

namespace SqlComposer

mutual

def Draft.Every (P : Draft → Prop) (Q : DraftPredicate → Prop) : Draft → Prop
  | ⟨settings, stage, kind, explicit, items, distinct, table, joins, wheres, groups, havings, orders,
      pagination⟩ =>
    P ⟨settings, stage, kind, explicit, items, distinct, table, joins, wheres, groups, havings, orders,
      pagination⟩ ∧
      kind.Every P Q ∧ DraftCondition.EveryOf P Q wheres ∧ DraftCondition.EveryOf P Q havings

def DraftKind.Every (P : Draft → Prop) (Q : DraftPredicate → Prop) : DraftKind → Prop
  | .union _ members => Draft.EveryOf P Q members
  | _ => True

def Draft.EveryOf (P : Draft → Prop) (Q : DraftPredicate → Prop) : List Draft → Prop
  | [] => True
  | member :: rest => member.Every P Q ∧ Draft.EveryOf P Q rest

def DraftCondition.EveryOf (P : Draft → Prop) (Q : DraftPredicate → Prop) : List DraftCondition → Prop
  | [] => True
  | ⟨_, predicate⟩ :: rest => predicate.Every P Q ∧ DraftCondition.EveryOf P Q rest

def DraftPredicate.Every (P : Draft → Prop) (Q : DraftPredicate → Prop) : DraftPredicate → Prop
  | .plain predicate => Q (.plain predicate)
  | .inQuery negated column query => Q (.inQuery negated column query) ∧ query.Every P Q
  | .existsQuery negated query => Q (.existsQuery negated query) ∧ query.Every P Q
  | .group negated conditions => Q (.group negated conditions) ∧ DraftCondition.EveryOf P Q conditions

end

variable {P : Draft → Prop} {Q : DraftPredicate → Prop} {d next : Draft}

theorem Draft.every_iff (d : Draft) : d.Every P Q ↔
    P d ∧ d.kind.Every P Q ∧ DraftCondition.EveryOf P Q d.wheres ∧ DraftCondition.EveryOf P Q d.havings := by
  cases d
  rfl

theorem Draft.everyOf_iff (members : List Draft) :
    Draft.EveryOf P Q members ↔ ∀ member ∈ members, member.Every P Q := by
  induction members with
  | nil => simp [Draft.EveryOf]
  | cons member rest ih => simp [Draft.EveryOf, ih]

theorem DraftCondition.everyOf_concat (conditions : List DraftCondition) (connective : Connective)
    (predicate : DraftPredicate) :
    DraftCondition.EveryOf P Q (conditions ++ [⟨connective, predicate⟩]) ↔
      DraftCondition.EveryOf P Q conditions ∧ predicate.Every P Q := by
  induction conditions with
  | nil => simp [DraftCondition.EveryOf]
  | cons first rest ih =>
    cases first
    simp [DraftCondition.EveryOf, ih, and_assoc]

namespace Draft.Every

theorem own (every : d.Every P Q) : P d := ((every_iff d).1 every).1

theorem step (every : d.Every P Q) (own : P next) (kind : next.kind = d.kind)
    (wheres : next.wheres = d.wheres) (havings : next.havings = d.havings) : next.Every P Q := by
  obtain ⟨-, inKind, inWheres, inHavings⟩ := (every_iff d).1 every
  refine (every_iff next).2 ⟨own, ?_, ?_, ?_⟩
  · rwa [kind]
  · rwa [wheres]
  · rwa [havings]

theorem setKind (every : d.Every P Q) {kind : DraftKind} (inKind : kind.Every P Q)
    (own : P (touched { d with kind, explicit := true })) :
    (touched { d with kind, explicit := true }).Every P Q := by
  obtain ⟨-, -, inWheres, inHavings⟩ := (every_iff d).1 every
  exact (every_iff _).2 ⟨own, inKind, inWheres, inHavings⟩

theorem addWhere (every : d.Every P Q) {connective : Connective} {predicate : DraftPredicate}
    (own : P (d.addWhere connective predicate)) (inside : predicate.Every P Q) :
    (d.addWhere connective predicate).Every P Q := by
  obtain ⟨-, inKind, inWheres, inHavings⟩ := (every_iff d).1 every
  exact (every_iff _).2
    ⟨own, inKind, (DraftCondition.everyOf_concat ..).2 ⟨inWheres, inside⟩, inHavings⟩

theorem addHaving (every : d.Every P Q) {connective : Connective} {predicate : DraftPredicate}
    (own : P (d.addHaving connective predicate)) (inside : predicate.Every P Q) :
    (d.addHaving connective predicate).Every P Q := by
  obtain ⟨-, inKind, inWheres, inHavings⟩ := (every_iff d).1 every
  exact (every_iff _).2
    ⟨own, inKind, inWheres, (DraftCondition.everyOf_concat ..).2 ⟨inHavings, inside⟩⟩

-- A draft of a new statement has nothing inside.
theorem bare {settings : Settings} {table : Option Text} (own : P { Draft.new settings with table }) :
    ({ Draft.new settings with table } : Draft).Every P Q :=
  (every_iff _).2 ⟨own, trivial, trivial, trivial⟩

end Draft.Every

theorem Draft.statement_eq (d : Draft) : d.statement =
    { d.common with
      kind := d.kind.merged d.explicit d.items
      wheres := DraftCondition.conditions d.wheres
      groups := d.groups.shown
      havings := DraftCondition.conditions d.havings
      orders := d.orders.shown } := by
  cases d
  rfl

namespace Draft

variable (d)

@[simp] theorem statement_settings : d.statement.settings = d.settings := by rw [statement_eq]; rfl

@[simp] theorem statement_stage : d.statement.stage = d.stage := by rw [statement_eq]; rfl

@[simp] theorem statement_kind : d.statement.kind = d.kind.merged d.explicit d.items := by rw [statement_eq]

@[simp] theorem statement_table : d.statement.table = d.table := by rw [statement_eq]; rfl

@[simp] theorem statement_wheres : d.statement.wheres = DraftCondition.conditions d.wheres := by
  rw [statement_eq]

@[simp] theorem statement_havings : d.statement.havings = DraftCondition.conditions d.havings := by
  rw [statement_eq]

@[simp] theorem statement_groups : d.statement.groups = d.groups.shown := by rw [statement_eq]

@[simp] theorem statement_orders : d.statement.orders = d.orders.shown := by rw [statement_eq]

theorem statement_withGroups (groups : SortMap) :
    ({ d with groups } : Draft).statement = { d.statement with groups := groups.shown } := by
  rw [statement_eq, statement_eq d]
  rfl

theorem statement_withOrders (orders : SortMap) :
    ({ d with orders } : Draft).statement = { d.statement with orders := orders.shown } := by
  rw [statement_eq, statement_eq d]
  rfl

theorem statement_touched : d.touched.statement = d.statement.touched := by
  rw [statement_eq, statement_eq]
  rfl

theorem statement_compiled : d.compiled.statement = d.statement.compiled := by
  rw [statement_eq, statement_eq]
  rfl

theorem statement_new (settings : Settings) (table : Option Text) :
    ({ new settings with table } : Draft).statement = { Statement.new settings with table } := by
  rw [statement_eq]
  rfl

theorem statement_child (bound : Bool) : (d.child bound).statement = d.statement.child bound := by
  rw [child, statement_new, Statement.child, statement_settings, statement_table]

theorem statement_reset : d.reset.statement = d.statement.reset := by
  rw [reset, statement_new, Statement.reset, statement_settings, statement_table]

theorem statement_base (edit : Edit) : (d.base edit).statement = edit.base d.statement := by
  unfold base renewed Edit.base Statement.renewed
  rw [statement_stage]
  split
  · cases d.stage with
    | compiled => exact d.statement_reset
    | fresh | building => rfl
  · rfl

end Draft

theorem DraftCondition.conditions_eq (conditions : List DraftCondition) :
    DraftCondition.conditions conditions =
      conditions.map fun condition => ⟨condition.connective, condition.predicate.merged⟩ := by
  induction conditions with
  | nil => rfl
  | cons first rest ih =>
    cases first
    rw [DraftCondition.conditions, ih, List.map_cons]

theorem Draft.statements_eq (members : List Draft) : Draft.statements members = members.map Draft.statement := by
  induction members with
  | nil => rfl
  | cons member rest ih => rw [Draft.statements, ih, List.map_cons]

namespace Draft

theorem statement_addWhere (d : Draft) (connective : Connective) (predicate : DraftPredicate) :
    (d.addWhere connective predicate).statement = d.statement.addWhere connective predicate.merged := by
  rw [addWhere, statement_touched, Statement.addWhere, statement_eq, statement_eq]
  simp only [DraftCondition.conditions_eq, List.map_append, List.map_singleton]
  rfl

theorem statement_addHaving (d : Draft) (connective : Connective) (predicate : DraftPredicate) :
    (d.addHaving connective predicate).statement = d.statement.addHaving connective predicate.merged := by
  rw [addHaving, statement_touched, Statement.addHaving, statement_eq, statement_eq]
  simp only [DraftCondition.conditions_eq, List.map_append, List.map_singleton]
  rfl

theorem statement_whereGroup (d child : Draft) (connective : Connective) (negated : Bool) :
    (d.whereGroup connective negated child).statement =
      d.statement.whereGroup connective negated child.statement := by
  unfold whereGroup Statement.whereGroup
  rw [statement_wheres, DraftCondition.conditions_eq, List.isEmpty_map, ← DraftCondition.conditions_eq]
  split
  · rfl
  · exact statement_addWhere ..

theorem statement_havingGroup (d child : Draft) (connective : Connective) (negated : Bool) :
    (d.havingGroup connective negated child).statement =
      d.statement.havingGroup connective negated child.statement := by
  unfold havingGroup Statement.havingGroup
  rw [statement_havings, DraftCondition.conditions_eq, List.isEmpty_map, ← DraftCondition.conditions_eq]
  split
  · rfl
  · exact statement_addHaving ..

end Draft

theorem Predicate.Every.own {P : Statement → Prop} {Q : Predicate → Prop} {predicate : Predicate}
    (every : predicate.Every P Q) : Q predicate := by
  cases predicate <;> first | exact every | exact every.1

section Parting

variable {P' : Statement → Prop} {Q' : Predicate → Prop} {P'' : Draft → Prop} {Q'' : DraftPredicate → Prop}
  (drafts : ∀ d : Draft, d.Every P Q → P' d.statement → P'' d)
  (predicates : ∀ p : DraftPredicate, Q p → Q' p.merged → Q'' p)

include drafts predicates

-- Each of the five below uses them through the others.
set_option linter.unusedSectionVars false

mutual

theorem Draft.every_of_statement (d : Draft) (first : d.Every P Q) (second : d.statement.Every P' Q') :
    d.Every P'' Q'' := by
  match d with
  | ⟨settings, stage, kind, explicit, items, distinct, table, joins, wheres, groups, havings, orders,
      pagination⟩ =>
    obtain ⟨-, inKind, inWheres, inHavings⟩ := (Draft.every_iff _).1 first
    obtain ⟨own, inWheres', inHavings', inMembers⟩ := (Statement.every_iff _).1 second
    exact (Draft.every_iff _).2 ⟨drafts _ first own, DraftKind.every_of_merged kind inKind inMembers,
      DraftCondition.everyOf_of_conditions wheres inWheres inWheres',
      DraftCondition.everyOf_of_conditions havings inHavings inHavings'⟩

theorem DraftKind.every_of_merged {explicit : Bool} {items : List SelectItem} (kind : DraftKind)
    (first : kind.Every P Q) (second : ∀ all members, kind.merged explicit items = .union all members →
      Statement.EveryOf P' Q' members) : kind.Every P'' Q'' := by
  match kind with
  | .union all members => exact Draft.everyOf_of_statements members first (second all _ rfl)
  | .select | .insert _ | .update _ | .delete | .truncate => trivial

theorem Draft.everyOf_of_statements (members : List Draft) (first : Draft.EveryOf P Q members)
    (second : Statement.EveryOf P' Q' (Draft.statements members)) : Draft.EveryOf P'' Q'' members := by
  match members with
  | [] => trivial
  | member :: rest =>
    exact ⟨Draft.every_of_statement member first.1 second.1,
      Draft.everyOf_of_statements rest first.2 second.2⟩

theorem DraftCondition.everyOf_of_conditions (conditions : List DraftCondition)
    (first : DraftCondition.EveryOf P Q conditions)
    (second : Condition.EveryOf P' Q' (DraftCondition.conditions conditions)) :
    DraftCondition.EveryOf P'' Q'' conditions := by
  match conditions with
  | [] => trivial
  | ⟨_, predicate⟩ :: rest =>
    exact ⟨DraftPredicate.every_of_merged predicate first.1 second.1,
      DraftCondition.everyOf_of_conditions rest first.2 second.2⟩

theorem DraftPredicate.every_of_merged (predicate : DraftPredicate) (first : predicate.Every P Q)
    (second : predicate.merged.Every P' Q') : predicate.Every P'' Q'' := by
  match predicate with
  | .plain predicate => exact predicates (.plain predicate) first second.own
  | .inQuery _ _ query | .existsQuery _ query =>
    exact ⟨predicates _ first.1 second.1, Draft.every_of_statement query first.2 second.2⟩
  | .group _ conditions =>
    exact ⟨predicates _ first.1 second.1, DraftCondition.everyOf_of_conditions conditions first.2 second.2⟩

end

end Parting

end SqlComposer
