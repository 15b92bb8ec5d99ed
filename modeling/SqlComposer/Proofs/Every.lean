import SqlComposer.Statement

set_option autoImplicit false

namespace SqlComposer

mutual

def Statement.Every (P : Statement → Prop) (Q : Predicate → Prop) : Statement → Prop
  | ⟨settings, stage, kind, distinct, table, joins, wheres, groups, havings, orders, pagination⟩ =>
    P ⟨settings, stage, kind, distinct, table, joins, wheres, groups, havings, orders, pagination⟩ ∧
      Condition.EveryOf P Q wheres ∧ Condition.EveryOf P Q havings ∧
      match kind with
      | .union _ members => Statement.EveryOf P Q members
      | _ => True

def Statement.EveryOf (P : Statement → Prop) (Q : Predicate → Prop) : List Statement → Prop
  | [] => True
  | member :: rest => member.Every P Q ∧ Statement.EveryOf P Q rest

def Condition.EveryOf (P : Statement → Prop) (Q : Predicate → Prop) : List Condition → Prop
  | [] => True
  | ⟨_, predicate⟩ :: rest => predicate.Every P Q ∧ Condition.EveryOf P Q rest

def Predicate.Every (P : Statement → Prop) (Q : Predicate → Prop) : Predicate → Prop
  | .inQuery negated column query => Q (.inQuery negated column query) ∧ query.Every P Q
  | .existsQuery negated query => Q (.existsQuery negated query) ∧ query.Every P Q
  | .group negated conditions => Q (.group negated conditions) ∧ Condition.EveryOf P Q conditions
  | predicate => Q predicate

end

variable {P P' : Statement → Prop} {Q Q' : Predicate → Prop}

theorem Statement.every_iff (s : Statement) : s.Every P Q ↔
    P s ∧ Condition.EveryOf P Q s.wheres ∧ Condition.EveryOf P Q s.havings ∧
      ∀ all members, s.kind = .union all members → Statement.EveryOf P Q members := by
  match s with
  | { kind, .. } => cases kind <;> simp [Statement.Every]

theorem Statement.everyOf_iff (members : List Statement) :
    Statement.EveryOf P Q members ↔ ∀ member ∈ members, member.Every P Q := by
  induction members with
  | nil => simp [Statement.EveryOf]
  | cons member rest ih => simp [Statement.EveryOf, ih]

theorem Condition.everyOf_iff (conditions : List Condition) :
    Condition.EveryOf P Q conditions ↔
      ∀ condition ∈ conditions, condition.predicate.Every P Q := by
  induction conditions with
  | nil => simp [Condition.EveryOf]
  | cons condition rest ih =>
    cases condition
    simp [Condition.EveryOf, ih]

variable {P'' : Statement → Prop} {Q'' : Predicate → Prop}

section Combining

variable (statements : ∀ s, P s → P' s → P'' s) (predicates : ∀ p, Q p → Q' p → Q'' p)

include statements predicates

-- Each of the four below uses them through the others.
set_option linter.unusedSectionVars false

mutual

theorem Statement.every_combine (s : Statement) (first : s.Every P Q) (second : s.Every P' Q') :
    s.Every P'' Q'' := by
  match s with
  | { kind, wheres, havings, .. } =>
    obtain ⟨own, inWheres, inHavings, inMembers⟩ := (Statement.every_iff _).1 first
    obtain ⟨own', inWheres', inHavings', inMembers'⟩ := (Statement.every_iff _).1 second
    refine (Statement.every_iff _).2 ⟨statements _ own own',
      Condition.everyOf_combine wheres inWheres inWheres',
      Condition.everyOf_combine havings inHavings inHavings', ?_⟩
    rintro all members rfl
    exact Statement.everyOf_combine members (inMembers all members rfl) (inMembers' all members rfl)

theorem Statement.everyOf_combine (members : List Statement) (first : Statement.EveryOf P Q members)
    (second : Statement.EveryOf P' Q' members) : Statement.EveryOf P'' Q'' members := by
  match members with
  | [] => trivial
  | member :: rest =>
    exact ⟨Statement.every_combine member first.1 second.1,
      Statement.everyOf_combine rest first.2 second.2⟩

theorem Condition.everyOf_combine (conditions : List Condition)
    (first : Condition.EveryOf P Q conditions) (second : Condition.EveryOf P' Q' conditions) :
    Condition.EveryOf P'' Q'' conditions := by
  match conditions with
  | [] => trivial
  | ⟨_, predicate⟩ :: rest =>
    exact ⟨Predicate.every_combine predicate first.1 second.1,
      Condition.everyOf_combine rest first.2 second.2⟩

theorem Predicate.every_combine (predicate : Predicate) (first : predicate.Every P Q)
    (second : predicate.Every P' Q') : predicate.Every P'' Q'' := by
  match predicate with
  | .inQuery _ _ query | .existsQuery _ query =>
    exact ⟨predicates _ first.1 second.1, Statement.every_combine query first.2 second.2⟩
  | .group _ conditions =>
    exact ⟨predicates _ first.1 second.1, Condition.everyOf_combine conditions first.2 second.2⟩
  | .compare .. | .between .. | .inValues .. | .isNull .. | .columns .. | .datePart ..
  | .fragment .. => exact predicates _ first second

end

end Combining

theorem Statement.Every.imp {s : Statement} (statements : ∀ s, P s → P' s)
    (predicates : ∀ p, Q p → Q' p) (every : s.Every P Q) : s.Every P' Q' :=
  s.every_combine (fun inner holds _ => statements inner holds)
    (fun predicate holds _ => predicates predicate holds) every every

theorem Statement.Every.and {s : Statement} (first : s.Every P Q) (second : s.Every P' Q') :
    s.Every (fun inner => P inner ∧ P' inner) fun predicate => Q predicate ∧ Q' predicate :=
  s.every_combine (fun _ => And.intro) (fun _ => And.intro) first second

end SqlComposer
