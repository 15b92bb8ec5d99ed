import SqlComposer.Proofs.Every
import SqlComposer.Proofs.Reach

set_option autoImplicit false

/-!
Properties that every statement and every predicate inside a reachable statement have:
`Nested.invariant` asks for them on each operation by itself.
-/

namespace SqlComposer

theorem Predicate.every_of_isLeaf {P : Statement → Prop} {Q : Predicate → Prop} {predicate : Predicate}
    (leaf : predicate.isLeaf) (holds : Q predicate) : predicate.Every P Q := by
  cases predicate <;> first | exact holds | cases leaf

structure Nested (P : Settings → Prop) (Own : Statement → Prop) (Q : Predicate → Prop) : Prop where
  new : ∀ settings, P settings → Own (.new settings)
  child : ∀ {s : Statement} (bound : Bool), P s.settings → Own s → Own (s.child bound)
  edit : ∀ {s next : Statement} (edit : Edit), P s.settings → P next.settings → Own s →
    edit.apply s = .ok next → Own next
  compiled : ∀ {s : Statement}, Own s → Own s.compiled
  addWhere : ∀ {s : Statement} (connective : Connective) (predicate : Predicate), Own s →
    Own (s.addWhere connective predicate)
  havingGroup : ∀ {s child : Statement} (connective : Connective) (negated : Bool), Own s → Own child →
    Own (s.addHaving connective (.group negated child.havings))
  union : ∀ {s next : Statement} {all : Bool} {members : List Statement}, Own s →
    s.union all members = .ok next → Own next
  predicate : ∀ {settings : Settings} {predicate : Predicate}, P settings →
    predicate.MadeIn settings → Q predicate
  group : ∀ (negated : Bool) (conditions : List Condition), conditions ≠ [] →
    Q (.group negated conditions)
  inQuery : ∀ {settings : Settings} (negated : Bool) {column checked : Text} (query : Statement),
    P settings → Reference.check settings "where_in" column = .ok checked →
    Q (.inQuery negated checked query)
  existsQuery : ∀ (negated : Bool) (query : Statement), Q (.existsQuery negated query)

variable {P : Settings → Prop} {Own : Statement → Prop} {Q : Predicate → Prop} {s next : Statement}

namespace Statement.Every

theorem step (every : s.Every Own Q) (own : Own next) (wheres : next.wheres = s.wheres)
    (havings : next.havings = s.havings)
    (members : ∀ all list, next.kind = .union all list → s.kind = .union all list) :
    next.Every Own Q := by
  obtain ⟨-, inWheres, inHavings, inMembers⟩ := (every_iff s).1 every
  refine (every_iff next).2
    ⟨own, ?_, ?_, fun all list union => inMembers all list (members all list union)⟩
  · rwa [wheres]
  · rwa [havings]

theorem addWhere {connective : Connective} {predicate : Predicate} (every : s.Every Own Q)
    (own : Own (s.addWhere connective predicate)) (inside : predicate.Every Own Q) :
    (s.addWhere connective predicate).Every Own Q := by
  obtain ⟨-, inWheres, inHavings, inMembers⟩ := (every_iff s).1 every
  refine (every_iff _).2 ⟨own, ?_, inHavings, inMembers⟩
  rw [Condition.everyOf_iff] at inWheres ⊢
  intro condition member
  rcases List.mem_append.1 member with old | added
  · exact inWheres condition old
  · obtain rfl := List.mem_singleton.1 added
    exact inside

theorem addHaving {connective : Connective} {predicate : Predicate} (every : s.Every Own Q)
    (own : Own (s.addHaving connective predicate)) (inside : predicate.Every Own Q) :
    (s.addHaving connective predicate).Every Own Q := by
  obtain ⟨-, inWheres, inHavings, inMembers⟩ := (every_iff s).1 every
  refine (every_iff _).2 ⟨own, inWheres, ?_, inMembers⟩
  rw [Condition.everyOf_iff] at inHavings ⊢
  intro condition member
  rcases List.mem_append.1 member with old | added
  · exact inHavings condition old
  · obtain rfl := List.mem_singleton.1 added
    exact inside

-- A statement that holds nothing yet has nothing inside.
theorem bare (own : Own s) (wheres : s.wheres = []) (havings : s.havings = []) (kind : s.kind = .unset) :
    s.Every Own Q := by
  refine (every_iff s).2 ⟨own, ?_, ?_, ?_⟩
  · rw [wheres]
    trivial
  · rw [havings]
    trivial
  · simp [kind]

end Statement.Every

namespace Nested

theorem edit_every (nested : Nested P Own Q) (edit : Edit) (allowed : P s.settings)
    (after : P next.settings) (every : s.Every Own Q) (applied : edit.apply s = .ok next) :
    next.Every Own Q := by
  have own : Own next := nested.edit edit allowed after ((Statement.every_iff s).1 every).1 applied
  cases edit.effect applied with
  | clauses | configured => exact every.step own rfl rfl fun _ _ same => same
  | established kind _ solid =>
    refine every.step own rfl rfl fun all list same => ?_
    obtain rfl : kind = .union all list := same
    exact solid.elim
  | filtered _ _ _ made =>
    exact every.addWhere own (Predicate.every_of_isLeaf made.leaf (nested.predicate allowed made))
  | compared _ _ _ _ _ _ made =>
    exact every.addHaving own (Predicate.every_of_isLeaf made.leaf (nested.predicate allowed made))
  | cleared => exact .bare own rfl rfl rfl

theorem invariant (nested : Nested P Own Q) : Invariant P fun s => s.Every Own Q where
  new settings allowed := .bare (nested.new settings allowed) rfl rfl rfl
  child bound allowed every :=
    .bare (nested.child bound allowed ((Statement.every_iff _).1 every).1) rfl rfl rfl
  edit edit allowed after every applied := nested.edit_every edit allowed after every applied
  compiled every :=
    every.step (nested.compiled ((Statement.every_iff _).1 every).1) rfl rfl fun _ _ same => same
  whereGroup connective negated every inner some := by
    obtain ⟨own, -⟩ := (Statement.every_iff _).1 every
    obtain ⟨-, inWheres, -⟩ := (Statement.every_iff _).1 inner
    simp only [Statement.whereGroup, List.isEmpty_iff, some, if_false]
    exact every.addWhere (nested.addWhere _ _ own) ⟨nested.group negated _ some, inWheres⟩
  havingGroup connective negated every inner some := by
    obtain ⟨own, -⟩ := (Statement.every_iff _).1 every
    obtain ⟨within, -, inHavings, -⟩ := (Statement.every_iff _).1 inner
    simp only [Statement.havingGroup, List.isEmpty_iff, some, if_false]
    exact every.addHaving (nested.havingGroup _ _ own within) ⟨nested.group negated _ some, inHavings⟩
  inQuery connective negated column checked allowed found every inner := by
    obtain ⟨own, -⟩ := (Statement.every_iff _).1 every
    exact every.addWhere (nested.addWhere _ _ own) ⟨nested.inQuery negated _ allowed found, inner⟩
  existsQuery connective negated every inner := by
    obtain ⟨own, -⟩ := (Statement.every_iff _).1 every
    exact every.addWhere (nested.addWhere _ _ own) ⟨nested.existsQuery negated _, inner⟩
  union all members every inner made := by
    obtain ⟨own, inWheres, inHavings, -⟩ := (Statement.every_iff _).1 every
    have made' := nested.union own made
    obtain ⟨-, -, rfl⟩ := Statement.union_eq_ok.1 made
    refine (Statement.every_iff _).2 ⟨made', inWheres, inHavings, ?_⟩
    intro all' list same
    obtain ⟨rfl, rfl⟩ := Kind.union.inj same
    exact ⟨every, (Statement.everyOf_iff members).2 inner⟩

theorem settings (P : Settings → Prop) : Nested P (fun inner => P inner.settings) fun _ => True where
  new _ allowed := allowed
  child _ allowed _ := allowed
  edit _ _ after _ _ := after
  compiled own := own
  addWhere _ _ own := own
  havingGroup _ _ own _ := own
  union own made := by
    obtain ⟨-, -, rfl⟩ := Statement.union_eq_ok.1 made
    exact own
  predicate _ _ := trivial
  group _ _ _ := trivial
  inQuery _ _ _ _ _ _ := trivial
  existsQuery _ _ := trivial

end Nested

theorem Reachable.settings_every (reached : Reachable P s) :
    s.Every (fun inner => P inner.settings) fun _ => True :=
  reached.invariant (Nested.settings P).invariant

end SqlComposer
