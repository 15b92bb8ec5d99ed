import SqlComposer.Proofs.Drafts
import SqlComposer.Proofs.Nesting

set_option autoImplicit false

namespace SqlComposer

/-- What needs rows, columns or members has some, and the first member of a union is a statement whose kind
is not established. -/
def Kind.WellFormed (kind : Kind) : Prop :=
  kind = .unset ∨ kind.Solid ∨
    ∃ all first rest, kind = .union all (first :: rest) ∧ first.kind = .unset ∧ rest ≠ []

namespace Predicate

def Compares : Predicate → Prop
  | .compare .. | .group .. => True
  | _ => False

def WellFormed : Predicate → Prop
  | .group _ conditions => conditions ≠ []
  | .inValues _ _ values => values ≠ []
  | .fragment _ text values => values.length = text.count '?'
  | _ => True

end Predicate

structure Statement.WellFormed (s : Statement) : Prop where
  kind : s.kind.WellFormed
  havings : Condition.EveryOf (fun _ => True) Predicate.Compares s.havings
  fresh : s.stage = .fresh → s = { Statement.new s.settings with table := s.table }

namespace Kind

theorem Solid.wellFormed {kind : Kind} (solid : kind.Solid) : kind.WellFormed := .inr (.inl solid)

theorem WellFormed.solid {kind : Kind} (wellFormed : kind.WellFormed) (established : kind ≠ .unset)
    (plain : ∀ all members, kind ≠ .union all members) : kind.Solid := by
  rcases wellFormed with unset | solid | ⟨all, first, rest, union, -⟩
  · exact absurd unset established
  · exact solid
  · exact absurd union (plain all (first :: rest))

theorem WellFormed.insert {rows : List Row} (wellFormed : (insert rows).WellFormed) :
    rows ≠ [] ∧ ∀ row ∈ rows, row.columns ≠ [] :=
  wellFormed.solid (by simp) (by simp)

theorem WellFormed.update {row : Row} (wellFormed : (update row).WellFormed) : row.columns ≠ [] :=
  wellFormed.solid (by simp) (by simp)

theorem WellFormed.union {all : Bool} {members : List Statement}
    (wellFormed : (union all members).WellFormed) :
    ∃ first rest, members = first :: rest ∧ first.kind = .unset ∧ rest ≠ [] := by
  rcases wellFormed with unset | solid | ⟨_, first, rest, same, known⟩
  · cases unset
  · exact solid.elim
  · exact ⟨first, rest, (Kind.union.inj same).2, known⟩

theorem wellFormed_unset : unset.WellFormed := .inl rfl

end Kind

namespace Statement

variable {s : Statement}

theorem wellFormed_new (settings : Settings) (table : Option Text) :
    ({ new settings with table } : Statement).WellFormed :=
  ⟨Kind.wellFormed_unset, trivial, fun _ => rfl⟩

-- Behind a change nothing more is known of a fresh statement.
theorem wellFormed_touched (kind : s.kind.WellFormed)
    (havings : Condition.EveryOf (fun _ => True) Predicate.Compares s.havings) :
    s.touched.WellFormed where
  kind := kind
  havings := havings
  fresh untouched := absurd untouched (Stage.touched_ne_fresh s.stage)

theorem WellFormed.addHaving (wellFormed : s.WellFormed) (connective : Connective)
    {predicate : Predicate} (compares : predicate.Every (fun _ => True) Predicate.Compares) :
    (s.addHaving connective predicate).WellFormed := by
  refine wellFormed_touched wellFormed.kind ?_
  have held := wellFormed.havings
  rw [Condition.everyOf_iff] at held ⊢
  intro condition member
  rcases List.mem_append.1 member with old | added
  · exact held condition old
  · obtain rfl := List.mem_singleton.1 added
    exact compares

theorem WellFormed.edit {next : Statement} (wellFormed : s.WellFormed) (edit : Edit)
    (applied : edit.apply s = .ok next) : next.WellFormed := by
  cases edit.effect applied with
  | clauses => exact wellFormed_touched wellFormed.kind wellFormed.havings
  | established kind _ solid => exact wellFormed_touched solid.wellFormed wellFormed.havings
  | filtered => exact wellFormed_touched wellFormed.kind wellFormed.havings
  | compared _ connective => exact wellFormed.addHaving connective trivial
  | configured settings =>
    refine ⟨wellFormed.kind, wellFormed.havings, fun fresh => ?_⟩
    exact congrArg (fun t : Statement => { t with settings }) (wellFormed.fresh fresh)
  | cleared => exact wellFormed_new ..

theorem WellFormed.union {next : Statement} {all : Bool} {members : List Statement}
    (wellFormed : s.WellFormed) (made : s.union all members = .ok next) : next.WellFormed := by
  obtain ⟨unset, some, rfl⟩ := union_eq_ok.1 made
  exact wellFormed_touched (.inr (.inr ⟨all, s, members, rfl, unset, some⟩)) wellFormed.havings

end Statement

theorem Predicate.MadeIn.wellFormed {settings : Settings} {predicate : Predicate}
    (made : predicate.MadeIn settings) : predicate.WellFormed := by
  cases predicate with
  | inValues negated column values => exact made.listed negated column values rfl
  | fragment negated text values => exact (made.balanced negated text values rfl).symm
  | group => cases made.leaf
  | _ => trivial

theorem nested_wellFormed (P : Settings → Prop) :
    Nested P Statement.WellFormed Predicate.WellFormed where
  new settings _ := Statement.wellFormed_new settings none
  child bound _ _ := Statement.wellFormed_new ..
  edit edit _ _ wellFormed applied := wellFormed.edit edit applied
  compiled wellFormed := ⟨wellFormed.kind, wellFormed.havings, fun fresh => by cases fresh⟩
  addWhere _ _ wellFormed := Statement.wellFormed_touched wellFormed.kind wellFormed.havings
  havingGroup connective _ wellFormed inner := wellFormed.addHaving connective ⟨trivial, inner.havings⟩
  union wellFormed made := wellFormed.union made
  predicate _ made := made.wellFormed
  group _ _ some := some
  inQuery _ _ _ _ _ _ := trivial
  existsQuery _ _ := trivial

theorem Reachable.wellFormed {P : Settings → Prop} {s : Statement} (reached : Reachable P s) :
    s.Every Statement.WellFormed Predicate.WellFormed :=
  reached.invariant (nested_wellFormed P).invariant

namespace DraftPredicate

def Compares : DraftPredicate → Prop
  | .plain (.compare ..) | .group .. => True
  | _ => False

def WellFormed : DraftPredicate → Prop
  | .plain predicate => predicate.isLeaf ∧ predicate.WellFormed
  | .group _ conditions => conditions ≠ []
  | _ => True

end DraftPredicate

/-- Beside what its own fields have of each other, a draft has rows, columns and members where it needs
some, and the first member of a union is a draft whose kind no call has set. -/
structure Draft.WellFormed (d : Draft) : Prop extends Draft.Sound d where
  rows : ∀ rows, d.kind = .insert rows → rows ≠ [] ∧ ∀ row ∈ rows, row.columns ≠ []
  columns : ∀ row, d.kind = .update row → row.columns ≠ []
  members : ∀ all list, d.kind = .union all list → ∃ first second rest, list = first :: second :: rest ∧
    first.explicit = false ∧ first.kind = .select ∧ first.items = []
  havings : DraftCondition.EveryOf (fun _ => True) DraftPredicate.Compares d.havings

namespace Draft

variable {d : Draft}

theorem explicit_of_unset (unset : d.statement.kind = .unset) : d.explicit = false := by
  rw [statement_kind] at unset
  cases explicit : d.explicit with
  | false => rfl
  | true =>
    rw [explicit] at unset
    cases kind : d.kind <;> simp [kind, DraftKind.merged] at unset

theorem wellFormed_of_statement (faithful : d.Faithful) (shaped : d.statement.WellFormed) :
    d.WellFormed where
  toSound := faithful.own
  rows rows same := by
    have kind := shaped.kind
    rw [statement_kind, same] at kind
    exact kind.insert
  columns row same := by
    have kind := shaped.kind
    rw [statement_kind, same] at kind
    exact kind.update
  members all list same := by
    have kind := shaped.kind
    have inside := ((every_iff d).1 faithful).2.1
    rw [statement_kind, same] at kind
    rw [same] at inside
    obtain ⟨first, rest, split, unset, some⟩ := Kind.WellFormed.union kind
    match list, split, inside with
    | [_], rfl, _ => exact absurd rfl some
    | draft :: second :: rest, rfl, inside =>
      have explicit := explicit_of_unset unset
      obtain ⟨selects, empty⟩ := inside.1.own.implicit explicit
      exact ⟨draft, second, rest, rfl, explicit, selects, empty⟩
  havings := by
    have held := ((every_iff d).1 faithful).2.2.2
    have compares := shaped.havings
    rw [statement_havings] at compares
    refine DraftCondition.everyOf_of_conditions (fun _ _ _ => trivial) (fun predicate held compares => ?_)
      d.havings held compares
    cases predicate with
    | plain predicate => cases predicate <;> trivial
    | group => trivial
    | inQuery | existsQuery => cases compares

end Draft

theorem DraftPredicate.wellFormed_of_merged {predicate : DraftPredicate} (held : predicate.Held)
    (shaped : predicate.merged.WellFormed) : predicate.WellFormed := by
  cases predicate with
  | plain predicate => exact ⟨held, shaped⟩
  | group negated conditions =>
    rintro rfl
    exact shaped rfl
  | inQuery | existsQuery => trivial

theorem Draft.Drafted.wellFormed {d : Draft} (drafted : d.Drafted) :
    d.Every Draft.WellFormed DraftPredicate.WellFormed :=
  Draft.every_of_statement (fun _ => Draft.wellFormed_of_statement)
    (fun _ => DraftPredicate.wellFormed_of_merged) d drafted.faithful drafted.composable.wellFormed

end SqlComposer
