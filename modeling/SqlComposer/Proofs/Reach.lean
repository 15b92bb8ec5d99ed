import SqlComposer.Proofs.Changes
import SqlComposer.Proofs.Effects

set_option autoImplicit false

/-!
The statements that calls can compose, in any nesting, and invariants of them all:
`Reachable.invariant`.
-/

namespace SqlComposer

def Call.Adds : Call → Statement → Statement → Prop
  | .whereGroup _ _ calls, s, child =>
    (Call.build calls (s.child true)).result = .ok child ∧ child.wheres ≠ []
  | .whereInQuery _ _ column calls, s, child =>
    (∃ checked, Reference.check s.settings "where_in" column = .ok checked) ∧
      (Call.build calls (s.child false)).result = .ok child
  | .whereExists _ _ calls, s, child => (Call.build calls (s.child true)).result = .ok child
  | .havingGroup _ _ calls, s, child =>
    (Call.build calls (s.child true)).result = .ok child ∧ child.havings ≠ []
  | .union all members, s, child =>
    ∃ built next, (Member.buildAll members).result = .ok built ∧ s.union all built = .ok next ∧
      child ∈ built
  | .attempt call, s, child => call.Adds s child
  | .edit _, _, _ | .query _, _, _ => False

/-- Statements that come from any calls, failed ones among them, while the settings of every
statement that had a part in them satisfied the condition. -/
inductive Reachable (P : Settings → Prop) : Statement → Prop where
  | start {s : Statement} (origin : Origin) (started : origin.start = .ok s) (allowed : P s.settings) :
    Reachable P s
  | child {s : Statement} (bound : Bool) (reached : Reachable P s) : Reachable P (s.child bound)
  | call {s : Statement} (call : Call) (reached : Reachable P s)
    (allowed : P (call.run s).statement.settings)
    (inner : ∀ child, call.Adds s child → Reachable P child) : Reachable P (call.run s).statement

theorem Reachable.settings {P : Settings → Prop} {s : Statement} (reached : Reachable P s) :
    P s.settings := by
  induction reached with
  | start _ _ allowed => exact allowed
  | child _ _ ih => exact ih
  | call _ _ allowed => exact allowed

theorem Statement.settings_renewed (s : Statement) : s.renewed.settings = s.settings := by
  unfold renewed
  split <;> rfl

theorem Edit.settings_base (edit : Edit) (s : Statement) : (edit.base s).settings = s.settings := by
  unfold base
  split
  · exact s.settings_renewed
  · rfl

structure Invariant (P : Settings → Prop) (I : Statement → Prop) : Prop where
  new : ∀ settings, P settings → I (.new settings)
  child : ∀ {s : Statement} (bound : Bool), P s.settings → I s → I (s.child bound)
  edit : ∀ {s next : Statement} (edit : Edit), P s.settings → P next.settings → I s →
    edit.apply s = .ok next → I next
  compiled : ∀ {s : Statement}, I s → I s.compiled
  whereGroup : ∀ {s child : Statement} (connective : Connective) (negated : Bool), I s → I child →
    child.wheres ≠ [] → I (s.whereGroup connective negated child)
  havingGroup : ∀ {s child : Statement} (connective : Connective) (negated : Bool), I s → I child →
    child.havings ≠ [] → I (s.havingGroup connective negated child)
  inQuery : ∀ {s child : Statement} (connective : Connective) (negated : Bool) {column checked : Text},
    P s.settings → Reference.check s.settings "where_in" column = .ok checked → I s → I child →
    I (s.addWhere connective (.inQuery negated checked child))
  existsQuery : ∀ {s child : Statement} (connective : Connective) (negated : Bool), I s → I child →
    I (s.addWhere connective (.existsQuery negated child))
  union : ∀ {s next : Statement} (all : Bool) {members : List Statement}, I s →
    (∀ member ∈ members, I member) → s.union all members = .ok next → I next

variable {P : Settings → Prop} {I : Statement → Prop}

namespace Invariant

theorem reset (invariant : Invariant P I) {s : Statement} (allowed : P s.settings) (holds : I s) :
    I s.reset :=
  invariant.edit .reset allowed allowed holds rfl

theorem edit_run (invariant : Invariant P I) (edit : Edit) {s : Statement} (allowed : P s.settings)
    (after : P (edit.run s).2.settings) (holds : I s) : I (edit.run s).2 := by
  have base : I (edit.base s) := by
    unfold Edit.base Statement.renewed
    split
    · split
      · exact invariant.reset allowed holds
      · exact holds
    · exact holds
  rw [Edit.run_eq] at after ⊢
  split
  · next applied =>
    rw [applied] at after
    exact invariant.edit edit (edit.settings_base s ▸ allowed) after base applied
  · exact base

theorem query_run (invariant : Invariant P I) (query : Query) {s : Statement} (holds : I s) :
    I (query.run s).2 := by
  unfold Query.run
  split
  · dsimp only
    split
    · exact invariant.compiled holds
    · exact holds
  · exact holds

-- A call that fails leaves the statement; one that succeeds adds what was built.
theorem conclude {A : Type} {s : Statement} {built : Built A} {finish : A → Except Error Statement}
    (holds : I s)
    (finished : ∀ a next, built.result = .ok a → finish a = .ok next → I next) :
    I (built.conclude s finish).statement := by
  unfold Built.conclude
  split
  · next next done =>
    cases result : built.result with
    | error error => simp [result, Except.bind] at done
    | ok a => exact finished a next result (by simpa [result, Except.bind] using done)
  · exact holds

theorem call_run (invariant : Invariant P I) (call : Call) {s : Statement} (allowed : P s.settings)
    (after : P (call.run s).statement.settings) (holds : I s)
    (inner : ∀ child, call.Adds s child → I child) : I (call.run s).statement := by
  match call with
  | .edit edit => exact invariant.edit_run edit allowed after holds
  | .query query => exact invariant.query_run query holds
  | .whereGroup connective negated calls =>
    rw [Call.run_whereGroup]
    refine conclude holds fun child next built done => ?_
    obtain rfl := Except.ok.inj done
    by_cases empty : child.wheres = []
    · simpa [Statement.whereGroup, empty] using holds
    · exact invariant.whereGroup connective negated holds (inner child ⟨built, empty⟩) empty
  | .whereInQuery connective negated column calls =>
    rw [Call.run_whereInQuery]
    split
    · exact holds
    · next checked found =>
      refine conclude holds fun child next built done => ?_
      obtain rfl := Except.ok.inj done
      exact invariant.inQuery connective negated allowed found holds
        (inner child ⟨⟨checked, found⟩, built⟩)
  | .whereExists connective negated calls =>
    rw [Call.run_whereExists]
    refine conclude holds fun child next built done => ?_
    obtain rfl := Except.ok.inj done
    exact invariant.existsQuery connective negated holds (inner child built)
  | .havingGroup connective negated calls =>
    rw [Call.run_havingGroup]
    refine conclude holds fun child next built done => ?_
    obtain rfl := Except.ok.inj done
    by_cases empty : child.havings = []
    · simpa [Statement.havingGroup, empty] using holds
    · exact invariant.havingGroup connective negated holds (inner child ⟨built, empty⟩) empty
  | .union all members =>
    rw [Call.run_union]
    refine conclude holds fun statements next built done => ?_
    exact invariant.union all holds
      (fun member present => inner member ⟨statements, next, built, done, present⟩) done
  | .attempt call => exact call_run invariant call allowed after holds inner

end Invariant

theorem Reachable.invariant (invariant : Invariant P I) {s : Statement} (reached : Reachable P s) :
    I s := by
  induction reached with
  | start origin started allowed =>
    cases origin with
    | blank =>
      obtain rfl := Except.ok.inj started
      exact invariant.new _ allowed
    | table name =>
      obtain ⟨checked, -, rfl⟩ := Statement.setTable_eq_ok.1 started
      have fresh : P (Statement.new {}).settings := allowed
      exact invariant.edit (.fromTable name) fresh fresh (invariant.new {} fresh) started
    | settings input =>
      obtain ⟨settings, -, rfl⟩ := map_eq_ok.1 started
      exact invariant.new settings allowed
    | dialect value =>
      obtain rfl := Except.ok.inj started
      exact invariant.new _ allowed
  | child bound reached ih => exact invariant.child bound reached.settings ih
  | call call reached allowed _ ih inner => exact invariant.call_run call reached.settings allowed ih inner

theorem Edit.run_of_apply {edit : Edit} {s next : Statement}
    (applied : edit.apply (edit.base s) = .ok next) : edit.run s = (.ok (), next) := by
  rw [run_eq, applied]

namespace Reachable

variable {s child next : Statement}

theorem edit (reached : Reachable P s) (edit : Edit) (plain : edit.configures = false)
    (applied : edit.apply (edit.base s) = .ok next) : Reachable P next := by
  have ran : ((Call.edit edit).run s).statement = next := by
    rw [Call.run, Edit.run_of_apply applied]
  have allowed : P ((Call.edit edit).run s).statement.settings := by
    rw [ran, Edit.settings_apply plain applied, edit.settings_base]
    exact reached.settings
  exact ran ▸ Reachable.call (.edit edit) reached allowed fun _ added => added.elim

theorem existsQuery (reached : Reachable P s) (connective : Connective) (negated : Bool)
    {calls : List Call} (built : (Call.build calls (s.child true)).result = .ok child)
    (inner : Reachable P child) : Reachable P (s.addWhere connective (.existsQuery negated child)) := by
  have ran : ((Call.whereExists connective negated calls).run s).statement =
      s.addWhere connective (.existsQuery negated child) := by
    simp [Call.run_whereExists, Built.conclude, built, Except.bind]
  have allowed : P ((Call.whereExists connective negated calls).run s).statement.settings := by
    rw [ran]
    exact reached.settings
  refine ran ▸ Reachable.call (.whereExists connective negated calls) reached allowed fun other added => ?_
  obtain rfl := Except.ok.inj (built.symm.trans added)
  exact inner

end Reachable

theorem Call.build_edit {edit : Edit} {rest : List Call} {s next last : Statement}
    (applied : edit.apply (edit.base s) = .ok next) (built : (Call.build rest next).result = .ok last) :
    (Call.build (.edit edit :: rest) s).result = .ok last := by
  simp [Call.build, Call.run, Edit.run_of_apply applied, Except.map, built]

/-- With no condition on the settings everything that calls compose can be reached. -/
abbrev Statement.Composable (s : Statement) : Prop := Reachable (fun _ => True) s

mutual

theorem Call.composable_of_adds (call : Call) {s child : Statement} (composable : s.Composable)
    (added : call.Adds s child) : child.Composable := by
  match call with
  | .whereGroup _ _ calls | .havingGroup _ _ calls =>
    exact Call.composable_of_build calls (composable.child true) added.1
  | .whereInQuery _ _ _ calls => exact Call.composable_of_build calls (composable.child false) added.2
  | .whereExists _ _ calls => exact Call.composable_of_build calls (composable.child true) added
  | .union all members =>
    obtain ⟨built, next, done, -, member⟩ := added
    exact Member.composable_of_buildAll members done child member
  | .attempt call => exact Call.composable_of_adds call composable added
  | .edit _ | .query _ => exact added.elim

theorem Call.composable_of_build (calls : List Call) {s built : Statement} (composable : s.Composable)
    (done : (Call.build calls s).result = .ok built) : built.Composable := by
  match calls with
  | [] =>
    obtain rfl := Except.ok.inj done
    exact composable
  | call :: rest =>
    have next : (call.run s).statement.Composable :=
      .call call composable trivial fun _ added => Call.composable_of_adds call composable added
    cases ran : (call.run s).result with
    | error error => simp [Call.build, ran] at done
    | ok reply =>
      simp only [Call.build, ran] at done
      exact Call.composable_of_build rest next done

theorem Member.composable_of_buildAll (members : List Member) {built : List Statement}
    (done : (Member.buildAll members).result = .ok built) : ∀ s ∈ built, s.Composable := by
  match members with
  | [] =>
    obtain rfl := Except.ok.inj done
    simp
  | ⟨origin, calls⟩ :: rest =>
    cases started : origin.start with
    | error error => simp [Member.buildAll, Member.build, started] at done
    | ok s =>
      cases first : (Call.build calls s).result with
      | error error => simp [Member.buildAll, Member.build, started, first] at done
      | ok statement =>
        simp only [Member.buildAll, Member.build, started, first] at done
        obtain ⟨others, rested, rfl⟩ := map_eq_ok.1 done
        intro t member
        rcases List.mem_cons.1 member with rfl | later
        · exact Call.composable_of_build calls (.start origin started trivial) first
        · exact Member.composable_of_buildAll rest rested t later

end

theorem Call.composable_runAll (calls : List Call) {s : Statement} (composable : s.Composable) :
    (Call.runAll calls s).Composable := by
  induction calls generalizing s with
  | nil => exact composable
  | cons call rest ih =>
    exact ih (.call call composable trivial fun _ added => call.composable_of_adds composable added)

end SqlComposer
