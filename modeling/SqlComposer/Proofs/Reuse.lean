import SqlComposer.Proofs.DraftParts
import SqlComposer.Proofs.Leftovers
import SqlComposer.Proofs.Reach

set_option autoImplicit false

namespace SqlComposer

namespace Call

-- An attempted call changes the statement as the call itself does.
def bare : Call → Call
  | .attempt call => call.bare
  | call => call

theorem statement_bare (call : Call) (s : Statement) :
    (call.bare.run s).statement = (call.run s).statement := by
  match call with
  | .attempt call => exact call.statement_bare s
  | .edit _ | .query _ | .whereGroup .. | .whereInQuery .. | .whereExists .. | .havingGroup ..
  | .union .. => rfl

def Clears (call : Call) (s : Statement) : Prop :=
  call.bare = .edit .reset ∨ call.bare.startsOver ∧ s.stage = .compiled

theorem run_of_kept {action : Edit} {s : Statement} (kept : ¬ (edit action).Clears s) :
    action.run s = match action.apply s with
      | .ok next => (.ok (), next)
      | .error error => (.error error, s) := by
  simp only [Clears, bare, startsOver, not_or, not_and] at kept
  have base : action.base s = s := by
    simp only [Edit.base, Statement.renewed_eq]
    split
    · next starts => rw [if_neg (kept.2 starts)]
    · rfl
  have ran := action.run_eq s
  rw [base] at ran
  exact ran

inductive Effect (call : Call) (s : Statement) : Statement → Prop where
  | same : Effect call s s
  | compiled : Effect call s s.compiled
  | edited {next : Statement} (action : Edit) (given : call = .edit action) (kept : action ≠ .reset)
      (applied : action.apply s = .ok next) : Effect call s next
  | filtered (connective : Connective) (predicate : Predicate) :
      Effect call s (s.addWhere connective predicate)
  | compared (connective : Connective) (predicate : Predicate) :
      Effect call s (s.addHaving connective predicate)
  | united (all : Bool) (list : List Member) (members : List Statement)
      (given : call = .union all list) (unset : s.kind = .unset) :
      Effect call s (.touched { s with kind := .union all (s :: members) })

theorem Effect.conclude {A : Type} {call : Call} {s : Statement} {built : Built A}
    {finish : A → Except Error Statement}
    (finished : ∀ a next, finish a = .ok next → call.Effect s next) :
    call.Effect s (built.conclude s finish).statement := by
  unfold Built.conclude
  split
  · next next done =>
    cases result : built.result with
    | error error => simp [result, Except.bind] at done
    | ok a => exact finished a next (by simpa [result, Except.bind] using done)
  · exact .same

theorem effect (call : Call) {s : Statement} (kept : ¬ call.Clears s) :
    call.bare.Effect s (call.run s).statement := by
  match call with
  | .edit action =>
    simp only [run, run_of_kept kept]
    split
    · next applied => exact .edited action rfl (fun resets => kept (.inl (resets ▸ rfl))) applied
    · exact .same
  | .query reading =>
    simp only [run, Query.run]
    cases reading.answer s with
    | error error => exact .same
    | ok reply =>
      dsimp only
      split
      · exact .compiled
      · exact .same
  | .whereGroup connective negated calls =>
    rw [run_whereGroup]
    refine .conclude fun child next done => ?_
    obtain rfl := Except.ok.inj done
    unfold Statement.whereGroup
    split
    · exact .same
    · exact .filtered ..
  | .havingGroup connective negated calls =>
    rw [run_havingGroup]
    refine .conclude fun child next done => ?_
    obtain rfl := Except.ok.inj done
    unfold Statement.havingGroup
    split
    · exact .same
    · exact .compared ..
  | .whereInQuery connective negated column calls =>
    rw [run_whereInQuery]
    split
    · exact .same
    · refine .conclude fun child next done => ?_
      obtain rfl := Except.ok.inj done
      exact .filtered ..
  | .whereExists connective negated calls =>
    rw [run_whereExists]
    refine .conclude fun child next done => ?_
    obtain rfl := Except.ok.inj done
    exact .filtered ..
  | .union all list =>
    rw [run_union]
    refine .conclude fun members next done => ?_
    obtain ⟨unset, -, rfl⟩ := Statement.union_eq_ok.1 done
    exact .united all list members rfl unset
  | .attempt call =>
    have inner : ¬ call.Clears s := kept
    exact call.effect inner

theorem run_cases {motive : Call → Statement → Prop} {s : Statement}
    (edited : ∀ action next, action ≠ .reset → action.apply s = .ok next →
      action.run s = (.ok (), next) → motive (.edit action) next)
    (failed : ∀ action error, action.apply s = .error error →
      action.run s = (.error error, s) → motive (.edit action) s)
    (other : ∀ call next, (∀ action, call ≠ .edit action) → (∀ inner, call ≠ .attempt inner) →
      call.Effect s next → motive call next)
    (attempted : ∀ call next, motive call next → motive (.attempt call) next)
    (call : Call) (kept : ¬ call.Clears s) : motive call (call.run s).statement := by
  match call with
  | .attempt call =>
    have inner : ¬ call.Clears s := kept
    exact attempted call _ (run_cases edited failed other attempted call inner)
  | .edit action =>
    have stays : action ≠ .reset := fun resets => kept (.inl (resets ▸ rfl))
    have ran := run_of_kept kept
    cases applied : action.apply s with
    | ok next =>
      rw [applied] at ran
      simpa only [run, ran] using edited action next stays applied ran
    | error error =>
      rw [applied] at ran
      simpa only [run, ran] using failed action error applied ran
  | .query _ | .whereGroup .. | .whereInQuery .. | .whereExists .. | .havingGroup .. | .union .. =>
    exact other _ _ (by simp) (by simp) (effect _ kept)

theorem stage_of_compiled {call : Call} {s : Statement} (compiled : s.stage = .compiled)
    (kept : ¬ call.Clears s) : (call.run s).statement.stage = .compiled := by
  have touched : s.stage.touched = .compiled := by rw [compiled]; rfl
  have made := call.effect kept
  generalize (call.run s).statement = next at made ⊢
  cases made with
  | same => exact compiled
  | compiled => rfl
  | edited action _ kept applied =>
    cases action.effect applied with
    | clauses | established | filtered | compared => exact touched
    | configured => exact compiled
    | cleared resets => exact absurd resets kept
  | filtered | compared | united => exact touched

end Call

/-- No call of the run clears the statement that it finds. -/
def Uninterrupted : List Call → Statement → Prop
  | [], _ => True
  | call :: rest, s => ¬ call.Clears s ∧ Uninterrupted rest (call.run s).statement

instance Call.decidableIsReset : (call : Call) → Decidable (call = .edit .reset)
  | .edit .reset => isTrue rfl
  | .edit (.fromTable _) | .edit (.table _) | .edit (.select _) | .edit (.selectRaw _) | .edit .distinct
  | .edit (.aggregate ..) | .edit (.join ..) | .edit (.wherePredicate ..) | .edit (.havingCompare ..)
  | .edit (.groupBy ..) | .edit (.orderBy ..) | .edit .orderByRandom | .edit (.limit _) | .edit (.take _)
  | .edit (.offset _) | .edit (.skip _) | .edit (.paginate ..) | .edit (.insert _) | .edit (.update _)
  | .edit .delete | .edit .truncate | .edit (.addReferenceChars _) | .edit (.setQuote _) | .query _
  | .whereGroup .. | .whereInQuery .. | .whereExists .. | .havingGroup .. | .union .. | .attempt _ =>
    isFalse nofun

instance (call : Call) (s : Statement) : Decidable (call.Clears s) :=
  inferInstanceAs (Decidable (call.bare = .edit .reset ∨ call.bare.startsOver ∧ s.stage = .compiled))

instance decidableUninterrupted : (calls : List Call) → (s : Statement) → Decidable (Uninterrupted calls s)
  | [], _ => isTrue trivial
  | call :: rest, s =>
    let _ := decidableUninterrupted rest (call.run s).statement
    inferInstanceAs (Decidable (¬ call.Clears s ∧ Uninterrupted rest (call.run s).statement))

theorem Uninterrupted.stage_of_compiled {calls : List Call} {s : Statement}
    (run : Uninterrupted calls s) (compiled : s.stage = .compiled) :
    (Call.runAll calls s).stage = .compiled := by
  induction calls generalizing s with
  | nil => exact compiled
  | cons call rest ih =>
    rw [Call.runAll_cons]
    exact ih run.2 (Call.stage_of_compiled compiled run.1)

namespace Edit

variable {edit : Edit}

theorem kept_of_startsOver (starts : edit.startsOver) : edit.configures = false := by
  cases edit with
  | fromTable | table | select | selectRaw => rfl
  | _ => cases starts

theorem settings_run (starts : edit.startsOver) (s : Statement) :
    (edit.run s).2.settings = s.settings := by
  rw [run_eq]
  split
  · next applied =>
    exact (settings_apply (kept_of_startsOver starts) applied).trans (edit.settings_base s)
  · exact edit.settings_base s

theorem apply_touched (starts : edit.startsOver) (s : Statement) :
    edit.apply s.touched = edit.apply s := by
  have twice : s.stage.touched.touched = s.stage.touched := by cases s.stage <;> rfl
  cases edit with
  | fromTable | table | select | selectRaw =>
    simp [apply, Statement.setTable, Statement.select, Statement.selectRaw, Statement.addItems,
      Statement.establish, Statement.touched, twice]
  | _ => cases starts

end Edit

theorem Draft.reset_of_statement {d : Draft} {s : Statement} (stands : d.statement = s) :
    d.reset = { Draft.new s.settings with table := s.reset.table } := by
  subst stands
  rw [Draft.reset, Statement.reset, statement_settings, statement_table]

theorem Draft.run_of_compiled {edit : Edit} (starts : edit.startsOver) {d : Draft}
    (compiled : d.stage = .compiled) : d.run (.edit edit) = d.reset.run (.edit edit) := by
  have renewed : d.base edit = d.reset := by rw [base, if_pos starts, Draft.renewed, compiled]
  have again : d.reset.base edit = d.reset := by rw [base, if_pos starts]; rfl
  rw [run, run, renewed, again]

/-- A compiled statement stays compiled until it is cleared. The edits that begin the next statement
then come to the same for any two with the same settings, the characters of references in the same order
(and the same table, if that is retained), whatever else these hold, and so do all calls behind them: they
come to what they do on a new statement. Nothing more is left of a draft: no call has set its kind, and its
random entries are counted from zero. -/
theorem reuse_starts_from_nothing (s t : Statement) (left : s.stage = .compiled)
    (right : t.stage = .compiled) (settings : s.settings = t.settings)
    (table : s.settings.retainTable → s.table = t.table) (edit : Edit) (starts : edit.startsOver) :
    let start : Statement :=
      { Statement.new s.settings with table := if s.settings.retainTable then s.table else none }
    let fresh : Draft :=
      { Draft.new s.settings with table := if s.settings.retainTable then s.table else none }
    (∀ calls, Uninterrupted calls s → (Call.runAll calls s).stage = .compiled) ∧
    (edit.run s = edit.run start ∧ edit.run t = edit.run start) ∧
    (edit.run s).2.settings = s.settings ∧
    (∀ next, edit.run s = (.ok (), next) → edit.run start.touched = (.ok (), next)) ∧
    (∀ calls,
      Call.runEach (.edit edit :: calls) s = Call.runEach (.edit edit :: calls) start ∧
      Call.runEach (.edit edit :: calls) t = Call.runEach (.edit edit :: calls) start ∧
      Call.runAll (.edit edit :: calls) s = Call.runAll (.edit edit :: calls) start ∧
      Call.runAll (.edit edit :: calls) t = Call.runAll (.edit edit :: calls) start) ∧
    fresh.statement = start ∧ fresh.explicit = false ∧ fresh.groups.randoms = 0 ∧ fresh.orders.randoms = 0 ∧
      ∀ d : Draft, d.statement = s ∨ d.statement = t → d.run (.edit edit) = fresh.run (.edit edit) := by
  intro start fresh
  have first : edit.run s = edit.run start := Edit.run_of_compiled starts left
  have same : t.reset = start := by
    by_cases retained : s.settings.retainTable
    · simp [Statement.reset, start, ← settings, retained, table retained]
    · simp [Statement.reset, start, ← settings, retained]
  have second : edit.run t = edit.run start := same ▸ Edit.run_of_compiled starts right
  have called : ∀ u, edit.run u = edit.run start → (Call.edit edit).run u = (Call.edit edit).run start :=
    fun u same => by rw [Call.run, Call.run, same]
  refine ⟨fun calls run => run.stage_of_compiled left, ⟨first, second⟩, edit.settings_run starts s,
    fun next done => ?_, fun calls => ?_, Draft.statement_new .., rfl, rfl, rfl, fun d stands => ?_⟩
  · have fresh : start.stage ≠ .compiled := by simp [start, Statement.new]
    have building : start.touched.stage ≠ .compiled := by
      simp [start, Statement.touched, Statement.new, Stage.touched]
    rw [first, Edit.run_of_not_compiled fresh] at done
    rw [Edit.run_of_not_compiled building, Edit.apply_touched starts]
    cases applied : edit.apply start with
    | error error => simp [applied] at done
    | ok made => simpa [applied] using done
  · simp only [Call.runEach, Call.runAll_cons, called s first, called t second, and_self]
  · have begins : d.stage = .compiled ∧ d.reset = fresh := by
      rcases stands with held | held
      · exact ⟨d.statement_stage ▸ held ▸ left, Draft.reset_of_statement held⟩
      · refine ⟨d.statement_stage ▸ held ▸ right, ?_⟩
        rw [Draft.reset_of_statement held, same, ← settings]
    rw [Draft.run_of_compiled starts begins.1, begins.2]

-- A sorted union, and an update that was filtered after it was compiled, both on a retained table.
theorem reuse_starts_from_nothing_retained :
    let new : Statement := .new { retainTable := true }
    let s := Call.runAll [.edit (.fromTable "a"), .union true [⟨.table "b", []⟩],
      .edit .orderByRandom, .query .toSql] new
    let t := Call.runAll [.edit (.fromTable "a"), .edit (.update (.pairs [("x", .null)])),
      .query .compile, .edit (.wherePredicate (.typed .and) (.isNull false "y"))] new
    let start : Statement := { new with table := some "a" }
    let edit : Edit := .select (.text "c")
    let text : Text := "SELECT `a`.`c` FROM `a`"
    s.stage = .compiled ∧ t.stage = .compiled ∧ s.settings = t.settings ∧ s.table = t.table ∧
      edit.run s = edit.run start ∧ edit.run t = edit.run start ∧ (edit.run t).2.sql = .ok text := by
  intro new s t start edit text
  have left : s.stage = .compiled := by decide +kernel
  have right : t.stage = .compiled := by decide +kernel
  have settings : s.settings = t.settings := by decide +kernel
  have table : s.table = t.table := by decide +kernel
  obtain ⟨-, ⟨first, second⟩, -⟩ :=
    reuse_starts_from_nothing s t left right settings (fun _ => table) edit rfl
  have begins : { Statement.new s.settings with
      table := if s.settings.retainTable then s.table else none } = start := by
    have same : s.settings = new.settings := by decide +kernel
    have held : s.table = some "a" := by decide +kernel
    rw [same, held]
    rfl
  rw [begins] at first second
  refine ⟨left, right, settings, table, first, second, ?_⟩
  rw [second]
  decide +kernel

end SqlComposer
