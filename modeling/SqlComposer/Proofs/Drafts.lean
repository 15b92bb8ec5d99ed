import SqlComposer.Proofs.DraftParts
import SqlComposer.Proofs.Reach
import SqlComposer.Proofs.SortEntries

set_option autoImplicit false

namespace SqlComposer

/-- Until a call sets it the kind selects everything, and only a kind that selects lists items. A fresh draft
holds nothing but its settings and the table that it was given or kept. -/
structure Draft.Sound (d : Draft) : Prop where
  implicit : d.explicit = false → d.kind = .select ∧ d.items = []
  listed : d.kind ≠ .select → d.items = []
  fresh : d.stage = .fresh → d = { Draft.new d.settings with table := d.table }

def DraftPredicate.Held : DraftPredicate → Prop
  | .plain predicate => predicate.isLeaf
  | _ => True

abbrev Draft.Faithful (d : Draft) : Prop := d.Every Draft.Sound DraftPredicate.Held

namespace Draft

variable {d : Draft}

theorem faithful_new (settings : Settings) (table : Option Text) :
    ({ new settings with table } : Draft).Faithful :=
  .bare ⟨fun _ => ⟨rfl, rfl⟩, fun _ => rfl, fun _ => rfl⟩

theorem faithful_child (d : Draft) (bound : Bool) : (d.child bound).Faithful := faithful_new ..

-- A call that touches the draft leaves it neither fresh nor with another kind or select list.
theorem Sound.touch {next : Draft} (sound : d.Sound) (kind : next.kind = d.kind)
    (explicit : next.explicit = d.explicit) (items : next.items = d.items)
    (stage : next.stage = d.stage.touched) : next.Sound where
  implicit := by
    rw [kind, explicit, items]
    exact sound.implicit
  listed := by
    rw [kind, items]
    exact sound.listed
  fresh untouched := absurd (stage ▸ untouched) (Stage.touched_ne_fresh d.stage)

theorem Sound.compiled (sound : d.Sound) : d.compiled.Sound where
  implicit := sound.implicit
  listed := sound.listed
  fresh := nofun

theorem Faithful.base (faithful : d.Faithful) (edit : Edit) : (d.base edit).Faithful := by
  unfold Draft.base renewed
  split
  · split
    · exact faithful_new ..
    · exact faithful
  · exact faithful

structure Follows (drafted : Except Error Draft) (made : Except Error Statement) : Prop where
  statement : drafted.map Draft.statement = made
  faithful : ∀ next, drafted = .ok next → next.Faithful

namespace Follows

theorem error (error : Error) : Follows (.error error) (.error error) := ⟨rfl, nofun⟩

theorem ok {next : Draft} {s : Statement} (same : next.statement = s) (faithful : next.Faithful) :
    Follows (.ok next) (.ok s) where
  statement := congrArg Except.ok same
  faithful := by
    rintro _ ⟨⟩
    exact faithful

theorem require {A : Type} {checked : Except Error A} {f : A → Except Error Draft}
    {g : A → Except Error Statement} (later : ∀ a, checked = .ok a → Follows (f a) (g a)) :
    Follows (checked >>= f) (checked >>= g) := by
  cases checked with
  | error reason => exact error reason
  | ok a => exact later a rfl

theorem map {drafted : Except Error Draft} {made : Except Error Statement} {f : Draft → Draft}
    {g : Statement → Statement} (follows : Follows drafted made)
    (later : ∀ next, next.Faithful → (f next).statement = g next.statement ∧ (f next).Faithful) :
    Follows (drafted.map f) (made.bind fun s => .ok (g s)) := by
  obtain rfl := follows.statement
  cases drafted with
  | error reason => exact error reason
  | ok next =>
    obtain ⟨same, faithful⟩ := later next (follows.faithful next rfl)
    exact ok same faithful

end Follows

/-! ### The kind and the select list -/

theorem setKind_sound (sound : d.Sound) {kind : DraftKind} (allowed : d.conflicts kind = false) :
    (touched { d with kind, explicit := true }).Sound where
  implicit := nofun
  listed other := by
    cases explicit : d.explicit with
    | false => exact (sound.implicit explicit).2
    | true =>
      have alike : d.kind.isLike kind = true := by
        simp only [conflicts, explicit, Bool.true_and, Bool.or_eq_false_iff, Bool.not_eq_false'] at allowed
        exact allowed.1
      refine sound.listed fun selects => other ?_
      rw [selects] at alike
      cases kind <;> first | rfl | cases alike
  fresh untouched := absurd untouched (Stage.touched_ne_fresh d.stage)

-- A call conflicts with the kind of a draft just where the statement's kind does not admit its own.
theorem admits_merged (sound : d.Sound) (kind : DraftKind) (items : List SelectItem) :
    d.statement.kind.admits (kind.merged true items) = !d.conflicts kind := by
  rw [statement_kind, conflicts]
  cases explicit : d.explicit with
  | false =>
    rw [(sound.implicit explicit).1]
    rfl
  | true => cases d.kind <;> cases kind <;> rfl

theorem name_merged (explicit : Bool) (items : List SelectItem) (kind : DraftKind) :
    (kind.merged explicit items).name = kind.name := by
  cases kind <;> first | rfl | cases explicit <;> rfl

theorem items_merged (sound : d.Sound) : d.statement.kind.items = d.items := by
  rw [statement_kind]
  cases explicit : d.explicit with
  | false =>
    obtain ⟨kind, items⟩ := sound.implicit explicit
    rw [kind, items]
    rfl
  | true =>
    cases kind : d.kind with
    | select => rfl
    | _ => exact (sound.listed (by simp [kind])).symm

theorem setKind_follows (faithful : d.Faithful) (method : Text) {kind : DraftKind}
    (inside : kind.Every Draft.Sound DraftPredicate.Held) :
    Follows (d.setKind method kind) (d.statement.establish method (kind.merged true d.items)) := by
  unfold setKind Statement.establish
  rw [admits_merged faithful.own, statement_kind, name_merged]
  cases allowed : d.conflicts kind with
  | true => exact .error _
  | false =>
    refine .ok ?_ (faithful.setKind inside (setKind_sound faithful.own allowed))
    rw [statement_touched, statement_eq, statement_eq d]
    rfl

theorem foldl_push (items : List SelectItem) (d : Draft) :
    items.foldl (fun d item => d.push item) d = { d with items := d.items ++ items } := by
  induction items generalizing d with
  | nil =>
    cases d
    simp
  | cons item rest ih =>
    rw [List.foldl_cons, ih]
    simp [push]

theorem selecting_sound (d : Draft) (items : List SelectItem) :
    (touched { d with kind := .select, explicit := true, items }).Sound where
  implicit := nofun
  listed other := absurd rfl other
  fresh untouched := absurd untouched (Stage.touched_ne_fresh d.stage)

theorem addItems_follows (faithful : d.Faithful) (method : Text) (items : List SelectItem) :
    Follows (d.addItems method items) (d.statement.addItems method items) := by
  have kinds : d.statement.kind.admits (.select (d.items ++ items)) = !d.conflicts .select :=
    admits_merged faithful.own .select (d.items ++ items)
  unfold addItems setKind Statement.addItems Statement.establish
  rw [items_merged faithful.own, kinds, statement_kind, name_merged]
  cases d.conflicts .select with
  | true => exact .error _
  | false =>
    have selects : (touched { d with kind := .select, explicit := true }).Faithful :=
      faithful.setKind trivial (selecting_sound d d.items)
    simp only [foldl_push]
    refine .ok ?_ (selects.step (selecting_sound d (d.items ++ items)) rfl rfl rfl)
    rw [statement_eq, statement_eq d]
    rfl

theorem union_follows (faithful : d.Faithful) (all : Bool) {members : List Draft}
    (inside : ∀ member ∈ members, member.Faithful) :
    Follows (d.union all members) (d.statement.union all (members.map Draft.statement)) := by
  cases explicit : d.explicit with
  | true =>
    have established : d.statement.kind ≠ .unset := by
      rw [statement_kind, explicit]
      cases d.kind <;> simp [DraftKind.merged]
    rw [Statement.union_of_established _ _ _ established, statement_kind, name_merged, union, if_pos explicit]
    exact .error _
  | false =>
    have unset : d.statement.kind = .unset := by
      rw [statement_kind, explicit, (faithful.own.implicit explicit).1]
      rfl
    rw [Statement.union_of_unset _ _ _ unset, union, if_neg (by simp [explicit]), List.isEmpty_map]
    split
    · exact .error _
    · have whole : DraftKind.merged true d.items (.union all (d :: members)) =
          .union all (d.statement :: members.map Draft.statement) := by
        rw [DraftKind.merged, Draft.statements, Draft.statements_eq]
      rw [← whole]
      exact setKind_follows faithful _ ⟨faithful, (Draft.everyOf_iff members).2 inside⟩

/-! ### Edits -/

theorem addWhere_faithful (faithful : d.Faithful) {connective : Connective} {predicate : DraftPredicate}
    (inside : predicate.Every Draft.Sound DraftPredicate.Held) : (d.addWhere connective predicate).Faithful :=
  faithful.addWhere (faithful.own.touch rfl rfl rfl rfl) inside

theorem addHaving_faithful (faithful : d.Faithful) {connective : Connective} {predicate : DraftPredicate}
    (inside : predicate.Every Draft.Sound DraftPredicate.Held) : (d.addHaving connective predicate).Faithful :=
  faithful.addHaving (faithful.own.touch rfl rfl rfl rfl) inside

theorem whereGroup_faithful (faithful : d.Faithful) {child : Draft} (inside : child.Faithful)
    (connective : Connective) (negated : Bool) : (d.whereGroup connective negated child).Faithful := by
  unfold whereGroup
  split
  · exact faithful
  · exact addWhere_faithful faithful ⟨trivial, ((every_iff child).1 inside).2.2.1⟩

theorem havingGroup_faithful (faithful : d.Faithful) {child : Draft} (inside : child.Faithful)
    (connective : Connective) (negated : Bool) : (d.havingGroup connective negated child).Faithful := by
  unfold havingGroup
  split
  · exact faithful
  · exact addHaving_faithful faithful ⟨trivial, ((every_iff child).1 inside).2.2.2⟩

end Draft

namespace Edit

def isCommon : Edit → Bool
  | .fromTable _ | .table _ | .distinct | .join .. | .limit _ | .take _ | .offset _ | .skip _
  | .paginate .. | .addReferenceChars _ | .setQuote _ => true
  | _ => false

theorem apply_framed {edit : Edit} (common : edit.isCommon) (s : Statement) (kind : Kind)
    (wheres havings : List Condition) (groups orders : List SortEntry) :
    edit.apply { s with kind, wheres, groups, havings, orders } =
      (edit.apply s).map fun next => { next with kind, wheres, groups, havings, orders } := by
  cases edit with
  | fromTable name | table name =>
    simp only [apply, Statement.setTable]
    cases Reference.check s.settings _ name <;> rfl
  | distinct => rfl
  | join joined left? right? operator? kind? =>
    simp only [apply, Statement.join]
    cases s.table with
    | none => rfl
    | some current =>
      dsimp only
      cases joinInput s.settings current joined left? right? operator? kind? <;> rfl
  | limit count | take count =>
    simp only [apply, Statement.setLimit]
    cases count.toCount _ <;> rfl
  | offset count | skip count =>
    simp only [apply, Statement.setOffset]
    cases count.toCount _ <;> rfl
  | paginate page perPage =>
    simp only [apply, Statement.paginate]
    cases s.pagination.paginate page perPage <;> rfl
  | addReferenceChars chars =>
    simp only [apply]
    cases chars.toChars <;> rfl
  | setQuote quote =>
    simp only [apply]
    cases Quote.ofText quote <;> rfl
  | _ => cases common

end Edit

namespace Draft

variable {d : Draft}

theorem apply_common {edit : Edit} (common : edit.isCommon) :
    d.apply edit = (edit.apply d.common).map fun s => d.withCommon s := by
  cases edit <;> first | rfl | cases common

theorem statement_withCommon (d : Draft) (s : Statement) : (d.withCommon s).statement =
    { s with
      kind := d.kind.merged d.explicit d.items
      wheres := DraftCondition.conditions d.wheres
      groups := d.groups.shown
      havings := DraftCondition.conditions d.havings
      orders := d.orders.shown } := by
  rw [statement_eq]
  rfl

theorem common_sound (sound : d.Sound) {edit : Edit} (common : edit.isCommon) {s : Statement}
    (applied : edit.apply d.common = .ok s) : (d.withCommon s).Sound := by
  cases edit.effect applied with
  | clauses | established | filtered | compared => exact sound.touch rfl rfl rfl rfl
  | configured settings =>
    refine ⟨sound.implicit, sound.listed, fun fresh => ?_⟩
    exact congrArg (fun d : Draft => { d with settings }) (sound.fresh fresh)
  | cleared resets =>
    subst resets
    cases common

theorem common_follows (faithful : d.Faithful) {edit : Edit} (common : edit.isCommon) :
    Follows (d.apply edit) (edit.apply d.statement) := by
  rw [apply_common common, statement_eq, Edit.apply_framed common]
  cases applied : edit.apply d.common with
  | error reason => exact .error reason
  | ok s => exact .ok (d.statement_withCommon s) (faithful.step (common_sound faithful.own common applied) rfl rfl rfl)

theorem apply_follows (faithful : d.Faithful) (edit : Edit) :
    Follows (d.apply edit) (edit.apply d.statement) := by
  have sound := faithful.own
  cases edit with
  | select columns =>
    simp only [apply, Edit.apply, Statement.select, statement_settings]
    exact .require fun references _ => addItems_follows faithful _ _
  | selectRaw columns => exact addItems_follows faithful _ _
  | aggregate function column? alias? =>
    simp only [apply, Edit.apply, Statement.aggregate, statement_settings]
    exact .require fun item _ => addItems_follows faithful _ _
  | wherePredicate connective input =>
    simp only [apply, Edit.apply, Statement.wherePredicate, statement_settings]
    refine .require fun connective _ => .require fun predicate found => ?_
    exact .ok (statement_addWhere ..)
      (addWhere_faithful faithful (PredicateInput.madeIn_of_toPredicate found).leaf)
  | havingCompare connective negated column comparison value =>
    simp only [apply, Edit.apply, Statement.havingCompare, statement_settings]
    refine .require fun connective _ => .require fun predicate found => ?_
    exact .ok (statement_addHaving ..) (addHaving_faithful faithful (madeIn_of_compareInput found).leaf)
  | groupBy input direction? =>
    simp only [apply, Edit.apply, Statement.groupBy, statement_settings]
    refine .require fun entries _ => .ok ?_ (faithful.step (sound.touch rfl rfl rfl rfl) rfl rfl rfl)
    simp only [statement_touched, statement_withGroups, SortMap.shown_putAll, statement_groups, statement_settings]
  | orderBy input direction? =>
    simp only [apply, Edit.apply, Statement.orderBy, statement_settings]
    refine .require fun entries _ => .ok ?_ (faithful.step (sound.touch rfl rfl rfl rfl) rfl rfl rfl)
    simp only [statement_touched, statement_withOrders, SortMap.shown_putAll, statement_orders, statement_settings]
  | orderByRandom =>
    simp only [apply, Edit.apply, Statement.orderByRandom]
    refine .ok ?_ (faithful.step (sound.touch rfl rfl rfl rfl) rfl rfl rfl)
    simp only [statement_touched, statement_withOrders, SortMap.shown_add, statement_orders]
    rfl
  | insert input =>
    simp only [apply, Edit.apply]
    refine .require fun rows _ => ?_
    cases rows with
    | nil => exact .error _
    | cons row rest =>
      rw [Statement.insert_cons, statement_settings]
      exact .require fun _ _ => setKind_follows faithful "insert" trivial
  | update input =>
    simp only [apply, Edit.apply, Statement.update, statement_settings]
    exact .require fun row _ => .require fun _ _ => setKind_follows faithful "update" trivial
  | delete => exact setKind_follows faithful "delete" trivial
  | truncate => exact setKind_follows faithful "truncate" trivial
  | reset => exact .ok (statement_reset d) (faithful_new ..)
  | fromTable | table | distinct | join | limit | take | offset | skip | paginate | addReferenceChars
  | setQuote => exact common_follows faithful rfl

theorem start_follows (origin : Origin) : Follows (start origin) origin.start := by
  cases origin with
  | blank => exact .ok (statement_new {} none) (faithful_new {} none)
  | table name =>
    have new := apply_follows (faithful_new {} none) (.fromTable name)
    rwa [statement_new] at new
  | settings input =>
    simp only [start, Origin.start]
    cases input.build with
    | error reason => exact .error reason
    | ok settings => exact .ok (statement_new settings none) (faithful_new settings none)
  | dialect value => exact .ok (statement_new _ none) (faithful_new _ none)

/-! ### Calls -/

structure Tracks (ran : Except Error Reply × Draft) (outcome : Outcome) : Prop where
  result : ran.1 = outcome.result
  statement : ran.2.statement = outcome.statement
  faithful : ran.2.Faithful

theorem conclude_tracks {A : Type} {built : Built A} {finish : A → Except Error Statement}
    {drafted : Except Error Draft} (faithful : d.Faithful)
    (follows : Follows drafted (built.result.bind finish)) :
    Tracks (d.conclude drafted) (built.conclude d.statement finish) := by
  unfold Built.conclude
  rw [← follows.statement]
  cases drafted with
  | error reason => exact ⟨rfl, rfl, faithful⟩
  | ok next => exact ⟨rfl, rfl, follows.faithful next rfl⟩

theorem edit_tracks (faithful : d.Faithful) (edit : Edit) :
    Tracks (d.run (.edit edit)) ((Call.edit edit).run d.statement) := by
  have base := faithful.base edit
  have follows := apply_follows base edit
  rw [run, Call.run, Edit.run_eq, ← statement_base, ← follows.statement]
  cases applied : (d.base edit).apply edit with
  | error reason => exact ⟨rfl, rfl, base⟩
  | ok next => exact ⟨rfl, rfl, follows.faithful next applied⟩

theorem query_tracks (faithful : d.Faithful) (query : Query) :
    Tracks (d.run (.query query)) ((Call.query query).run d.statement) := by
  rw [run, Call.run, Query.run]
  cases query.answer d.statement with
  | error reason => exact ⟨rfl, rfl, faithful⟩
  | ok reply =>
    cases query.compiles with
    | true => exact ⟨rfl, d.statement_compiled, faithful.step faithful.own.compiled rfl rfl rfl⟩
    | false => exact ⟨rfl, rfl, faithful⟩

mutual

theorem run_tracks (call : Call) {d : Draft} (faithful : d.Faithful) :
    Tracks (d.run call) (call.run d.statement) := by
  match call with
  | .edit edit => exact edit_tracks faithful edit
  | .query query => exact query_tracks faithful query
  | .whereGroup connective negated calls =>
    have built := build_follows calls (faithful_child d true)
    rw [Call.run_whereGroup, run, ← statement_child]
    exact conclude_tracks faithful (built.map fun child inside =>
      ⟨statement_whereGroup .., whereGroup_faithful faithful inside ..⟩)
  | .whereInQuery connective negated column calls =>
    have built := build_follows calls (faithful_child d false)
    rw [Call.run_whereInQuery, run, statement_settings, ← statement_child]
    cases Reference.check d.settings "where_in" column with
    | error reason => exact ⟨rfl, rfl, faithful⟩
    | ok checked =>
      exact conclude_tracks faithful (built.map fun child inside =>
        ⟨statement_addWhere .., addWhere_faithful faithful ⟨trivial, inside⟩⟩)
  | .whereExists connective negated calls =>
    have built := build_follows calls (faithful_child d true)
    rw [Call.run_whereExists, run, ← statement_child]
    exact conclude_tracks faithful (built.map fun child inside =>
      ⟨statement_addWhere .., addWhere_faithful faithful ⟨trivial, inside⟩⟩)
  | .havingGroup connective negated calls =>
    have built := build_follows calls (faithful_child d true)
    rw [Call.run_havingGroup, run, ← statement_child]
    exact conclude_tracks faithful (built.map fun child inside =>
      ⟨statement_havingGroup .., havingGroup_faithful faithful inside ..⟩)
  | .union all members =>
    obtain ⟨same, inside⟩ := buildAll_follows members
    rw [Call.run_union, run]
    refine conclude_tracks faithful ?_
    rw [← same]
    cases built : buildAll members with
    | error reason => exact .error reason
    | ok list => exact union_follows faithful all (inside list built)
  | .attempt call =>
    have tracked := run_tracks call faithful
    rw [run, Call.run]
    refine ⟨?_, tracked.statement, tracked.faithful⟩
    rw [← tracked.result]

theorem build_follows (calls : List Call) {d : Draft} (faithful : d.Faithful) :
    Follows (build calls d) (Call.build calls d.statement).result := by
  match calls with
  | [] => exact .ok rfl faithful
  | call :: rest =>
    have tracked := run_tracks call faithful
    simp only [build, Call.build]
    rw [← tracked.result, ← tracked.statement]
    match ran : d.run call with
    | (.error reason, _) => exact .error reason
    | (.ok _, next) =>
      rw [ran] at tracked
      exact build_follows rest tracked.faithful

theorem buildAll_follows (members : List Member) :
    (buildAll members).map (List.map Draft.statement) = (Member.buildAll members).result ∧
      ∀ built, buildAll members = .ok built → ∀ member ∈ built, member.Faithful := by
  match members with
  | [] =>
    refine ⟨rfl, ?_⟩
    rintro _ ⟨⟩
    simp
  | ⟨origin, calls⟩ :: rest =>
    have started := start_follows origin
    simp only [buildAll, buildMember, Member.buildAll, Member.build]
    rw [← started.statement]
    cases first : start origin with
    | error reason => exact ⟨rfl, nofun⟩
    | ok d =>
      have built := build_follows calls (started.faithful d first)
      obtain ⟨same, inside⟩ := buildAll_follows rest
      dsimp only [Except.map]
      rw [← built.statement]
      cases made : build calls d with
      | error reason => exact ⟨rfl, nofun⟩
      | ok member =>
        refine ⟨?_, fun list done => ?_⟩
        · dsimp only [Except.map]
          rw [← same]
          cases buildAll rest <;> rfl
        · obtain ⟨others, rested, rfl⟩ := map_eq_ok.1 done
          exact List.forall_mem_cons.2 ⟨built.faithful member made, inside others rested⟩

end

/-! ### Drafts that come from calls -/

/-- Drafts that come from any calls, failed ones among them. -/
inductive Drafted : Draft → Prop where
  | start {d : Draft} (origin : Origin) (started : start origin = .ok d) : Drafted d
  | child {d : Draft} (bound : Bool) (drafted : Drafted d) : Drafted (d.child bound)
  | call {d : Draft} (call : Call) (drafted : Drafted d) : Drafted (d.run call).2

theorem Drafted.faithful (drafted : d.Drafted) : d.Faithful := by
  induction drafted with
  | start origin started => exact (start_follows origin).faithful _ started
  | child bound drafted ih => exact faithful_child _ bound
  | call call drafted ih => exact (run_tracks call ih).faithful

theorem Drafted.runAll (drafted : d.Drafted) (calls : List Call) : (Draft.runAll calls d).Drafted := by
  induction calls generalizing d with
  | nil => exact drafted
  | cons call rest ih => exact ih (.call call drafted)

theorem Drafted.composable (drafted : d.Drafted) : d.statement.Composable := by
  induction drafted with
  | @start d origin started =>
    have same := (start_follows origin).statement
    rw [started] at same
    exact .start origin same.symm trivial
  | @child d bound drafted ih =>
    rw [statement_child]
    exact .child bound ih
  | @call d call drafted ih =>
    rw [(run_tracks call drafted.faithful).statement]
    exact .call call ih trivial fun _ added => call.composable_of_adds ih added

theorem exists_drafted {s : Statement} (composable : s.Composable) :
    ∃ d : Draft, d.Drafted ∧ d.statement = s := by
  induction composable with
  | start origin started _ =>
    have follows := start_follows origin
    rw [started] at follows
    obtain ⟨d, made, same⟩ := map_eq_ok.1 follows.statement
    exact ⟨d, .start origin made, same⟩
  | child bound _ ih =>
    obtain ⟨d, drafted, rfl⟩ := ih
    exact ⟨d.child bound, drafted.child bound, statement_child d bound⟩
  | call call _ _ _ ih _ =>
    obtain ⟨d, drafted, rfl⟩ := ih
    exact ⟨(d.run call).2, drafted.call call, (run_tracks call drafted.faithful).statement⟩

end Draft

end SqlComposer
