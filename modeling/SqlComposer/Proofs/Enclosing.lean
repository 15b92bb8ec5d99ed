import SqlComposer.Proofs.Clauses
import SqlComposer.Proofs.Inheritance
import SqlComposer.Proofs.Writing

set_option autoImplicit false

namespace SqlComposer

open Token

def Statement.Refiltered (s t : Statement) : Prop := ∃ wheres stage, t = { s with wheres, stage }

theorem Statement.Refiltered.refl (s : Statement) : s.Refiltered s := by
  cases s
  exact ⟨_, _, rfl⟩

theorem Statement.Refiltered.elim {s : Statement} {P : Statement → Prop}
    (each : ∀ wheres stage, P { s with wheres, stage }) (t : Statement) (only : s.Refiltered t) : P t := by
  obtain ⟨wheres, stage, rfl⟩ := only
  exact each wheres stage

/-! ### Calls on the predicates -/

namespace Call

variable {call : Call} {calls : List Call} {s child : Statement}

theorem clause?_of_startsOver (starts : call.startsOver) : call.clause? ≠ some .wheres := by
  cases call with
  | edit action =>
    cases action with
    | fromTable | table | select | selectRaw => simp [clause?, Edit.clause?]
    | _ => cases starts
  | _ => cases starts

theorem not_clears_wheres (given : call.clause? = some .wheres) : ¬ call.Clears s := by
  rw [← clause?_bare] at given
  rintro (resets | ⟨starts, -⟩)
  · rw [resets] at given
    cases given
  · exact clause?_of_startsOver starts given

theorem run_wheres (given : call.clause? = some .wheres) (s : Statement) (stage : Stage) :
    s.Refiltered (call.run s).statement ∧
      (call.run { s with stage }).report = (call.run s).report ∧
      ∃ after, (call.run { s with stage }).statement =
        { (call.run s).statement with stage := after } := by
  obtain ⟨act, same⟩ := confined given
  obtain ⟨report, statement⟩ := same s (not_clears_wheres given)
  obtain ⟨reportAt, statementAt⟩ := same { s with stage } (not_clears_wheres given)
  have written (u : Statement) (content? : Option (List Condition)) : ∃ after,
      Clause.wheres.write u content? = { u with wheres := content?.getD u.wheres, stage := after } := by
    match u, content? with
    | { stage, .. }, none => exact ⟨stage, rfl⟩
    | { stage, .. }, some wheres => exact ⟨stage.touched, rfl⟩
  obtain ⟨after, here⟩ := written s (act s.settings s.table s.wheres).2
  obtain ⟨last, there⟩ := written { s with stage } (act s.settings s.table s.wheres).2
  have left := statement.trans here
  refine ⟨⟨_, after, left⟩, reportAt.trans report.symm, last, ?_⟩
  rw [left]
  exact statementAt.trans there

theorem build_wheres (given : ∀ call ∈ calls, call.clause? = some .wheres)
    (built : (build calls s).result = .ok child) (stage : Stage) : s.Refiltered child ∧
      ∃ last, (build calls { s with stage }).result = .ok { child with stage := last } := by
  induction calls generalizing s stage with
  | nil =>
    obtain rfl := Except.ok.inj built
    exact ⟨.refl s, stage, rfl⟩
  | cons call rest ih =>
    obtain ⟨first, later⟩ := List.forall_mem_cons.1 given
    obtain ⟨⟨wheres, after, left⟩, report, next, same⟩ := run_wheres first s stage
    have answer : (call.run { s with stage }).result = (call.run s).result :=
      congrArg Report.result report
    cases ran : (call.run s).result with
    | error error => simp [build, ran] at built
    | ok reply =>
      simp only [build, ran] at built
      obtain ⟨⟨others, last, inner⟩, final, done⟩ := ih later built next
      refine ⟨⟨others, last, ?_⟩, final, ?_⟩
      · rw [inner, left]
      · simp only [build, answer, ran, same, done]

end Call

/-! ### Groups in groups -/

/-- A group whose calls are a group, and so on; the calls stand in the last one. -/
def Call.nest : List (Connective × Bool) → List Call → List Call
  | [], calls => calls
  | (connective, negated) :: levels, calls => [.whereGroup connective negated (nest levels calls)]

def Condition.nest : List (Connective × Bool) → List Condition → List Condition
  | [], conditions => conditions
  | (connective, negated) :: levels, conditions =>
    let inner := nest levels conditions
    if inner.isEmpty then [] else [⟨connective, .group negated inner⟩]

def notText (negated : Bool) : Text := if negated then "NOT " else ""

def enclose : List Bool → Text → Text
  | [], text => text
  | negated :: levels, text => notText negated ++ '(' :: enclose levels text ++ [')']

theorem enclose_replicate (depth : Nat) (text : Text) :
    enclose (List.replicate depth false) text =
      List.replicate depth '(' ++ text ++ List.replicate depth ')' := by
  induction depth with
  | zero => simp [enclose]
  | succ depth ih =>
    have last : List.replicate (depth + 1) ')' = List.replicate depth ')' ++ [')'] :=
      List.replicate_succ'
    rw [last]
    simp [List.replicate_succ, enclose, notText, ih]

theorem Call.build_nest (levels : List (Connective × Bool)) {calls : List Call} {s child : Statement}
    (built : (build calls (s.child true)).result = .ok child) :
    ∃ last, (build (nest levels calls) (s.child true)).result = .ok last ∧
      last.wheres = Condition.nest levels child.wheres := by
  induction levels with
  | nil => exact ⟨child, built, rfl⟩
  | cons level levels ih =>
    obtain ⟨connective, negated⟩ := level
    obtain ⟨inner, done, same⟩ := ih
    have bound : (s.child true).child true = s.child true := rfl
    refine ⟨(s.child true).whereGroup connective negated inner, ?_, ?_⟩
    · simp only [nest, build, run_whereGroup, bound, Built.conclude, done, Except.bind]
    · unfold Statement.whereGroup Condition.nest
      rw [← same]
      cases inner.wheres <;> rfl

namespace Condition

variable {conditions : List Condition} {levels : List (Connective × Bool)}

@[simp] theorem nest_eq_nil : nest levels conditions = [] ↔ conditions = [] := by
  induction levels with
  | nil => rfl
  | cons level levels ih => simp [nest, ih]

theorem checkAll_nest : checkAll (nest levels conditions) = checkAll conditions := by
  induction levels with
  | nil => rfl
  | cons level levels ih =>
    rw [nest]
    split
    · next empty =>
      obtain rfl := nest_eq_nil.1 (List.isEmpty_iff.1 empty)
      rfl
    · rw [checkAll_cons, Predicate.check, ih]
      exact bind_pure _

theorem listValues_nest : listValues (nest levels conditions) = listValues conditions := by
  induction levels with
  | nil => rfl
  | cons level levels ih =>
    rw [nest]
    split
    · next empty =>
      obtain rfl := nest_eq_nil.1 (List.isEmpty_iff.1 empty)
      rfl
    · simp [listValues, Predicate.values, ih]

theorem sql_group (scope : Scope) (negated : Bool) (conditions : List Condition) :
    Token.sql ((Predicate.group negated conditions).tokens scope) =
      enclose [negated] (Token.sql (listTokens scope conditions)) := by
  have lead : Token.sql (notTokens negated) = notText negated := by cases negated <;> rfl
  simp [Predicate.tokens, parenthesised, lead, enclose]

theorem sql_nest (scope : Scope) (some : conditions ≠ []) :
    Token.sql (listTokens scope (nest levels conditions)) =
      enclose (levels.map Prod.snd) (Token.sql (listTokens scope conditions)) := by
  induction levels with
  | nil => rfl
  | cons level levels ih =>
    rw [nest, if_neg (by simpa using some), listTokens_cons, sql_append, sql_group, ih]
    simp [laterTokens, enclose]

theorem listValues_append (first second : List Condition) :
    listValues (first ++ second) = listValues first ++ listValues second := by
  induction first with
  | nil => rfl
  | cons condition rest ih =>
    obtain ⟨connective, predicate⟩ := condition
    simp [listValues, ih]

end Condition

/-! ### The text of a filter -/

theorem joinPredicates_concat (held : List (Connective × Text)) (connective : Connective) (text : Text) :
    joinPredicates (held ++ [(connective, text)]) =
      (if held.isEmpty then [] else joinPredicates held ++ ' ' :: connective.sql ++ [' ']) ++ text := by
  cases held with
  | nil => simp [joinPredicates]
  | cons first rest => simp [joinPredicates]

def Kind.filters : Kind → Bool
  | .unset | .select _ | .update _ | .delete => true
  | .insert _ | .truncate | .union .. => false

namespace Statement

def predicates (s : Statement) : Except Error (List (Connective × Text)) :=
  s.wheres.mapM (Condition.sqlIn s.scope)

def whereText (s : Statement) : Except Error Text := (Condition.writeList s.wheres).textIn s.scope

def whereClause (s : Statement) : Except Error Text :=
  if s.wheres.isEmpty then .ok [] else s.whereText.map (" WHERE " ++ ·)

def assembled (front : Text) (rest : Except Error Unit) (behind : Text) (s : Statement) :
    Except Error Text := do
  requireTable s.table
  let filter ← s.whereClause
  rest
  return front ++ filter ++ behind

variable {s next : Statement}

theorem whereText_eq_check (s : Statement) : s.whereText =
    (Condition.checkAll s.wheres).map fun _ => Token.sql (Condition.listTokens s.scope s.wheres) :=
  (Condition.writeList_renders s.wheres s.scope).textIn

theorem whereText_eq (s : Statement) : s.whereText = s.predicates.map joinPredicates := by
  rw [whereText_eq_check, predicates, mapM_sqlIn, sql_listTokens]
  cases Condition.checkAll s.wheres <;> rfl

theorem whereClause_eq (s : Statement) : s.whereClause =
    (Condition.checkAll s.wheres).map fun _ => Token.sql (clauseTokens s.wheres
      [.space, .word .WHERE, .space] (Condition.listTokens s.scope s.wheres)) := by
  have lead : Token.sql [.space, .word .WHERE, .space] = (" WHERE " : Text) := rfl
  unfold whereClause clauseTokens
  split
  · next empty =>
    rw [List.isEmpty_iff.1 empty]
    rfl
  · rw [whereText_eq_check, sql_append, lead]
    cases Condition.checkAll s.wheres <;> rfl

theorem sql_eq_assembled {front behind : List Token} {rest : Except Error Unit}
    (checked : s.check = do requireTable s.table; Condition.checkAll s.wheres; rest)
    (written : s.tokens = front ++ clauseTokens s.wheres [.space, .word .WHERE, .space]
      (Condition.listTokens s.scope s.wheres) ++ behind) :
    s.sql = s.assembled (Token.sql front) rest (Token.sql behind) := by
  rw [sql_eq, checked, written, assembled, whereClause_eq, sql_append, sql_append]
  cases requireTable s.table <;> cases Condition.checkAll s.wheres <;> cases rest <;> rfl

theorem sql_of_filters (filters : s.kind.filters) : ∃ front rest behind,
    ∀ t, s.Refiltered t → t.sql = t.assembled front rest behind := by
  match s with
  | { settings, kind, distinct, table, joins, groups, havings, orders, pagination, .. } =>
    let scope := Scope.ofTable settings table
    let sorted := orderTokens scope .space orders ++ pagination.tokens .space
    let selects (items : List SelectItem) : List Token :=
      .word .SELECT :: .space :: (if distinct then [.word .DISTINCT, .space] else []) ++
        SelectItem.listTokens scope items ++ [.space, .word .FROM, .space] ++ tableTokens scope table ++
        Join.listTokens scope joins
    let assigns (row : Row) : List Token :=
      .word .UPDATE :: .space :: tableTokens scope table ++ [.space, .word .SET, .space] ++
        commaSeparated (row.columns.map (assignmentTokens scope))
    let deletes := words [.DELETE, .FROM] ++ .space :: tableTokens scope table
    let grouped := groupTokens scope groups ++
      clauseTokens havings [.space, .word .HAVING, .space] (Condition.listTokens scope havings) ++ sorted
    match kind with
    | .unset =>
      exact ⟨Token.sql (selects []), _, Token.sql grouped, Refiltered.elim fun _ _ =>
        sql_eq_assembled rfl <| by simp [tokens, selects, grouped, sorted, scope, Kind.items, Statement.scope]⟩
    | .select items =>
      exact ⟨Token.sql (selects items), _, Token.sql grouped, Refiltered.elim fun _ _ =>
        sql_eq_assembled rfl <| by simp [tokens, selects, grouped, sorted, scope, Kind.items, Statement.scope]⟩
    | .update row =>
      exact ⟨Token.sql (assigns row), _, Token.sql sorted, Refiltered.elim fun _ _ =>
        sql_eq_assembled rfl <| by simp [tokens, assigns, sorted, scope, Statement.scope]⟩
    | .delete =>
      exact ⟨Token.sql deletes, _, Token.sql sorted, Refiltered.elim fun _ _ =>
        sql_eq_assembled rfl <| by simp [tokens, deletes, sorted, scope, Statement.scope]⟩

theorem values_of_filters (filters : s.kind.filters) : ∃ before after, ∀ t, s.Refiltered t →
    t.values = before ++ Condition.listValues t.wheres ++ after := by
  match s with
  | { kind, havings, .. } =>
    match kind with
    | .unset | .select _ =>
      exact ⟨[], Condition.listValues havings, Refiltered.elim fun _ _ => by simp [values]⟩
    | .update row => exact ⟨row.values, [], Refiltered.elim fun _ _ => by simp [values]⟩
    | .delete => exact ⟨[], [], Refiltered.elim fun _ _ => by simp [values]⟩

theorem predicates_addWhere (s : Statement) (connective : Connective) (predicate : Predicate) :
    (s.addWhere connective predicate).predicates = do
      let held ← s.predicates
      let text ← predicate.sqlIn s.scope
      return held ++ [(connective, text)] := by
  have last : [Condition.mk connective predicate].mapM (Condition.sqlIn s.scope) =
      (predicate.sqlIn s.scope).map fun text => [(connective, text)] := by
    rw [List.mapM_cons, Condition.sqlIn]
    cases predicate.sqlIn s.scope <;> rfl
  have split : (s.addWhere connective predicate).predicates =
      (s.wheres ++ [Condition.mk connective predicate]).mapM (Condition.sqlIn s.scope) := rfl
  rw [split, List.mapM_append, last, predicates]
  cases s.wheres.mapM (Condition.sqlIn s.scope) <;> cases predicate.sqlIn s.scope <;> rfl

theorem isEmpty_of_predicates {held : List (Connective × Text)} (given : s.predicates = .ok held) :
    held.isEmpty = s.wheres.isEmpty := by
  rw [predicates, mapM_sqlIn] at given
  obtain ⟨_, -, rfl⟩ := map_eq_ok.1 given
  cases s.wheres <;> rfl

theorem whereText_addWhere (s : Statement) (connective : Connective) (predicate : Predicate) :
    (s.addWhere connective predicate).whereText = do
      let held ← s.whereText
      let text ← predicate.sqlIn s.scope
      return (if s.wheres.isEmpty then [] else held ++ ' ' :: connective.sql ++ [' ']) ++ text := by
  rw [whereText_eq, whereText_eq, predicates_addWhere]
  cases given : s.predicates with
  | error error => rfl
  | ok held =>
    rw [← isEmpty_of_predicates given]
    cases predicate.sqlIn s.scope with
    | error error => rfl
    | ok text => exact congrArg Except.ok (joinPredicates_concat held connective text)

/-! ### What a group adds -/

def apart (stage : Stage) (s : Statement) : Statement :=
  { new s.settings with table := s.table, stage }

section Apart

variable {s alone : Statement} {stage : Stage} (only : (s.apart stage).Refiltered alone)

include only

theorem scope_of_apart : alone.scope = s.scope := by
  obtain ⟨wheres, last, rfl⟩ := only
  rfl

theorem values_of_apart : alone.values = Condition.listValues alone.wheres := by
  obtain ⟨wheres, last, rfl⟩ := only
  exact List.append_nil _

theorem sql_of_apart : alone.sql =
    alone.assembled ("SELECT * FROM " ++ Token.sql (tableTokens s.scope s.table)) (.ok ()) [] := by
  obtain ⟨wheres, last, rfl⟩ := only
  let front : List Token := [.word .SELECT, .space, .star, .space, .word .FROM, .space]
  have lead : Token.sql front = ("SELECT * FROM " : Text) := rfl
  let alone : Statement := { s.apart stage with wheres, stage := last }
  have written : alone.tokens = front ++ tableTokens s.scope s.table ++ clauseTokens alone.wheres
      [.space, .word .WHERE, .space] (Condition.listTokens alone.scope alone.wheres) ++ [] := by
    simp [alone, apart, new, tokens, front, scope, SelectItem.listTokens, Kind.items, Join.listTokens,
      groupTokens, orderTokens, clauseTokens, Pagination.tokens]
  rw [← lead, ← sql_append]
  exact sql_eq_assembled rfl written

end Apart

theorem listValues_addGroup (s : Statement) (connective : Connective) (negated : Bool)
    (levels : List (Connective × Bool)) (conditions : List Condition) :
    Condition.listValues
        (s.addWhere connective (.group negated (Condition.nest levels conditions))).wheres =
      Condition.listValues s.wheres ++ Condition.listValues conditions := by
  rw [show (s.addWhere connective _).wheres = s.wheres ++ [⟨connective, _⟩] from rfl,
    Condition.listValues_append]
  simp [Condition.listValues, Predicate.values, Condition.listValues_nest]

section Group

variable {s alone : Statement} {levels : List (Connective × Bool)} (scope : alone.scope = s.scope)
  (some : alone.wheres ≠ []) (connective : Connective) (negated : Bool)

include scope some

theorem sqlIn_group : (Predicate.group negated (Condition.nest levels alone.wheres)).sqlIn s.scope =
    alone.whereText.map (enclose (negated :: levels.map Prod.snd)) := by
  rw [Predicate.sqlIn_eq, Condition.sql_group, Condition.sql_nest s.scope some, Predicate.check,
    Condition.checkAll_nest, whereText_eq_check, scope]
  cases Condition.checkAll alone.wheres <;> rfl

theorem predicates_addGroup :
    (s.addWhere connective (.group negated (Condition.nest levels alone.wheres))).predicates = do
      let held ← s.predicates
      let text ← alone.whereText
      return held ++ [(connective, enclose (negated :: levels.map Prod.snd) text)] := by
  rw [predicates_addWhere, sqlIn_group scope some]
  cases s.predicates <;> cases alone.whereText <;> rfl

theorem whereText_addGroup :
    (s.addWhere connective (.group negated (Condition.nest levels alone.wheres))).whereText = do
      let held ← s.whereText
      let text ← alone.whereText
      return (if s.wheres.isEmpty then [] else held ++ ' ' :: connective.sql ++ [' ']) ++
        enclose (negated :: levels.map Prod.snd) text := by
  rw [whereText_addWhere, sqlIn_group scope some]
  cases s.whereText <;> cases alone.whereText <;> rfl

end Group

end Statement

theorem Call.run_group (s : Statement) (connective : Connective) (negated : Bool)
    (levels : List (Connective × Bool)) {calls : List Call} (stage : Stage)
    (given : ∀ call ∈ calls, call.clause? = some .wheres)
    (succeeds : ((whereGroup connective negated calls).run s).result = .ok .done) :
    let alone := runAll calls (s.apart stage)
    let outcome := (whereGroup connective negated (nest levels calls)).run s
    (build calls (s.apart stage)).result = .ok alone ∧
    (s.apart stage).Refiltered alone ∧
    outcome.result = .ok .done ∧
    outcome.statement = if alone.wheres = [] then s else
      s.addWhere connective (.group negated (Condition.nest levels alone.wheres)) := by
  intro alone outcome
  obtain ⟨child, built⟩ : ∃ child, (build calls (s.child true)).result = .ok child := by
    rw [run_whereGroup] at succeeds
    unfold Built.conclude at succeeds
    cases result : (build calls (s.child true)).result with
    | error error => simp [result, Except.bind] at succeeds
    | ok child => exact ⟨child, rfl⟩
  obtain ⟨⟨wheres, reached, rfl⟩, last, ran⟩ := build_wheres given built stage
  have same : alone = { s.apart last with wheres } := runAll_of_build ran
  obtain ⟨inner, nested, held⟩ := build_nest levels built
  have concluded : outcome = _ := run_whereGroup connective negated (nest levels calls) s
  simp only [Built.conclude, nested, Except.bind] at concluded
  refine ⟨same ▸ ran, ⟨wheres, last, same⟩, congrArg Outcome.result concluded, ?_⟩
  rw [concluded, same]
  unfold Statement.whereGroup
  simp only [held, List.isEmpty_iff, Condition.nest_eq_nil]

/-- Calls on the predicates in a group, or in groups in groups, come to what they come to on a new statement
with the same settings and table, with parentheses for each group. Where they add nothing the statement
stays; otherwise the text and the values follow what was there, behind the connective unless they are the
first, and nothing else changes. -/
theorem group_parenthesises (s : Statement) (connective : Connective) (negated : Bool)
    (levels : List (Connective × Bool)) (calls : List Call) (stage : Stage)
    (given : ∀ call ∈ calls, call.clause? = some .wheres)
    (succeeds : ((Call.whereGroup connective negated calls).run s).result = .ok .done) :
    let alone := Call.runAll calls (s.apart stage)
    let outcome := (Call.whereGroup connective negated (Call.nest levels calls)).run s
    let next := outcome.statement
    let enclosed := enclose (negated :: levels.map Prod.snd)
    (Call.build calls (s.apart stage)).result = .ok alone ∧
    alone.sql = alone.assembled ("SELECT * FROM " ++ Token.sql (tableTokens s.scope s.table)) (.ok ()) [] ∧
    outcome.result = .ok .done ∧
    (alone.wheres = [] → next = s) ∧
    (alone.wheres ≠ [] →
      (∃ added, next = .touched { s with wheres := s.wheres ++ [added] }) ∧
      next.predicates = (do
        let held ← s.predicates
        let text ← alone.whereText
        return held ++ [(connective, enclosed text)]) ∧
      next.whereText = (do
        let held ← s.whereText
        let text ← alone.whereText
        return (if s.wheres.isEmpty then [] else held ++ ' ' :: connective.sql ++ [' ']) ++ enclosed text) ∧
      Condition.listValues next.wheres = Condition.listValues s.wheres ++ alone.values ∧
      (s.kind.filters → ∃ front rest behind before after,
        s.sql = s.assembled front rest behind ∧ next.sql = next.assembled front rest behind ∧
        s.values = before ++ Condition.listValues s.wheres ++ after ∧
        next.values = before ++ Condition.listValues next.wheres ++ after)) ∧
    ((∀ level ∈ (connective, negated) :: levels, level.2 = false) → ∀ text, enclosed text =
      List.replicate (levels.length + 1) '(' ++ text ++ List.replicate (levels.length + 1) ')') := by
  intro alone outcome next enclosed
  obtain ⟨ran, only, done, left⟩ := Call.run_group s connective negated levels stage given succeeds
  have scope := Statement.scope_of_apart only
  refine ⟨ran, Statement.sql_of_apart only, done, fun none => left.trans (if_pos none), fun some => ?_,
    fun plain text => ?_⟩
  · have added : next = s.addWhere connective (.group negated (Condition.nest levels alone.wheres)) :=
      left.trans (if_neg some)
    have same : s.Refiltered next := by
      rw [added]
      exact ⟨_, _, rfl⟩
    refine ⟨⟨_, added⟩, ?_, ?_, ?_, fun filters => ?_⟩
    · rw [added, Statement.predicates_addGroup scope some]
    · rw [added, Statement.whereText_addGroup scope some]
    · rw [added, Statement.listValues_addGroup, Statement.values_of_apart only]
    · obtain ⟨front, rest, behind, written⟩ := Statement.sql_of_filters filters
      obtain ⟨before, after, bound⟩ := Statement.values_of_filters filters
      exact ⟨front, rest, behind, before, after, written s (.refl s), written next same, bound s (.refl s),
        bound next same⟩
  · have depth : negated :: levels.map Prod.snd = List.replicate (levels.length + 1) false := by
      refine List.eq_replicate_iff.2 ⟨by simp, fun level member => ?_⟩
      have whole : negated :: levels.map Prod.snd = ((connective, negated) :: levels).map Prod.snd := rfl
      rw [whole] at member
      obtain ⟨pair, present, rfl⟩ := List.mem_map.1 member
      exact plain pair present
    have unfolded : enclosed text = enclose (negated :: levels.map Prod.snd) text := rfl
    rw [unfolded, depth, enclose_replicate]

-- A subquery and an empty group inside two groups, and a group with nothing but an empty group.
theorem group_parenthesises_nested :
    let compare (column : Text) : Call :=
      .edit (.wherePredicate (.typed .and) (.compare false column (.typed .equal) (.bool true)))
    let s := Call.runAll [.edit (.fromTable "a AS b"), compare "x"] (.new {})
    let empty : Call := .whereGroup .or true []
    let calls := [compare "y", empty, .whereInQuery .or true "z" [.edit (.fromTable "c")]]
    let next := ((Call.whereGroup .or true [.whereGroup .and false calls]).run s).statement
    (∀ call ∈ calls, call.clause? = some .wheres) ∧
      ((Call.whereGroup .or true calls).run s).result = .ok .done ∧
      next.whereText =
        .ok "`b`.`x`=? OR NOT ((`b`.`y`=? OR `b`.`z` NOT IN (SELECT * FROM `c`)))" ∧
      (∀ call ∈ [empty], call.clause? = some .wheres) ∧
      ((Call.whereGroup .and false [empty]).run s).result = .ok .done ∧
      ((Call.whereGroup .and false [empty]).run s).statement = s := by
  intro compare s empty calls next
  have given : ∀ call ∈ calls, call.clause? = some .wheres := by decide
  have succeeds : ((Call.whereGroup .or true calls).run s).result = .ok .done := by rfl
  have none : ∀ call ∈ [empty], call.clause? = some .wheres := by decide
  have quiet : ((Call.whereGroup .and false [empty]).run s).result = .ok .done := by rfl
  refine ⟨given, succeeds, ?_, none, quiet, ?_⟩
  · obtain ⟨-, -, -, -, adds, -⟩ :=
      group_parenthesises s .or true [(.and, false)] calls .fresh given succeeds
    obtain ⟨-, -, text, -⟩ := adds (by decide +kernel)
    have held : s.whereText = .ok "`b`.`x`=?" := by decide +kernel
    have alone : (Call.runAll calls (s.apart .fresh)).whereText =
        .ok "`b`.`y`=? OR `b`.`z` NOT IN (SELECT * FROM `c`)" := by decide +kernel
    rw [held, alone] at text
    exact text.trans (by decide +kernel)
  · obtain ⟨-, -, -, stays, -⟩ := group_parenthesises s .and false [] [empty] .fresh none quiet
    exact stays (by decide +kernel)

/-- An empty fragment is a predicate without text, and the connective is written behind it. -/
theorem group_behind_empty_text :
    let s := Call.runAll [.edit (.fromTable "a"),
      .edit (.wherePredicate (.typed .and) (.fragment false "" []))] (.new {})
    let calls : List Call :=
      [.edit (.wherePredicate (.typed .and) (.compare false "b" (.typed .equal) (.bool true)))]
    let next := ((Call.whereGroup .and false calls).run s).statement
    ((Call.whereGroup .and false calls).run s).result = .ok .done ∧
      (Call.runAll calls (s.apart .fresh)).whereText = .ok "`a`.`b`=?" ∧
      s.whereText = .ok "" ∧ next.whereText ≠ .ok "(`a`.`b`=?)" ∧
      next.sql = .ok "SELECT * FROM `a` WHERE  AND (`a`.`b`=?)" := by
  intro s calls next
  exact ⟨rfl, by decide +kernel, by decide +kernel, by decide +kernel, by decide +kernel⟩

end SqlComposer
