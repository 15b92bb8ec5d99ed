import SqlComposer.Proofs.Identifiers
import SqlComposer.Proofs.Reuse
import SqlComposer.Proofs.Steps

set_option autoImplicit false

namespace SqlComposer

/-! ### Settings that only get wider -/

namespace Settings

variable {settings inner : Settings}

theorem Under.refl (settings : Settings) : settings.Under settings := ⟨rfl, fun _ => id⟩

theorem Under.trans {last : Settings} (first : settings.Under inner) (second : inner.Under last) :
    settings.Under last :=
  ⟨second.quote.trans first.quote, fun c held => first.allows c (second.allows c held)⟩

theorem addReferenceChars_under (settings : Settings) (chars : List Char) :
    (settings.addReferenceChars chars).Under settings := by
  refine ⟨rfl, fun c held => ?_⟩
  simp only [allows, addReferenceChars, List.contains_eq_mem, decide_eq_true_eq] at held ⊢
  generalize settings.referenceChars = start at held ⊢
  induction chars generalizing start with
  | nil => exact held
  | cons char rest ih =>
    refine ih _ ?_
    dsimp only
    split
    · exact held
    · exact List.mem_append_left _ held

end Settings

theorem Reference.validate_under {settings inner : Settings} (under : settings.Under inner)
    {method reference : Text} (valid : validate inner method reference = .ok ()) (other : Text) :
    validate settings other reference = .ok () :=
  validate_of_accepts ((accepted_of_validate valid).mono under.quote under.allows)

mutual

def Call.requotes : Call → Bool
  | .edit (.setQuote _) => true
  | .whereGroup _ _ calls | .whereInQuery _ _ _ calls | .whereExists _ _ calls
  | .havingGroup _ _ calls => Call.anyRequotes calls
  | .attempt call => call.requotes
  | .edit _ | .query _ | .union .. => false

def Call.anyRequotes : List Call → Bool
  | [] => false
  | call :: rest => call.requotes || Call.anyRequotes rest

end

theorem Edit.run_under {edit : Edit} (quiet : ∀ quote, edit ≠ .setQuote quote) (s : Statement) :
    (edit.run s).2.settings.Under s.settings := by
  rw [run_eq]
  split
  · next next applied =>
    cases configures : edit.configures with
    | false =>
      rw [settings_apply configures applied, edit.settings_base]
      exact .refl _
    | true =>
      cases edit with
      | addReferenceChars chars =>
        obtain ⟨list, -, rfl⟩ := Edit.addReferenceChars_eq_ok.1 applied
        exact s.settings.addReferenceChars_under list
      | setQuote quote => exact absurd rfl (quiet quote)
      | _ => cases configures
  · rw [edit.settings_base]
    exact .refl _

namespace Call

theorem settings_run_of_plain {call : Call} (plain : ∀ action, call.bare ≠ .edit action) (s : Statement) :
    (call.run s).statement.settings = s.settings := by
  have kept : ¬ call.Clears s := by
    rintro (resets | ⟨starts, -⟩)
    · exact plain _ resets
    · cases bare : call.bare with
      | edit action => exact plain action bare
      | _ => simp [bare, startsOver] at starts
  have made := call.effect kept
  generalize (call.run s).statement = next at made ⊢
  cases made with
  | edited action given => exact absurd given (plain action)
  | same | compiled | filtered | compared | united => rfl

theorem run_under {call : Call} (quiet : call.requotes = false) (s : Statement) :
    (call.run s).statement.settings.Under s.settings := by
  match call with
  | .edit action => exact action.run_under (by rintro quote rfl; cases quiet) s
  | .attempt call => exact run_under (show call.requotes = false from quiet) s
  | .query _ | .whereGroup .. | .whereInQuery .. | .whereExists .. | .havingGroup .. | .union .. =>
    rw [settings_run_of_plain (by rintro _ ⟨⟩)]
    exact .refl _

end Call

mutual

/-- The statement that a callback of the call works on, at any depth, comes to this at some moment. -/
def Call.Visits : Call → Statement → Statement → Prop
  | .whereGroup _ _ calls, s, t | .whereExists _ _ calls, s, t | .havingGroup _ _ calls, s, t =>
    Call.Passes calls (s.child true) t
  | .whereInQuery _ _ column calls, s, t =>
    (∃ checked, Reference.check s.settings "where_in" column = .ok checked) ∧
      Call.Passes calls (s.child false) t
  | .attempt call, s, t => call.Visits s t
  | .edit _, _, _ | .query _, _, _ | .union .., _, _ => False

def Call.Passes : List Call → Statement → Statement → Prop
  | [], s, t => t = s
  | call :: rest, s, t =>
    t = s ∨ call.Visits s t ∨
      (∃ reply, (call.run s).result = .ok reply) ∧ Call.Passes rest (call.run s).statement t

end

mutual

theorem Call.visits_under (call : Call) (quiet : call.requotes = false) {s t : Statement}
    (visits : call.Visits s t) : t.settings.Under s.settings := by
  match call with
  | .whereGroup _ _ calls | .whereExists _ _ calls | .havingGroup _ _ calls =>
    have under : t.settings.Under (s.child true).settings := Call.passes_under calls quiet visits
    exact under
  | .whereInQuery _ _ _ calls =>
    have under : t.settings.Under (s.child false).settings := Call.passes_under calls quiet visits.2
    exact under
  | .attempt call => exact call.visits_under quiet visits
  | .edit _ | .query _ | .union .. => exact visits.elim

theorem Call.passes_under (calls : List Call) (quiet : Call.anyRequotes calls = false) {s t : Statement}
    (passes : Call.Passes calls s t) : t.settings.Under s.settings := by
  match calls with
  | [] =>
    obtain rfl := passes
    exact .refl _
  | call :: rest =>
    obtain ⟨first, later⟩ := Bool.or_eq_false_iff.1 quiet
    rcases passes with rfl | inside | ⟨-, behind⟩
    · exact .refl _
    · exact call.visits_under first inside
    · exact (Call.passes_under rest later behind).trans (Call.run_under first s)

end

namespace Call

variable {s child : Statement}

theorem passes_of_build {calls : List Call} (built : (build calls s).result = .ok child) :
    Passes calls s child := by
  induction calls generalizing s with
  | nil =>
    obtain rfl := Except.ok.inj built
    rfl
  | cons call rest ih =>
    cases ran : (call.run s).result with
    | error error => simp [build, ran] at built
    | ok reply =>
      simp only [build, ran] at built
      exact .inr (.inr ⟨⟨reply, ran⟩, ih built⟩)

theorem runAll_of_build {calls : List Call} (built : (build calls s).result = .ok child) :
    runAll calls s = child := by
  induction calls generalizing s with
  | nil => exact Except.ok.inj built
  | cons call rest ih =>
    cases ran : (call.run s).result with
    | error error => simp [build, ran] at built
    | ok reply =>
      simp only [build, ran] at built
      exact ih built

theorem exists_member {list : List Member} {built : List Statement}
    (done : (Member.buildAll list).result = .ok built) (present : child ∈ built) :
    ∃ member ∈ list, ∃ start, member.origin.start = .ok start ∧ runAll member.calls start = child := by
  induction list generalizing built with
  | nil =>
    obtain rfl := Except.ok.inj done
    cases present
  | cons member rest ih =>
    obtain ⟨origin, calls⟩ := member
    cases started : origin.start with
    | error error => simp [Member.buildAll, Member.build, started] at done
    | ok start =>
      cases first : (build calls start).result with
      | error error => simp [Member.buildAll, Member.build, started, first] at done
      | ok statement =>
        simp only [Member.buildAll, Member.build, started, first] at done
        obtain ⟨others, rested, rfl⟩ := map_eq_ok.1 done
        rcases List.mem_cons.1 present with rfl | later
        · exact ⟨_, List.mem_cons_self, start, started, runAll_of_build first⟩
        · obtain ⟨member, inside, found⟩ := ih rested later
          exact ⟨member, List.mem_cons_of_mem _ inside, found⟩

theorem visits_of_adds (call : Call) (added : call.Adds s child) :
    (∃ all list, call.bare = .union all list) ∨ call.Visits s child := by
  match call with
  | .whereGroup .. | .havingGroup .. => exact .inr (passes_of_build added.1)
  | .whereExists .. => exact .inr (passes_of_build added)
  | .whereInQuery .. => exact .inr ⟨added.1, passes_of_build added.2⟩
  | .union all list => exact .inl ⟨all, list, rfl⟩
  | .attempt call => exact call.visits_of_adds added
  | .edit _ | .query _ => exact added.elim

end Call

/-! ### Quotes -/

namespace Statement

def Bare (s : Statement) : Prop := s = { Statement.new s.settings with table := s.table, stage := s.stage }

/-- The quotes were last set when the statement held no clause, and all members of unions, at any
depth, are as steady and have the same quotes. -/
inductive Steady : Statement → Prop where
  | bare {s : Statement} (bare : s.Bare) : Steady s
  | call {s : Statement} (call : Call) (steady : Steady s) (quiet : call.requotes = false)
    (inner : ∀ child, call.Adds s child → Steady child)
    (members : ∀ all list, call.bare = .union all list → ∀ member, call.Adds s member →
      member.settings.quote = s.settings.quote) : Steady (call.run s).statement

variable {s : Statement}

theorem Steady.quotes_every (steady : s.Steady) :
    s.Every (fun inner => inner.settings.quote = s.settings.quote) fun _ => True := by
  induction steady with
  | bare bare =>
    exact .bare rfl (congrArg Statement.wheres bare) (congrArg Statement.havings bare)
      (congrArg Statement.kind bare)
  | @call s call _ quiet _ members every inner =>
    have same : (call.run s).statement.settings.quote = s.settings.quote :=
      (Call.run_under quiet s).quote.symm
    rw [same]
    refine (Nested.settings (·.quote = s.settings.quote)).invariant.call_run call rfl same every
      fun child added => ?_
    have inherited : child.settings.quote = s.settings.quote := by
      rcases call.visits_of_adds added with ⟨all, list, union⟩ | visits
      · exact members all list union child added
      · exact (call.visits_under quiet visits).quote.symm
    exact inherited ▸ inner child added

theorem writes_quotes {quote : Quote} {scope : Scope} (same : scope.quote = quote) :
    scope.Writes (Token.Quotes fun held _ => held = quote) (fun _ => True) fun _ => True := by
  have quoted (reference : Text) :
      Token.Each (Token.Quotes fun held _ => held = quote) (Reference.quoted scope.quote reference) :=
    (Token.fixed_quotes _).quoted fun _ _ _ _ => Reference.quotes_segment fun _ => same
  exact ⟨fun _ _ => quoted _, fun _ _ => quoted _, fun _ _ _ _ => quoted _⟩

theorem Steady.each_quote (steady : s.Steady) :
    Token.Each (Token.Quotes fun held _ => held = s.settings.quote) s.tokens :=
  s.each_token (Token.fixed_quotes _) trivial (steady.quotes_every.imp
    (fun _ same => ⟨writes_quotes same, holds_iff.2 fun _ _ => trivial, fun _ _ => trivial⟩)
    fun _ _ => ⟨fun _ _ => trivial, fun _ _ _ _ => trivial⟩)

end Statement

/-! ### Sessions -/

structure Call.Steadies (call : Call) (s : Statement) : Prop where
  quiet : call.requotes = false
  inner : ∀ child, call.Adds s child → child.Steady
  members : ∀ all list, call.bare = .union all list → ∀ member, call.Adds s member →
    member.settings.quote = s.settings.quote

theorem Edit.steadies (edit : Edit) (quiet : (Call.edit edit).requotes = false) (s : Statement) :
    (Call.edit edit).Steadies s :=
  ⟨quiet, fun _ => False.elim, fun _ _ _ _ => False.elim⟩

structure Statement.SteadyIn (quote : Quote) (s : Statement) : Prop where
  steady : s.Steady
  quote : s.settings.quote = quote

variable {C : Type} [Connection C]

def Step.Steadies : Step C → Session C → Prop
  | .compose call, session => call.Steadies session.statement
  | .operate _, _ | .useConnection _, _ => True

def Step.AllSteady : List (Step C) → Session C → Prop
  | [], _ => True
  | step :: rest, session => step.Steadies session ∧ Step.AllSteady rest (step.run session)

namespace Session

variable (session : Session C)

theorem statement_begin : session.begin.2.statement = session.statement := by
  unfold begin
  split
  · split <;> rfl
  · rfl

omit [Connection C] in
theorem statement_close (method word : Text) (act : C → Except Text Unit × C) :
    (session.close method word act).2.statement = session.statement := by
  unfold close
  split
  · rfl
  · split <;> rfl
  · rfl

end Session

namespace Statement.SteadyIn

variable {quote : Quote} {s : Statement}

theorem call (steady : s.SteadyIn quote) {call : Call} (steadies : call.Steadies s) :
    (call.run s).statement.SteadyIn quote :=
  ⟨.call call steady.steady steadies.quiet steadies.inner steadies.members,
    (Call.run_under steadies.quiet s).quote.symm.trans steady.quote⟩

theorem edit (steady : s.SteadyIn quote) {edit : Edit} (quiet : (Call.edit edit).requotes = false) :
    (edit.run s).2.SteadyIn quote :=
  steady.call (edit.steadies quiet s)

theorem compiled (steady : s.SteadyIn quote) {sql : Text} (compiles : s.sql = .ok sql) :
    s.compiled.SteadyIn quote := by
  have ran : ((Call.query .toSql).run s).statement = s.compiled := by
    simp [Call.run, Query.run, Query.answer, compiles, Except.map, Query.compiles]
  exact ran ▸ steady.call ⟨rfl, fun _ => False.elim, fun _ _ _ _ => False.elim⟩

theorem reset (steady : s.SteadyIn quote) : s.reset.SteadyIn quote :=
  steady.call (Edit.steadies .reset rfl s)

theorem execute {session : Session C} (steady : session.statement.SteadyIn quote) :
    session.execute.2.statement.SteadyIn quote := by
  unfold Session.execute
  cases compiles : session.statement.sql with
  | error error => exact steady
  | ok sql =>
    have sent (session : Session C) (values : List Value) :
        (session.send false sql values).2.statement = session.statement := rfl
    have kept := sent { session with statement := session.statement.compiled } session.statement.values
    dsimp only
    generalize Session.send false sql session.statement.values
      { session with statement := session.statement.compiled } = answered at kept ⊢
    rcases answered with ⟨error | rows, after⟩
    · exact kept ▸ steady.compiled compiles
    · have cleared : after.statement.reset = session.statement.reset := by rw [kept]; rfl
      exact cleared ▸ steady.reset

theorem operate {session : Session C} (steady : session.statement.SteadyIn quote) (operation : Operation) :
    (operation.run session).2.statement.SteadyIn quote := by
  cases completes : operation.completes with
  | true =>
    rw [Operation.run_eq_perform completes, session.perform_eq]
    have completed : (operation.complete session.statement).2.SteadyIn quote := by
      unfold Operation.complete
      cases clause : operation.clause? with
      | none => exact steady
      | some edit =>
        refine steady.edit ?_
        cases operation <;> cases clause <;> rfl
    generalize operation.complete session.statement = answered at completed ⊢
    rcases answered with ⟨error | _, s⟩
    · exact completed
    · have ready : { session with statement := s }.statement.SteadyIn quote := completed
      exact ready.execute
  | false =>
    cases operation with
    | query sql values =>
      have kept : (session.send false sql values).2.statement = session.statement := rfl
      simp only [Operation.run, replyWith, Session.query]
      generalize session.send false sql values = answered at kept ⊢
      rcases answered with ⟨error | rows, after⟩
      · exact kept ▸ steady
      · exact (show after.statement.SteadyIn quote from kept ▸ steady).reset
    | begin => exact session.statement_begin ▸ steady
    | commit | rollback => exact session.statement_close .. ▸ steady
    | raw | enableLog | log | takeLog | counters => exact steady
    | _ => cases completes

theorem runAll {steps : List (Step C)} {session : Session C} (steady : session.statement.SteadyIn quote)
    (each : Step.AllSteady steps session) : (Step.runAll steps session).statement.SteadyIn quote := by
  induction steps generalizing session with
  | nil => exact steady
  | cons step rest ih =>
    obtain ⟨first, later⟩ := each
    refine ih ?_ later
    cases step with
    | compose call => exact steady.call first
    | operate operation => exact steady.operate operation
    | useConnection use => exact steady

end Statement.SteadyIn

theorem Session.new_eq_ok {settings? : Option Settings} {connection : C} {session : Session C}
    (made : Session.new settings? connection = .ok session) :
    ∃ dialect, Dialect.ofDriver (Connection.driver connection) = .ok dialect ∧
      session.statement = .new { settings?.getD {} with quote := dialect.quote } := by
  obtain ⟨dialect, known, same⟩ := bind_eq_ok.1 made
  obtain rfl := Except.ok.inj same
  exact ⟨dialect, known, rfl⟩

/-- Where the quotes were last set before the first clause, all names are written between them, at any
depth. Where no callback sets them, whatever is accepted outside is accepted inside too. The quotes of a
session are those of its driver until they are set. -/
theorem configuration_inherited :
    (∀ (s : Statement) (text : Text), s.Steady → s.sql = .ok text →
      text = Token.sql s.tokens ∧
        ∀ quote name, .quoted quote name ∈ s.tokens → quote = s.settings.quote) ∧
    (∀ (call : Call) (s t : Statement), call.requotes = false → call.Visits s t →
      t.settings.quote = s.settings.quote ∧
        ∀ method other reference, Reference.validate s.settings method reference = .ok () →
          Reference.validate t.settings other reference = .ok ()) ∧
    ∀ {C : Type} [Connection C] (settings? : Option Settings) (connection : C) (session : Session C),
      Session.new settings? connection = .ok session →
      ∃ dialect, Dialect.ofDriver (Connection.driver connection) = .ok dialect ∧
        ∀ steps, Step.AllSteady steps session →
          let s := (Step.runAll steps session).statement
          s.Steady ∧ s.settings.quote = dialect.quote := by
  refine ⟨fun s text steady compiles => ?_, fun call s t quiet visits => ?_,
    fun settings? connection session made => ?_⟩
  · obtain ⟨_, -, rfl⟩ := map_eq_ok.1 (s.sql_eq ▸ compiles)
    exact ⟨rfl, fun quote name member => steady.each_quote _ member⟩
  · have under := call.visits_under quiet visits
    exact ⟨under.quote.symm,
      fun method other reference valid => Reference.validate_under under valid other⟩
  · obtain ⟨dialect, known, begun⟩ := Session.new_eq_ok made
    refine ⟨dialect, known, fun steps each => ?_⟩
    have start : session.statement.SteadyIn dialect.quote := by
      rw [begun]
      exact ⟨.bare rfl, rfl⟩
    have steady := start.runAll each
    exact ⟨steady.steady, steady.quote⟩

-- A character of the session's settings in a callback, and a member with settings of its own.
theorem configuration_inherited_union :
    let driver : Scripted := { driver := "pgsql", ownRaw := true }
    let session : Session Scripted :=
      ⟨driver, .new { quote := .double, referenceChars := [':'] }, 0, none⟩
    let begin : Call := .edit (.fromTable "a")
    let named := (begin.run session.statement).statement
    let calls : List Call := [.edit (.table "b"), .edit (.wherePredicate (.typed .and) (.isNull true "c:d"))]
    let inner : Call := .whereExists .and false calls
    let union : Call := .union true [⟨.dialect .postgres, [.edit (.table "e")]⟩]
    let steps : List (Step Scripted) := [.compose begin, .compose inner, .compose union]
    let s := (Step.runAll steps session).statement
    let text : Text :=
      "(SELECT * FROM \"a\" WHERE EXISTS (SELECT * FROM \"b\" WHERE \"b\".\"c:d\" IS NOT NULL))" ++
        "\nUNION ALL\n(SELECT * FROM \"e\")"
    Session.new (some { referenceChars := [':'] }) driver = .ok session ∧ Step.AllSteady steps session ∧
      s.sql = .ok text ∧ (∀ quote name, .quoted quote name ∈ s.tokens → quote = .double) ∧
      ∃ t, inner.Visits named t ∧ Reference.validate t.settings "where" "c:d" = .ok () := by
  intro driver session begin named calls inner union steps s text
  have fresh : session.statement.Bare := rfl
  have start : named.SteadyIn .double := .call ⟨.bare fresh, rfl⟩ (Edit.steadies _ rfl _)
  have quiet : inner.requotes = false := by simp [inner, calls, Call.requotes, Call.anyRequotes]
  have filtered : inner.Steadies named := by
    have single : ∀ all list, inner.bare ≠ .union all list := by simp [inner, Call.bare]
    refine ⟨quiet, fun child added => ?_, fun all list given => absurd given (single all list)⟩
    obtain rfl := Call.runAll_of_build added
    have bare : (named.child true).SteadyIn (named.child true).settings.quote := ⟨.bare rfl, rfl⟩
    exact ((bare.call (Edit.steadies _ rfl _)).call (Edit.steadies _ rfl _)).steady
  have united : union.Steadies (inner.run named).statement := by
    have member : ∀ child, union.Adds (inner.run named).statement child → child.SteadyIn .double := by
      rintro child ⟨built, -, done, -, present⟩
      obtain ⟨member, inside, origin, started, rfl⟩ := Call.exists_member done present
      obtain rfl := List.mem_singleton.1 inside
      obtain rfl := Except.ok.inj started
      have bare : (Statement.new (.ofDialect .postgres)).Bare := rfl
      exact .call ⟨.bare bare, rfl⟩ (Edit.steadies _ rfl _)
    exact ⟨rfl, fun child added => (member child added).steady,
      fun _ _ _ child added => (member child added).quote.trans (start.call filtered).quote.symm⟩
  have each : Step.AllSteady steps session := by
    simp only [steps, Step.AllSteady, Step.Steadies, Step.run, and_true]
    exact ⟨Edit.steadies _ rfl _, filtered, united⟩
  have made : Session.new (some { referenceChars := [':'] }) driver = .ok session := rfl
  obtain ⟨texts, visits, sessions⟩ := configuration_inherited
  obtain ⟨dialect, known, steady⟩ := sessions _ _ _ made
  obtain rfl : dialect = .postgres := by
    have driven : Dialect.ofDriver "pgsql" = .ok .postgres := by decide
    exact Except.ok.inj (known.symm.trans driven)
  obtain ⟨held, quotes⟩ := steady steps each
  have compiles : s.sql = .ok text := by decide +kernel
  refine ⟨made, each, compiles, fun quote name member => ?_, ?_⟩
  · exact ((texts _ text held compiles).2 quote name member).trans quotes
  · have visited : inner.Visits named (named.child true) := Or.inl rfl
    have outside : Reference.validate named.settings "select" "c:d" = .ok () := by decide +kernel
    exact ⟨_, visited, (visits inner named _ quiet visited).2 "select" "where" "c:d" outside⟩

/-- The quotes of a session can be set, and are then not those of its driver. -/
theorem session_quotes_set :
    let driver : Scripted := { driver := "mysql", ownRaw := true }
    let session : Session Scripted := ⟨driver, .new {}, 0, none⟩
    let requoted := (Step.compose (.edit (.setQuote "\""))).run session
    let s := (Step.runAll [.compose (.edit (.fromTable "movies"))] requoted).statement
    Session.new none driver = .ok session ∧ Dialect.ofDriver driver.driver = .ok .mysql ∧
      requoted.statement.Bare ∧ s.Steady ∧ s.settings.quote ≠ Dialect.mysql.quote ∧
      s.sql = .ok "SELECT * FROM \"movies\"" := by
  intro driver session requoted s
  have bare : requoted.statement.Bare := rfl
  have steady : s.Steady :=
    .call (.edit (.fromTable "movies")) (.bare bare) rfl (fun _ => False.elim) fun _ _ _ _ => False.elim
  exact ⟨rfl, rfl, bare, steady, by decide +kernel, by decide +kernel⟩

end SqlComposer
