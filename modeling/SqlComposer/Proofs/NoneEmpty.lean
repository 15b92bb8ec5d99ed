import SqlComposer.Proofs.Grouping
import SqlComposer.Proofs.Writing

set_option autoImplicit false

namespace SqlComposer

namespace Token

def Asks (random : Bool) (rest : List Token) : Token → Prop
  | .leftParen => random = true ∨ rest.head? ≠ some .rightParen
  | .word .SET => ∃ name more, rest = .space :: name :: more ∧ name.isName
  | .word .VALUES => ∃ more, rest = .space :: .leftParen :: .placeholder :: more
  | _ => True

def Filled : Bool → List Token → Prop
  | _, [] => True
  | random, token :: rest => token.Asks random rest ∧ Filled (token == .word .RAND) rest

namespace Filled

variable {random : Bool} {tokens : List Token}

theorem mono (filled : Filled false tokens) : Filled random tokens := by
  cases tokens with
  | nil => trivial
  | cons token rest =>
    refine ⟨?_, filled.2⟩
    have asks := filled.1
    unfold Asks at asks ⊢
    split <;> simp_all

theorem flat (token : Token) (plain : token.isFlat) (filled : Filled false tokens) :
    Filled random (token :: tokens) := by
  refine ⟨?_, filled.mono⟩
  unfold Asks
  unfold isFlat at plain
  split <;> simp_all

theorem rightParen (filled : Filled false tokens) : Filled random (.rightParen :: tokens) :=
  ⟨trivial, filled⟩

end Filled

theorem Grouped.head?_ne {tokens : List Token} (grouped : Grouped tokens) :
    tokens.head? ≠ some .rightParen := by
  cases grouped with
  | flat token plain => rintro ⟨⟩; cases plain
  | _ => simp

theorem Grouped.filled {tokens : List Token} (grouped : Grouped tokens) :
    ∀ random rest, Filled false rest → Filled random (tokens ++ rest) := by
  induction grouped with
  | nil => exact fun _ _ filled => filled.mono
  | flat token plain _ ih => exact fun _ rest filled => .flat token plain (ih false rest filled)
  | @group inner later solid within _ ihInner ihLater =>
    intro random rest filled
    have behind := ihInner false _ (Filled.rightParen (ihLater false rest filled))
    have opened : (inner ++ .rightParen :: (later ++ rest)).head? ≠ some .rightParen := by
      rw [List.head?_append_of_ne_nil _ solid]
      exact within.head?_ne
    have whole : Filled random (.leftParen :: (inner ++ _)) := ⟨.inr opened, behind⟩
    simpa using whole
  | random _ ih =>
    intro _ rest filled
    exact ⟨trivial, .inl rfl, (Filled.rightParen (ih false rest filled) : Filled false _)⟩
  | set name named _ ih =>
    intro random rest filled
    have plain : name.isFlat := by cases name <;> first | rfl | cases named
    exact ⟨⟨name, _, rfl, named⟩, .flat .space rfl (.flat name plain (ih false rest filled))⟩
  | @values inner later within _ ihInner ihLater =>
    intro random rest filled
    have behind := ihInner false _ (Filled.rightParen (ihLater false rest filled))
    have marked : Filled false (.placeholder :: _) := .flat .placeholder rfl behind
    have group : Filled false (.leftParen :: _) := ⟨.inr (by simp), marked⟩
    have whole : Filled random (.word .VALUES :: .space :: _) := ⟨⟨_, rfl⟩, .flat .space rfl group⟩
    simpa using whole

/-- Parentheses hold something, those of `RAND()` apart, and behind the words that announce a list
stands its first item. -/
structure NoneEmpty (tokens : List Token) : Prop where
  parens : ∀ before after, tokens = before ++ .leftParen :: .rightParen :: after →
    before.getLast? = some (.word .RAND)
  set : ∀ before after, tokens = before ++ .word .SET :: after →
    ∃ name more, after = .space :: name :: more ∧ name.isName
  values : ∀ before after, tokens = before ++ .word .VALUES :: after →
    ∃ more, after = .space :: .leftParen :: .placeholder :: more

theorem Filled.asks {before after : List Token} {token : Token} :
    ∀ {random : Bool}, Filled random (before ++ token :: after) →
      token.Asks ((before.getLast?.map (· == .word .RAND)).getD random) after := by
  induction before with
  | nil => exact fun filled => filled.1
  | cons first rest ih =>
    intro random filled
    have asks := ih filled.2
    cases rest with
    | nil => exact asks
    | cons second rest =>
      have found := List.getLast?_eq_some_getLast (List.cons_ne_nil second rest)
      rw [found] at asks
      rw [List.getLast?_cons_cons, found]
      exact asks

theorem Grouped.noneEmpty {tokens : List Token} (grouped : Grouped tokens) : NoneEmpty tokens := by
  have filled : Filled false tokens := by simpa using grouped.filled false [] trivial
  refine ⟨?_, ?_, ?_⟩
  · rintro before after rfl
    rcases filled.asks with random | closed
    · cases last : before.getLast? with
      | none => simp [last] at random
      | some token => simpa [last] using random
    · exact absurd rfl closed
  · rintro before after rfl
    exact filled.asks
  · rintro before after rfl
    exact filled.asks

end Token

/-- Drafts that come from calls are well-formed at every depth, field by field, and so are the statements
that they stand for: these come to what the calls do on them, and nothing that they are written with is
empty. Every composed statement has such a draft. -/
theorem composed_wellFormed :
    (∀ s : Statement, s.Composable → ∃ d : Draft, d.Drafted ∧ d.statement = s) ∧
    ∀ d : Draft, d.Drafted →
      d.Every Draft.WellFormed DraftPredicate.WellFormed ∧
      d.statement.Every Statement.WellFormed Predicate.WellFormed ∧
      (∀ call : Call, (call.run d.statement).result = (d.run call).1 ∧
        (call.run d.statement).statement = (d.run call).2.statement) ∧
      ∀ text, d.statement.sql = .ok text →
        text = Token.sql d.statement.tokens ∧ Token.NoneEmpty d.statement.tokens := by
  refine ⟨fun s => Draft.exists_drafted, fun d drafted => ?_⟩
  have inside := drafted.composable.wellFormed
  refine ⟨drafted.wellFormed, inside, fun call => ?_, fun text compiles => ?_⟩
  · have tracked := Draft.run_tracks call drafted.faithful
    exact ⟨tracked.result.symm, tracked.statement.symm⟩
  · rw [Statement.sql_eq] at compiles
    obtain ⟨_, -, same⟩ := map_eq_ok.1 compiles
    exact ⟨same.symm, (d.statement.tokens_grouped inside).noneEmpty⟩

-- A group that is skipped, groups in both trees, and a union with an update.
theorem composed_wellFormed_union :
    let list : Call := .edit (.wherePredicate (.typed .or) (.inValues true "b" [.null, .null]))
    let compare : Call := .edit (.havingCompare (.typed .and) false "c" (.typed .less) .null)
    let member : Member := ⟨.table "d", [.edit (.update (.pairs [("e", .null)]))]⟩
    let d := Draft.runAll [.edit (.fromTable "a"), .whereGroup .and true [], .whereGroup .or true [list],
      .havingGroup .and false [.havingGroup .xor true [compare]], .edit .orderByRandom,
      .union true [member], .query .toSql] (.new {})
    let text : Text := "(SELECT * FROM \x60a\x60 WHERE NOT (\x60a\x60.\x60b\x60 NOT IN (?,?)) " ++
      "HAVING (NOT (\x60a\x60.\x60c\x60<?)) ORDER BY RAND())\nUNION ALL\n" ++
      "(UPDATE \x60d\x60 SET \x60d\x60.\x60e\x60=?)\nORDER BY RAND()"
    d.Drafted ∧ d.WellFormed ∧ d.explicit = true ∧ d.orders.randoms = 1 ∧ d.statement.sql = .ok text ∧
      text = Token.sql d.statement.tokens ∧ Token.NoneEmpty d.statement.tokens := by
  intro list compare member d text
  have drafted : d.Drafted := Draft.Drafted.runAll (.start .blank rfl) _
  have compiles : d.statement.sql = .ok text := by decide +kernel
  have explicit : d.explicit = true := by decide +kernel
  have counted : d.orders.randoms = 1 := by decide +kernel
  clear_value d
  obtain ⟨inside, -, -, solid⟩ := composed_wellFormed.2 d drafted
  exact ⟨drafted, inside.own, explicit, counted, compiles, solid text compiles⟩

end SqlComposer
