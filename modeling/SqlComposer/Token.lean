import SqlComposer.Reference
import SqlComposer.Vocabulary

set_option autoImplicit false

/-!
The tokens of a compiled statement. Text that a caller supplies stands in quoted bodies and in
fragments only; all other tokens are fixed, apart from the digits of a limit or an offset.
-/

namespace SqlComposer

inductive Word where
  | SELECT | DISTINCT | FROM | WHERE | GROUP | BY | HAVING | ORDER | LIMIT | OFFSET
  | INSERT | INTO | VALUES | UPDATE | SET | DELETE | TRUNCATE | TABLE | UNION | ALL
  | JOIN | INNER | OUTER | LEFT | RIGHT | FULL | SELF | CROSS | ON
  | AS | AND | OR | XOR | NOT | BETWEEN | IN | IS | NULL | EXISTS | LIKE | DESC | RAND
  | datePart (part : DatePart)
  | aggregate (function : Aggregate)
deriving DecidableEq

def Word.text : Word → Text
  | .SELECT => "SELECT"
  | .DISTINCT => "DISTINCT"
  | .FROM => "FROM"
  | .WHERE => "WHERE"
  | .GROUP => "GROUP"
  | .BY => "BY"
  | .HAVING => "HAVING"
  | .ORDER => "ORDER"
  | .LIMIT => "LIMIT"
  | .OFFSET => "OFFSET"
  | .INSERT => "INSERT"
  | .INTO => "INTO"
  | .VALUES => "VALUES"
  | .UPDATE => "UPDATE"
  | .SET => "SET"
  | .DELETE => "DELETE"
  | .TRUNCATE => "TRUNCATE"
  | .TABLE => "TABLE"
  | .UNION => "UNION"
  | .ALL => "ALL"
  | .JOIN => "JOIN"
  | .INNER => "INNER"
  | .OUTER => "OUTER"
  | .LEFT => "LEFT"
  | .RIGHT => "RIGHT"
  | .FULL => "FULL"
  | .SELF => "SELF"
  | .CROSS => "CROSS"
  | .ON => "ON"
  | .AS => "AS"
  | .AND => "AND"
  | .OR => "OR"
  | .XOR => "XOR"
  | .NOT => "NOT"
  | .BETWEEN => "BETWEEN"
  | .IN => "IN"
  | .IS => "IS"
  | .NULL => "NULL"
  | .EXISTS => "EXISTS"
  | .LIKE => "LIKE"
  | .DESC => "DESC"
  | .RAND => "RAND"
  | .datePart part => part.sql
  | .aggregate function => function.sql

inductive Token where
  | word (value : Word)
  | symbol (comparison : Comparison)
  | space
  | newline
  | comma
  | dot
  | star
  | leftParen
  | rightParen
  | placeholder
  | number (value : Nat)
  | quoted (quote : Quote) (body : Text)
  | fragment (value : Text)
deriving DecidableEq

namespace Token

def text : Token → Text
  | .word value => value.text
  | .symbol comparison => comparison.sql
  | .space => " "
  | .newline => "\n"
  | .comma => ","
  | .dot => "."
  | .star => "*"
  | .leftParen => "("
  | .rightParen => ")"
  | .placeholder => "?"
  | .number value => decimal value
  | .quoted quote body => quote.char :: body ++ [quote.char]
  | .fragment value => value

@[simp] theorem text_word (word : Word) : text (.word word) = word.text := rfl
@[simp] theorem text_symbol (comparison : Comparison) : text (.symbol comparison) = comparison.sql := rfl
@[simp] theorem text_space : text .space = [' '] := rfl
@[simp] theorem text_newline : text .newline = ['\n'] := rfl
@[simp] theorem text_comma : text .comma = [','] := rfl
@[simp] theorem text_dot : text .dot = ['.'] := rfl
@[simp] theorem text_star : text .star = ['*'] := rfl
@[simp] theorem text_leftParen : text .leftParen = ['('] := rfl
@[simp] theorem text_rightParen : text .rightParen = [')'] := rfl
@[simp] theorem text_placeholder : text .placeholder = ['?'] := rfl
@[simp] theorem text_number (n : Nat) : text (.number n) = decimal n := rfl
@[simp] theorem text_quoted (quote : Quote) (body : Text) :
    text (.quoted quote body) = quote.char :: body ++ [quote.char] := rfl
@[simp] theorem text_fragment (value : Text) : text (.fragment value) = value := rfl

def sql (tokens : List Token) : Text := tokens.flatMap text

@[simp] theorem sql_nil : sql [] = [] := rfl

@[simp] theorem sql_cons (token : Token) (rest : List Token) :
    sql (token :: rest) = token.text ++ sql rest := rfl

@[simp] theorem sql_append (a b : List Token) : sql (a ++ b) = sql a ++ sql b := by
  simp [sql]

def words (list : List Word) : List Token := [space].intercalate (list.map fun w => [.word w])

def commaSeparated (items : List (List Token)) : List Token := [comma].intercalate items

def placeholders (count : Nat) : List Token := commaSeparated (List.replicate count [.placeholder])

@[simp] theorem placeholders_one : placeholders 1 = [.placeholder] := rfl

def parenthesised (tokens : List Token) : List Token := .leftParen :: tokens ++ [.rightParen]

end Token

namespace Comparison

def tokens : Comparison → List Token
  | .like => [.space, .word .LIKE, .space]
  | comparison => [.symbol comparison]

end Comparison

def Connective.word : Connective → Word
  | .and => .AND
  | .or => .OR
  | .xor => .XOR

@[simp] theorem Connective.text_word (connective : Connective) : connective.word.text = connective.sql := by
  cases connective <;> rfl

def JoinKind.words : JoinKind → List Word
  | .plain => [.JOIN]
  | .inner => [.INNER, .JOIN]
  | .outer => [.OUTER, .JOIN]
  | .left => [.LEFT, .JOIN]
  | .right => [.RIGHT, .JOIN]
  | .full => [.FULL, .JOIN]
  | .self => [.SELF, .JOIN]
  | .cross => [.CROSS, .JOIN]

namespace Reference

def segment (quote : Quote) (name : Text) : Token :=
  if isWildcard name then .star else .quoted quote (unquote quote name)

def dotted (quote : Quote) (part : Text) : List Token :=
  [Token.dot].intercalate ((Text.split '.' part).map fun name => [segment quote name])

def quoted (quote : Quote) (reference : Text) : List Token :=
  [Token.space, .word .AS, .space].intercalate ((parts reference).map (dotted quote))

end Reference

structure Scope where
  quote : Quote
  table : Option Text
deriving DecidableEq

namespace Scope

def ofTable (settings : Settings) (table : Option Text) : Scope :=
  ⟨settings.quote, table.map Reference.tableName⟩

def column (scope : Scope) (reference : Text) : List Token :=
  Reference.quoted scope.quote (Reference.qualify scope.quote scope.table reference)

def columnOf (scope : Scope) (table reference : Text) : List Token :=
  Reference.quoted scope.quote (Reference.qualify scope.quote (some table) reference)

end Scope

end SqlComposer
