import SqlComposer.Token

set_option autoImplicit false

/-!
The compiler's output: the text written so far, the scope in which names are written, and the number
of values that the text asks for.
-/

namespace SqlComposer

structure Writer where
  text : Text := []
  scope : Scope
  placeholders : Nat := 0

-- An action that fails keeps the text it has written.
abbrev Write := EStateM Error Writer Unit

namespace Write

def put (tokens : List Token) : Write :=
  modify fun w => { w with text := w.text ++ Token.sql tokens }

def inScope (tokens : Scope → List Token) : Write := do
  put (tokens (← get).scope)

def await (count : Nat) : Write :=
  modify fun w => { w with placeholders := w.placeholders + count }

def ask (count : Nat) : Write := do
  put (Token.placeholders count)
  await count

def require : Except Error Unit → Write
  | .ok () => pure ()
  | .error error => throw error

def separated (separator : List Token) : List Write → Write
  | [] => pure ()
  | [last] => last
  | first :: rest => do
    first
    put separator
    separated separator rest

def clause {A : Type} (entries : List A) (lead : List Token) (body : Write) : Write :=
  if entries.isEmpty then pure () else do
    put lead
    body

def enter (scope : Scope) (body : Write) : Write := fun w =>
  match body { w with scope } with
  | .ok () inner => .ok () { inner with scope := w.scope }
  | .error error inner => .error error { inner with scope := w.scope }

def textIn (scope : Scope) (action : Write) : Except Error Text :=
  match action { scope } with
  | .ok () w => .ok w.text
  | .error error _ => .error error

end Write

end SqlComposer
