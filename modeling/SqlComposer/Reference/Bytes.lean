import SqlComposer.Token

set_option autoImplicit false

/-!
References as bytes: the search for the first ` AS ` in the UTF-8 bytes of a reference, and the loops that
search again behind it.
-/

namespace SqlComposer

namespace Text

def bytes (text : Text) : List UInt8 := text.flatMap String.utf8EncodeChar

-- There is no cutting inside a character or behind the end.
def splitBytes : Nat → Text → Option (Text × Text)
  | 0, text => some ([], text)
  | _ + 1, [] => none
  | place + 1, c :: rest =>
    if c.utf8Size ≤ place + 1 then
      (splitBytes (place + 1 - c.utf8Size) rest).map fun (before, behind) => (c :: before, behind)
    else none

end Text

namespace Reference

-- One bit tells capital letters from small ones.
def beginsCut : List UInt8 → Bool
  | b :: c :: d :: e :: _ => b == 0x20 && e == 0x20 && (c ||| 0x20) == 0x61 && (d ||| 0x20) == 0x73
  | _ => false

def findCut : List UInt8 → Option Nat
  | [] => none
  | b :: rest => if beginsCut (b :: rest) then some 0 else (findCut rest).map (· + 1)

def splitAlias (reference : Text) : Option (Text × Option Text) :=
  match findCut reference.bytes with
  | none => some (reference, none)
  | some place => do
    let (name, _) ← reference.splitBytes place
    let (_, rest) ← reference.splitBytes (place + 4)
    return (name, some rest)

def quoteRounds (quote : Quote) : Nat → Text → Option (List Token)
  | 0, _ => none
  | rounds + 1, reference =>
    match splitAlias reference with
    | none => none
    | some (name, none) => some (dotted quote name)
    | some (name, some rest) => (quoteRounds quote rounds rest).map fun later =>
      dotted quote name ++ [.space, .word .AS, .space] ++ later

def validateRounds (settings : Settings) (method : Text) : Nat → Text → Option (Except Error Unit)
  | 0, _ => none
  | rounds + 1, reference =>
    if isWildcard reference then some (.ok ())
    else match splitAlias reference with
    | none => none
    | some (part, none) =>
      some (if accepts settings part then .ok () else .error (.invalidReference method part))
    | some (name, some rest) =>
      match validateRounds settings method rounds name with
      | some (.ok ()) => validateRounds settings method rounds rest
      | refused => refused

end Reference

end SqlComposer
