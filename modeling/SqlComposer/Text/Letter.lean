import SqlComposer.Text

set_option autoImplicit false

namespace SqlComposer

namespace Text

def sameLetters (a b : Text) : Bool := a.map Char.toLower == b.map Char.toLower

def asciiUpper : List (Char × Text) :=
  [('\u00df', "SS"), ('\u0131', "I"), ('\u017f', "S"), ('\ufb00', "FF"), ('\ufb01', "FI"),
    ('\ufb02', "FL"), ('\ufb03', "FFI"), ('\ufb04', "FFL"), ('\ufb05', "ST"), ('\ufb06', "ST")]

def upperChar (c : Char) : Text :=
  match asciiUpper.lookup c with
  | some letters => letters
  | none => [c.toUpper]

/-- The upper case, exact for every text whose upper case is ASCII. All other characters stay,
which cannot make a text equal to an ASCII word. -/
def upper (text : Text) : Text := text.flatMap upperChar

def afterDotted : Text → Text → Option Text
  | [], '.' :: rest => some rest
  | h :: head, c :: rest => if h.toLower = c.toLower then afterDotted head rest else none
  | _, _ => none

end Text

end SqlComposer
