import SqlComposer.Text

set_option autoImplicit false

namespace SqlComposer

def blankRanges : List (Nat × Nat) :=
  [(0x09, 0x0D), (0x20, 0x20), (0x85, 0x85), (0xA0, 0xA0), (0x1680, 0x1680), (0x2000, 0x200A),
    (0x2028, 0x2029), (0x202F, 0x202F), (0x205F, 0x205F), (0x3000, 0x3000)]

def isBlank (c : Char) : Bool :=
  blankRanges.any fun (low, high) => low ≤ c.toNat && c.toNat ≤ high

namespace Text

def trimLeft (text : Text) : Text := text.dropWhile isBlank

def trimRight (text : Text) : Text := (text.reverse.dropWhile isBlank).reverse

def trim (text : Text) : Text := text.trimLeft.trimRight

end Text

end SqlComposer
