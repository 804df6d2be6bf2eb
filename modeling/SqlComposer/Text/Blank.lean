import SqlComposer.Text.Range

/-! White space and blank text. White space is the Unicode property. Blank text holds nothing but
white space and the four separators U+001C to U+001F; zero-width characters are neither. -/

namespace SqlComposer.Text

def spaceRanges : List (Nat × Nat) :=
  [(0x09, 0x0D), (0x20, 0x20), (0x85, 0x85), (0xA0, 0xA0), (0x1680, 0x1680), (0x2000, 0x200A),
   (0x2028, 0x2029), (0x202F, 0x202F), (0x205F, 0x205F), (0x3000, 0x3000)]

def isSpace (c : Char) : Bool :=
  inRanges spaceRanges c.toNat

def isBlankChar (c : Char) : Bool :=
  isSpace c || inRanges [(0x1C, 0x1F)] c.toNat

def isBlank (s : String) : Bool :=
  s.toList.all isBlankChar

def trimmed (cs : List Char) : List Char :=
  ((cs.dropWhile isSpace).reverse.dropWhile isSpace).reverse

end SqlComposer.Text
