import FieldQuery.Text.CodeRanges

/-!
# Blanks and control characters

Blanks are the characters with the Unicode property White_Space: six control characters, the
space, the no-break space and the spaces and separators of the general punctuation. Control
characters are the two blocks of category Cc.
-/

set_option autoImplicit false

namespace FieldQuery.Text

def blankRanges : CodeRanges := [
  (0x9, 0xD), (0x20, 0x20), (0x85, 0x85), (0xA0, 0xA0), (0x1680, 0x1680), (0x2000, 0x200A),
  (0x2028, 0x2029), (0x202F, 0x202F), (0x205F, 0x205F), (0x3000, 0x3000)]

def isBlank (character : Char) : Bool := blankRanges.has character

/-- Whether a character is a control character: U+0000 to U+001F and U+007F to U+009F. -/
def isControl (character : Char) : Bool :=
  character.toNat < 0x20 || (0x7F ≤ character.toNat && character.toNat < 0xA0)

end FieldQuery.Text
