/-!
# Blank characters

The characters with the property White_Space, and trimming text by them.  `Char.isWhitespace` knows
four of them; text from files and command lines brings the others too.
-/

set_option autoImplicit false

namespace ScriptPool
namespace Text

/-- Does the character have the property White_Space? -/
def isBlank (c : Char) : Bool :=
  let code := c.toNat
  (9 ≤ code && code ≤ 13) || code = 0x20 || code = 0x85 || code = 0xa0 || code = 0x1680
    || (0x2000 ≤ code && code ≤ 0x200a) || code = 0x2028 || code = 0x2029 || code = 0x202f
    || code = 0x205f || code = 0x3000

/-- Drops the blanks on the right. -/
def trimRight (cs : List Char) : List Char := (cs.reverse.dropWhile isBlank).reverse

/-- Drops the blanks on both sides. -/
def trimBlanks (cs : List Char) : List Char := trimRight (cs.dropWhile isBlank)

/-- Drops the blanks on both sides of a string. -/
def trim (s : String) : String := String.ofList (trimBlanks s.toList)

end Text
end ScriptPool
