/-!
# Blank text

The Unicode property White_Space, and texts that hold nothing else.
-/

namespace EventWrap.Text

def isBlank (c : Char) : Bool :=
  let n := c.toNat
  (0x09 ≤ n && n ≤ 0x0d) || n == 0x20 || n == 0x85 || n == 0xa0 || n == 0x1680 ||
    (0x2000 ≤ n && n ≤ 0x200a) || n == 0x2028 || n == 0x2029 || n == 0x202f || n == 0x205f || n == 0x3000

/-- Whether a text is empty once the blanks at its ends are dropped. -/
def isBlankText (s : String) : Bool := s.toList.all isBlank

/-- The control characters: U+0000 to U+001F and U+007F to U+009F. -/
def isControl (c : Char) : Bool := c.toNat < 0x20 || (0x7f ≤ c.toNat && c.toNat ≤ 0x9f)

end EventWrap.Text
