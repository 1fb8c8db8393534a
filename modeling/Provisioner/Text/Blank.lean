/-!
# Blank characters

The white space that is trimmed around names, tokens and tool output is the
Unicode property `White_Space`.  Core's `Char.isWhitespace` knows six ASCII
characters only, so the class is spelled out here.

* `isBlank` is the class itself.
* `trimEnd` and `trim` drop blanks at the ends of a text, and `trimStartChars` at its start.
* `allBlank` says that nothing else is left.
-/

namespace Provisioner.Text

/-- The characters with the Unicode property `White_Space`. -/
def isBlank (c : Char) : Bool :=
  let n := c.toNat
  (0x09 ≤ n && n ≤ 0x0D) || n == 0x20 || n == 0x85 || n == 0xA0 || n == 0x1680
    || (0x2000 ≤ n && n ≤ 0x200A) || n == 0x2028 || n == 0x2029 || n == 0x202F
    || n == 0x205F || n == 0x3000

/-- The text without its leading blanks. -/
def trimStartChars (cs : List Char) : List Char :=
  cs.dropWhile isBlank

/-- The text without its trailing blanks. -/
def trimEndChars (cs : List Char) : List Char :=
  (cs.reverse.dropWhile isBlank).reverse

/-- The text without the blanks at its two ends. -/
def trimChars (cs : List Char) : List Char :=
  trimEndChars (trimStartChars cs)

/-- `trimEndChars` on strings. -/
def trimEnd (s : String) : String :=
  String.ofList (trimEndChars s.toList)

/-- `trimChars` on strings. -/
def trim (s : String) : String :=
  String.ofList (trimChars s.toList)

/-- Whether every character of the text is blank; true of the empty text. -/
def allBlank (s : String) : Bool :=
  s.toList.all isBlank

end Provisioner.Text
