/-
  `Yaml.Cursor` — a position in the text of a document.

  The cursor holds the characters that are still ahead, and counts lines,
  columns and characters. Past the end it sees the null character, which no
  document holds.
-/
import PeerTrust.Text.CodePoint

namespace PeerTrust.Yaml

/-- The characters that end a line. -/
def isBreak (c : Char) : Bool := ['\n', '\x85', '\u2028', '\u2029'].contains c

/-- The end of the text, or the end of a line. -/
def isBreakOrEnd (c : Char) : Bool := c = '\x00' || isBreak c

/-- The end of the text, a space, or the end of a line. -/
def isSpaceOrEnd (c : Char) : Bool := c = ' ' || isBreakOrEnd c

/-- The end of the text, a blank, or the end of a line. -/
def isBlankOrEnd (c : Char) : Bool := c = '\t' || isSpaceOrEnd c

/-- A document may hold the character. -/
def isAllowed (c : Char) : Bool :=
  let n := c.toNat
  n = 0x9 || n = 0xA || n = 0xD || (0x20 ≤ n && n ≤ 0x7E) || n = 0x85 ||
    (0xA0 ≤ n && n ≤ 0xFFFD) || 0x10000 ≤ n

/-- A position: what is ahead, and where it is. -/
structure Cursor where
  rest : List Char
  index : Nat
  line : Nat
  column : Nat

namespace Cursor

/-- The position at the start of a text. -/
def start (cs : List Char) : Cursor := ⟨cs, 0, 0, 0⟩

/-- The character `k` places ahead. -/
def peekAt (c : Cursor) (k : Nat) : Char := c.rest.getD k '\x00'

/-- The next character. -/
def peek (c : Cursor) : Char := c.peekAt 0

/-- Moves over one character. A byte order mark takes no column, and the mark in front of a
character that is meant as itself is none of the text. -/
def forward (c : Cursor) : Cursor :=
  match c.rest with
  | [] => c
  | x :: rest =>
    if x = Text.CodePoint.mark then ⟨rest, c.index, c.line, c.column⟩
    else if isBreak x then ⟨rest, c.index + 1, c.line + 1, 0⟩
    else ⟨rest, c.index + 1, c.line, if x = '\uFEFF' then c.column else c.column + 1⟩

/-- Moves over `n` characters. -/
def skip : Nat → Cursor → Cursor
  | 0, c => c
  | n + 1, c => skip n c.forward

/-- The longest run ahead of characters that satisfy `p`. -/
def ahead (p : Char → Bool) (c : Cursor) : List Char := c.rest.takeWhile p

/-- Takes the longest run of characters that satisfy `p`. -/
def takeWhile (p : Char → Bool) (c : Cursor) : List Char × Cursor :=
  let run := c.ahead p
  (run, c.skip run.length)

/-- Skips the longest run of characters that satisfy `p`. -/
def skipWhile (p : Char → Bool) (c : Cursor) : Cursor := (c.takeWhile p).2

/-- Moves over the end of a line, which counts as a line feed unless it is one of
the two special separators. -/
def takeBreak? (c : Cursor) : Option (Char × Cursor) :=
  let x := c.peek
  if x = '\n' ∨ x = '\x85' then some ('\n', c.forward)
  else if x = '\u2028' ∨ x = '\u2029' then some (x, c.forward)
  else none

/-- A mark of three characters stands ahead, with nothing joined to it. -/
def isAtMark (mark : List Char) (c : Cursor) : Bool :=
  c.rest.take 3 == mark && isBlankOrEnd (c.peekAt 3)

/-- A mark of the start or the end of a document stands ahead. -/
def isAtSeparator (c : Cursor) : Bool :=
  c.isAtMark ['-', '-', '-'] || c.isAtMark ['.', '.', '.']

end Cursor
end PeerTrust.Yaml
