/-
  `Yaml.Token.Property` — anchors, aliases, tags and directives.

  Each reader starts at its own sign and checks what has to follow. Tags may
  hold octets in hexadecimal, which are text in UTF-8.
-/
import PeerTrust.Text.Charset
import PeerTrust.Text.Digits
import PeerTrust.Yaml.Cursor
import PeerTrust.Yaml.Token

namespace PeerTrust.Yaml

/-! ### Names -/

/-- A character of a name: an ASCII letter or digit, a hyphen or an underscore. -/
def isNameCharacter (x : Char) : Bool := x.isAlphanum || x = '-' || x = '_'

/-- **The name behind the sign of an anchor or an alias.** -/
def referenceName? (c : Cursor) : Option (String × Cursor) :=
  let (name, next) := c.forward.takeWhile isNameCharacter
  if name.isEmpty then none
  else if isBlankOrEnd next.peek || ['?', ':', ',', ']', '}', '%', '@', '\x60'].contains next.peek
  then some (String.ofList name, next)
  else none

/-! ### Tags -/

/-- A character of a tag beside letters, digits and escapes. -/
def isTagPunctuation (x : Char) : Bool := "-;/?:@&=+$,_.!~*'()[]".toList.contains x

/-- The octets of escapes, each a percent sign and two digits. -/
def tagEscapes : Nat → Cursor → Option (Octets × Cursor)
  | 0, c => some ([], c)
  | fuel + 1, c =>
    if c.peek = '%' then do
      let digits := c.forward.rest.take 2
      if digits.length < 2 then none
      let octet ← Text.readDigits? 16 digits
      let (more, next) ← tagEscapes fuel (c.skip 3)
      some (UInt8.ofNat octet :: more, next)
    else some ([], c)

/-- The characters of a tag. -/
def tagCharacters : Nat → Cursor → Option (List Char × Cursor)
  | 0, c => some ([], c)
  | fuel + 1, c =>
    let (run, next) := c.takeWhile fun x => isNameCharacter x || isTagPunctuation x
    if next.peek = '%' then do
      let (octets, next) ← tagEscapes next.rest.length next
      let decoded ← Text.ofUtf8? octets
      let (more, next) ← tagCharacters fuel next
      some (run ++ decoded.toList ++ more, next)
    else some (run, next)

/-- The part of a tag behind its handle, which is not empty. -/
def tagSuffix? (c : Cursor) : Option (String × Cursor) := do
  let (cs, next) ← tagCharacters (c.rest.length + 1) c
  if next.index = c.index then none else some (String.ofList cs, next)

/-- A handle of a tag: one exclamation mark, or a name between two of them. -/
def tagHandle? (c : Cursor) : Option (String × Cursor) :=
  if c.peek ≠ '!' then none
  else
    let (name, next) := c.forward.takeWhile isNameCharacter
    if next.peek = '!' then some (String.ofList ('!' :: name ++ ['!']), next.forward)
    else if name.isEmpty && next.peek = ' ' then some ("!", next)
    else none

/-- A second exclamation mark occurs before the next space or line end. -/
def hasNamedHandle (c : Cursor) : Bool :=
  (c.forward.ahead fun x => !isSpaceOrEnd x).contains '!'

/-- **A tag,** from its exclamation mark on. -/
def tag? (c : Cursor) : Option (WrittenTag × Cursor) := do
  let (written, next) ←
    if c.peekAt 1 = '<' then do
      let (suffix, next) ← tagSuffix? (c.skip 2)
      if next.peek = '>' then some (WrittenTag.mk none suffix, next.forward) else none
    else if isBlankOrEnd (c.peekAt 1) then some (WrittenTag.mk none "!", c.forward)
    else do
      let (handle, next) ←
        if hasNamedHandle c then tagHandle? c else some ("!", c.forward)
      let (suffix, next) ← tagSuffix? next
      some (WrittenTag.mk (some handle) suffix, next)
  if isSpaceOrEnd next.peek then some (written, next) else none

/-! ### Directives -/

/-- Digits of a version. -/
def versionNumber? (c : Cursor) : Option (Nat × Cursor) := do
  let (digits, next) := c.takeWhile Char.isDigit
  let n ← Text.readDecimal? digits
  some (n, next)

/-- The text of a directive behind its name. -/
def directiveBody? (name : List Char) (c : Cursor) : Option (Directive × Cursor) := do
  let start := c.skipWhile (· = ' ')
  if name = "YAML".toList then do
    let (major, next) ← versionNumber? start
    if next.peek ≠ '.' then none
    let (_, next) ← versionNumber? next.forward
    if isSpaceOrEnd next.peek then some (.version major, next) else none
  else if name = "TAG".toList then do
    let (handle, next) ← tagHandle? start
    if next.peek ≠ ' ' then none
    let (meaning, next) ← tagSuffix? (next.skipWhile (· = ' '))
    if isSpaceOrEnd next.peek then some (.handle handle meaning, next) else none
  else some (.other, c.skipWhile fun x => !isBreakOrEnd x)

/-- **A directive,** from its percent sign to the end of its line. -/
def directive? (c : Cursor) : Option (Directive × Cursor) := do
  let (name, next) := c.forward.takeWhile isNameCharacter
  if name.isEmpty || !isSpaceOrEnd next.peek then none
  let (directive, next) ← directiveBody? name next
  let next := next.skipWhile (· = ' ')
  let next := if next.peek = '#' then next.skipWhile fun x => !isBreakOrEnd x else next
  if isBreakOrEnd next.peek then some (directive, ((next.takeBreak?).map (·.2)).getD next)
  else none

end PeerTrust.Yaml
