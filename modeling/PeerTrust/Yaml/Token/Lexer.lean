/-
  `Yaml.Token.Lexer` — the tokens of a text.

  Two things make this more than a split into words. Indentation opens and
  closes blocks: `blocks` holds the columns of the open ones, innermost first,
  and moving left of a column closes its block. And whether something is a key
  shows only at the colon behind it: wherever a key may start, its place is kept
  as a `PendingKey`, and the colon puts the key's token there afterwards. A
  pending key lasts to the end of its line and for 1024 characters.

  Every level of brackets has a pending key of its own; inside brackets
  indentation does not count.
-/
import PeerTrust.Yaml.Token.Property
import PeerTrust.Yaml.Token.Scalar

namespace PeerTrust.Yaml

/-- A place where a key may have started: the number of tokens before it and its
position. A required key starts a line of its block, so nothing else can stand
there. -/
structure PendingKey where
  tokensBefore : Nat
  required : Bool
  index : Nat
  line : Nat
  column : Nat

/-- A position in the text with the tokens so far. `pending` is the pending key of
the current level of brackets and `outer` those of the levels around it. -/
structure Lexer where
  cursor : Cursor
  tokens : List Token
  blocks : List Nat
  pending : Option PendingKey
  outer : List (Option PendingKey)
  mayStartKey : Bool

namespace Lexer

/-- The state at the start of a text. -/
def start (cs : List Char) : Lexer := ⟨.start cs, [], [], none, [], true⟩

/-- The position is inside brackets. -/
def inFlow (l : Lexer) : Bool := !l.outer.isEmpty

/-- The column of the innermost block; without one it is left of all columns. -/
def indent (l : Lexer) : Int :=
  match l.blocks with
  | column :: _ => column
  | [] => -1

/-- Appends a token. -/
def push (l : Lexer) (t : Token) : Lexer := { l with tokens := l.tokens ++ [t] }

/-! ### Blocks -/

/-- The blocks that stay open at a column, and the number of those that do not. -/
def closeBlocks (column : Int) : List Nat → List Nat × Nat
  | [] => ([], 0)
  | block :: outer =>
    if column < block then
      let (left, closed) := closeBlocks column outer
      (left, closed + 1)
    else (block :: outer, 0)

/-- Closes the blocks right of a column. -/
def unwind (column : Int) (l : Lexer) : Lexer :=
  if l.inFlow then l
  else
    let (left, closed) := closeBlocks column l.blocks
    { l with blocks := left, tokens := l.tokens ++ List.replicate closed .blockEnd }

/-- Opens a block at a column if it is right of the innermost one. The block's
token goes behind the given number of tokens. -/
def openBlock (column position : Nat) (t : Token) (l : Lexer) : Lexer :=
  if l.indent < column then
    { l with
      blocks := column :: l.blocks
      tokens := l.tokens.take position ++ t :: l.tokens.drop position }
  else l

/-! ### Pending keys -/

/-- Gives up a pending key; a required one must not be given up. -/
def dropKey? : Option PendingKey → Option (Option PendingKey)
  | some key => if key.required then none else some none
  | none => some none

/-- The pending key has lasted too long. -/
def isStale (c : Cursor) (key : PendingKey) : Bool :=
  key.line ≠ c.line || 1024 < c.index - key.index

/-- Gives up a pending key that has lasted too long. -/
def refreshKey? (c : Cursor) (key : Option PendingKey) : Option (Option PendingKey) :=
  if key.any (isStale c) then dropKey? key else some key

/-- Gives up all pending keys that have lasted too long. -/
def refresh? (l : Lexer) : Option Lexer := do
  let pending ← refreshKey? l.cursor l.pending
  let outer ← l.outer.mapM (refreshKey? l.cursor)
  some { l with pending := pending, outer := outer }

/-- Gives up the pending key of the current level. -/
def forget? (l : Lexer) : Option Lexer := do
  let pending ← dropKey? l.pending
  some { l with pending := pending }

/-- Keeps the position as one where a key may have started, if it is one. -/
def remember? (l : Lexer) : Option Lexer :=
  if l.mayStartKey then do
    let l ← l.forget?
    let required := !l.inFlow && l.indent = l.cursor.column
    let c := l.cursor
    some { l with pending := some ⟨l.tokens.length, required, c.index, c.line, c.column⟩ }
  else some l

/-! ### Between tokens -/

/-- Skips spaces, comments and line ends up to the next token. A line end outside
brackets allows a key to start. -/
def skipGap : Nat → Lexer → Lexer
  | 0, l => l
  | fuel + 1, l =>
    let c := l.cursor.skipWhile (· = ' ')
    let c := if c.peek = '#' then c.skipWhile fun x => !isBreakOrEnd x else c
    match c.takeBreak? with
    | some (_, c) =>
      skipGap fuel { l with cursor := c, mayStartKey := l.mayStartKey || !l.inFlow }
    | none => { l with cursor := c }

/-- Moves to the next token and closes what ends before it. -/
def approach? (l : Lexer) : Option Lexer := do
  let c := l.cursor
  let c := if c.index = 0 && c.peek = '\uFEFF' then c.forward else c
  let l ← (skipGap (c.rest.length + 1) { l with cursor := c }).refresh?
  some (l.unwind l.cursor.column)

/-! ### Single tokens -/

/-- A token of the given number of characters. -/
def take (length : Nat) (t : Token) (l : Lexer) : Lexer :=
  { l with cursor := l.cursor.skip length }.push t

/-- Sets whether a key may start. -/
def allow (mayStartKey : Bool) (l : Lexer) : Lexer := { l with mayStartKey := mayStartKey }

/-- Ends all blocks before a mark or a directive. -/
def leaveDocument? (l : Lexer) : Option Lexer :=
  (l.unwind (-1)).forget?.map (allow false)

/-- A mark of a document. -/
def separator? (t : Token) (l : Lexer) : Option Lexer :=
  l.leaveDocument?.map (take 3 t)

/-- An opening bracket. -/
def openFlow? (t : Token) (l : Lexer) : Option Lexer := do
  let l ← l.remember?
  some ({ l with pending := none, outer := l.pending :: l.outer, mayStartKey := true }.take 1 t)

/-- A closing bracket. -/
def closeFlow? (t : Token) (l : Lexer) : Option Lexer := do
  let l ← l.forget?
  match l.outer with
  | [] => none
  | pending :: outer =>
    some ({ l with pending := pending, outer := outer, mayStartKey := false }.take 1 t)

/-- The comma between entries in brackets. -/
def flowEntry? (l : Lexer) : Option Lexer :=
  (l.allow true).forget?.map (take 1 .flowEntry)

/-- Opens a block at the current column for a sign that must start a line or
follow another such sign. -/
def openHere? (t : Token) (l : Lexer) : Option Lexer :=
  if l.inFlow then some l
  else if l.mayStartKey then some (l.openBlock l.cursor.column l.tokens.length t)
  else none

/-- The hyphen of an entry. -/
def blockEntry? (l : Lexer) : Option Lexer := do
  let l ← l.openHere? .blockSequenceStart
  (l.allow true).forget?.map (take 1 .blockEntry)

/-- The question mark of a key. -/
def explicitKey? (l : Lexer) : Option Lexer := do
  let l ← l.openHere? .blockMappingStart
  (l.allow !l.inFlow).forget?.map (take 1 .key)

/-- The colon of a value. A pending key becomes a key by it. -/
def valueSign? (l : Lexer) : Option Lexer :=
  match l.pending with
  | some key =>
    let n := key.tokensBefore
    let l := { l with
      pending := none
      tokens := l.tokens.take n ++ Token.key :: l.tokens.drop n
      mayStartKey := false }
    let l := if l.inFlow then l else l.openBlock key.column n .blockMappingStart
    some (l.take 1 .value)
  | none => do
    let l ← l.openHere? .blockMappingStart
    (l.allow !l.inFlow).forget?.map (take 1 .value)

/-- A token that may be a key or come before one. -/
def keyLike {α : Type} (scan : Cursor → Scan (α × Cursor)) (make : α → Token) (l : Lexer) :
    Scan Lexer := do
  let l ← Scan.ofOption l.remember?
  let (a, c) ← scan l.cursor
  return { l with cursor := c, mayStartKey := false }.push (make a)

/-- A block scalar. -/
def blockText? (l : Lexer) : Option Lexer := do
  let l ← (l.allow true).forget?
  let (text, c) ← blockScalar? l.indent l.cursor
  some ({ l with cursor := c }.push (.scalar text false))

/-- A plain scalar. A key may start behind it if its last line has ended. -/
def plainText? (l : Lexer) : Option Lexer := do
  let l ← l.remember?
  let (text, lineEnded, c) := plainScalar l.inFlow l.indent l.cursor
  some ({ l with cursor := c, mayStartKey := lineEnded }.push (.scalar text true))

/-- The characters that have a meaning at the start of a token. -/
def indicators : List Char :=
  ['-', '?', ':', ',', '[', ']', '{', '}', '#', '&', '*', '!', '|', '>', '\'', '"', '%', '@',
    '\x60']

/-- A plain scalar starts at the position. -/
def startsPlain (l : Lexer) : Bool :=
  let x := l.cursor.peek
  !(isBlankOrEnd x || indicators.contains x) ||
    (!isBlankOrEnd (l.cursor.peekAt 1) && (x = '-' || (!l.inFlow && (x = '?' || x = ':'))))

/-- A directive, which ends all blocks before it. -/
def directiveLine? (l : Lexer) : Option Lexer := do
  let l ← l.leaveDocument?
  let (d, c) ← directive? l.cursor
  some ({ l with cursor := c }.push (.directive d))

/-- **Reads the token at the position.** -/
def token (l : Lexer) : Scan Lexer :=
  let c := l.cursor
  let x := c.peek
  let standsAlone := isBlankOrEnd (c.peekAt 1)
  if c.column = 0 && x = '%' then .ofOption l.directiveLine?
  else if c.column = 0 && c.isAtMark ['-', '-', '-'] then .ofOption (l.separator? .documentStart)
  else if c.column = 0 && c.isAtMark ['.', '.', '.'] then .ofOption (l.separator? .documentEnd)
  else if x = '[' then .ofOption (l.openFlow? .flowSequenceStart)
  else if x = '{' then .ofOption (l.openFlow? .flowMappingStart)
  else if x = ']' then .ofOption (l.closeFlow? .flowSequenceEnd)
  else if x = '}' then .ofOption (l.closeFlow? .flowMappingEnd)
  else if x = ',' then .ofOption l.flowEntry?
  else if x = '-' && standsAlone then .ofOption l.blockEntry?
  else if x = '?' && (l.inFlow || standsAlone) then .ofOption l.explicitKey?
  else if x = ':' && (l.inFlow || standsAlone) then .ofOption l.valueSign?
  else if x = '*' then l.keyLike (fun c => .ofOption (referenceName? c)) .alias
  else if x = '&' then l.keyLike (fun c => .ofOption (referenceName? c)) .anchor
  else if x = '!' then l.keyLike (fun c => .ofOption (tag? c)) .tag
  else if (x = '|' || x = '>') && !l.inFlow then .ofOption l.blockText?
  else if x = '\'' || x = '"' then l.keyLike quotedScalar fun text => .scalar text false
  else if l.startsPlain then .ofOption l.plainText?
  else .malformed

/-! ### All tokens -/

/-- The first token that may still become a key, or else the next one to come. -/
def firstOpen (l : Lexer) : Nat :=
  (l.pending :: l.outer).foldl
    (fun n key => match key with
      | some key => min n key.tokensBefore
      | none => n) l.tokens.length

/-- The tokens up to the first that may still become a key, and a fault in its
place: what it is cannot be told without going on. -/
def cutAt (f : Fault) (l : Lexer) : List Token := l.tokens.take l.firstOpen ++ [.fault f]

/-- The tokens where the next one cannot be read. A key that was due by then
is the fault that counts. -/
def stopWith (f : Fault) (l : Lexer) : List Token :=
  match l.refresh? with
  | some l => l.cutAt f
  | none => l.cutAt .malformed

/-- The tokens from a state on, at most `fuel` of them. -/
def run : Nat → Lexer → List Token
  | 0, l => l.stopWith .malformed
  | fuel + 1, l =>
    match l.approach? with
    | none => l.stopWith .malformed
    | some here =>
      if here.cursor.peek = '\x00' then
        match here.leaveDocument? with
        | some last => (last.push .streamEnd).tokens
        | none => l.stopWith .malformed
      else
        match here.token with
        | .ok next => run fuel next
        | .error f => l.stopWith f

end Lexer

/-- **The tokens of a text,** with a fault where it cannot be split into tokens. -/
def tokens (cs : List Char) : List Token := Lexer.run (cs.length + 2) (.start cs)

end PeerTrust.Yaml
