/-
  `Yaml.Token.Scalar` — the text of scalars in their five styles.

  Plain and quoted scalars may go over several lines, which are folded: a single
  line end counts as a space, and of several the first is dropped. Block scalars
  keep their lines (`|`) or fold them (`>`), and their header says what becomes
  of the line ends at the end.
-/
import PeerTrust.Text.CodePoint
import PeerTrust.Text.Digits
import PeerTrust.Yaml.Cursor
import PeerTrust.Yaml.Fault

namespace PeerTrust.Yaml

/-! ### Folded line ends -/

/-- What a line end and the line ends after it count as. -/
def foldBreaks (first : Char) (others : List Char) : List Char :=
  (if first ≠ '\n' then [first] else if others.isEmpty then [' '] else []) ++ others

/-! ### Quoted scalars -/

/-- The characters that stand behind a backslash for another one. -/
def replacements : List (Char × Char) := [
  ('0', '\x00'), ('a', '\x07'), ('b', '\x08'), ('t', '\t'), ('\t', '\t'), ('n', '\n'),
  ('v', '\x0B'), ('f', '\x0C'), ('r', '\r'), ('e', '\x1B'), (' ', ' '), ('"', '"'),
  ('\\', '\\'), ('/', '/'), ('N', '\x85'), ('_', '\xA0'), ('L', '\u2028'), ('P', '\u2029')]

/-- The characters that stand behind a backslash before digits, with their number. -/
def codeLengths : List (Char × Nat) := [('x', 2), ('u', 4), ('U', 8)]

/-- The line ends inside quotes after the first, blanks around them dropped. A
mark of a document ends the quotes by force. -/
def quotedBreaks : Nat → Cursor → Scan (List Char × Cursor)
  | 0, _ => .malformed
  | fuel + 1, c =>
    if c.isAtSeparator then .malformed
    else
      let c := c.skipWhile fun x => x = ' ' || x = '\t'
      match c.takeBreak? with
      | some (x, c) => do
        let (more, c) ← quotedBreaks fuel c
        return (x :: more, c)
      | none => return ([], c)

/-- The spelling of the code point that digits behind a backslash name. -/
def namedCodePoint (code : Nat) : Scan (List Char) :=
  if code ≤ Text.maxCode then .ok (Text.CodePoint.ofCode code).spell
  else .error (if code < 0x80000000 then .impossible else .tooLarge)

/-- One escape, behind its backslash. -/
def quotedEscape (c : Cursor) : Scan (List Char × Cursor) :=
  match replacements.lookup c.peek with
  | some x => return ([x], c.forward)
  | none =>
    match codeLengths.lookup c.peek with
    | some length => do
      let digits := c.forward.rest.take length
      if digits.length < length then .malformed
      let code ← Scan.ofOption (Text.readDigits? 16 digits)
      return (← namedCodePoint code, c.skip (length + 1))
    | none => do
      let (_, next) ← Scan.ofOption c.takeBreak?
      quotedBreaks (c.rest.length + 1) next

/-- A run of blanks and line ends inside quotes. -/
def quotedBlanks (c : Cursor) : Scan (List Char × Cursor) :=
  let (blanks, next) := c.takeWhile fun x => x = ' ' || x = '\t'
  if next.peek = '\x00' then .malformed
  else
    match next.takeBreak? with
    | some (first, next) => do
      let (others, next) ← quotedBreaks (c.rest.length + 1) next
      return (foldBreaks first others, next)
    | none => return (blanks, next)

/-- The characters of a quoted scalar up to its closing quote. -/
def quotedText (double : Bool) : Nat → Cursor → Scan (List Char × Cursor)
  | 0, _ => .malformed
  | fuel + 1, c =>
    let x := c.peek
    let continueWith (part : List Char × Cursor) : Scan (List Char × Cursor) := do
      let (more, next) ← quotedText double fuel part.2
      return (part.1 ++ more, next)
    if double then
      if x = '"' then return ([], c.forward)
      else if x = '\\' then (quotedEscape c.forward).bind continueWith
      else if isBlankOrEnd x then (quotedBlanks c).bind continueWith
      else continueWith ([x], c.forward)
    else
      if x = '\'' then
        if c.peekAt 1 = '\'' then continueWith (['\''], c.skip 2) else return ([], c.forward)
      else if isBlankOrEnd x then (quotedBlanks c).bind continueWith
      else continueWith ([x], c.forward)

/-- **A quoted scalar,** from its opening quote on. -/
def quotedScalar (c : Cursor) : Scan (String × Cursor) := do
  let (cs, next) ← quotedText (c.peek = '"') (c.rest.length + 1) c.forward
  return (String.ofList cs, next)

/-! ### Plain scalars -/

/-- The characters that end a plain scalar inside brackets. -/
def isFlowIndicator (x : Char) : Bool := [',', '[', ']', '{', '}'].contains x

/-- The characters of a plain scalar up to a blank or an indicator. -/
def plainRun (inFlow : Bool) : List Char → List Char
  | [] => []
  | x :: rest =>
    let next := rest.headD '\x00'
    let ends := isBlankOrEnd x ||
      (x = ':' && (isBlankOrEnd next || (inFlow && isFlowIndicator next))) ||
      (inFlow && (isFlowIndicator x || x = '?'))
    if ends then [] else x :: plainRun inFlow rest

/-- The line ends after the first between two parts of a plain scalar. A mark of
a document is not part of it. -/
def plainBreaks : Nat → Cursor → Option (List Char) × Cursor
  | 0, c => (some [], c)
  | fuel + 1, c =>
    if c.isAtSeparator then (none, c)
    else
      let c := c.skipWhile (· = ' ')
      match c.takeBreak? with
      | some (x, c) =>
        let (more, c) := plainBreaks fuel c
        (more.map (x :: ·), c)
      | none => (some [], c)

/-- What stands between two parts of a plain scalar, and whether a line ended.
There is nothing if the scalar cannot go on. -/
def plainBlanks (c : Cursor) : List Char × Bool × Cursor :=
  let (blanks, next) := c.takeWhile (· = ' ')
  match next.takeBreak? with
  | some (first, next) =>
    match plainBreaks (c.rest.length + 1) next with
    | (some others, next) => (foldBreaks first others, true, next)
    | (none, next) => ([], true, next)
  | none => (blanks, false, next)

/-- The parts of a plain scalar, with what was found between it and them. -/
def plainParts (inFlow : Bool) (indent : Int) :
    Nat → List Char → Bool → Cursor → List Char × Bool × Cursor
  | 0, _, lineEnded, c => ([], lineEnded, c)
  | fuel + 1, between, lineEnded, c =>
    let run := plainRun inFlow c.rest
    if c.peek = '#' || run.isEmpty then ([], lineEnded, c)
    else
      let (blanks, ended, next) := plainBlanks (c.skip run.length)
      if blanks.isEmpty || next.peek = '#' || (!inFlow && (next.column : Int) < indent) then
        (between ++ run, ended, next)
      else
        let (more, ended, next) := plainParts inFlow indent fuel blanks ended next
        (between ++ run ++ more, ended, next)

/-- **A plain scalar** inside a block of the given indentation, and whether a line
ended after its last character. -/
def plainScalar (inFlow : Bool) (indent : Int) (c : Cursor) : String × Bool × Cursor :=
  let (cs, ended, next) := plainParts inFlow (indent + 1) (c.rest.length + 1) [] false c
  (String.ofList cs, ended, next)

/-! ### Block scalars -/

/-- What becomes of the line ends at the end of a block scalar. -/
inductive Chomping
  | strip
  | clip
  | keep
deriving DecidableEq

/-- A sign in the header of a block scalar. -/
def chompingOf? : Char → Option Chomping
  | '+' => some .keep
  | '-' => some .strip
  | _ => none

/-- The header of a block scalar: a sign and a digit in either order, each optional. -/
def blockHeader? (c : Cursor) : Option (Chomping × Option Nat × Cursor) := do
  let digit (c : Cursor) : Option (Option Nat × Cursor) :=
    match Text.decimalValue? c.peek with
    | some 0 => none
    | some n => some (some n, c.forward)
    | none => some (none, c)
  let (chomping, increment, next) ←
    match chompingOf? c.peek with
    | some chomping => do
      let (increment, next) ← digit c.forward
      some (chomping, increment, next)
    | none => do
      let (increment, next) ← digit c
      match increment, chompingOf? next.peek with
      | some n, some chomping => some (chomping, some n, next.forward)
      | _, _ => some (.clip, increment, next)
  if isSpaceOrEnd next.peek then some (chomping, increment, next) else none

/-- The rest of the header's line: spaces, a comment, and the end of the line. -/
def blockHeaderEnd? (c : Cursor) : Option Cursor :=
  let next := c.skipWhile (· = ' ')
  let next := if next.peek = '#' then next.skipWhile fun x => !isBreakOrEnd x else next
  if isBreakOrEnd next.peek then some ((next.takeBreak?.map (·.2)).getD next) else none

/-- The empty lines before the first line with text, and the widest indentation seen. -/
def blockLead : Nat → Nat → Cursor → List Char × Nat × Cursor
  | 0, widest, c => ([], widest, c)
  | fuel + 1, widest, c =>
    if c.peek = ' ' then
      let next := c.forward
      blockLead fuel (max widest next.column) next
    else
      match c.takeBreak? with
      | some (x, next) =>
        let (more, widest, next) := blockLead fuel widest next
        (x :: more, widest, next)
      | none => ([], widest, c)

/-- Spaces up to a column. -/
def skipIndent : Nat → Cursor → Cursor
  | 0, c => c
  | fuel + 1, c =>
    if c.peek = ' ' then skipIndent fuel c.forward else c

/-- The empty lines before the next line with text, whose indentation is skipped. -/
def blockBreaks (indent : Nat) : Nat → Cursor → List Char × Cursor
  | 0, c => ([], c)
  | fuel + 1, c =>
    let c := skipIndent (indent - c.column) c
    match c.takeBreak? with
    | some (x, c) =>
      let (more, c) := blockBreaks indent fuel c
      (x :: more, c)
    | none => ([], c)

/-- The lines of a block scalar from a line with text on, behind the given empty
lines. Gives the text, the last line end and the empty lines after it. -/
def blockLines (folded : Bool) (indent : Nat) :
    Nat → List Char → Cursor → List Char × List Char × List Char × Cursor
  | 0, empties, c => ([], [], empties, c)
  | fuel + 1, empties, c =>
    if c.column ≠ indent || c.peek = '\x00' then ([], [], empties, c)
    else
      let startsBlank := c.peek = ' ' || c.peek = '\t'
      let (run, next) := c.takeWhile fun x => !isBreakOrEnd x
      let (lineEnd, next) := match next.takeBreak? with
        | some (x, next) => ([x], next)
        | none => ([], next)
      let (following, next) := blockBreaks indent (c.rest.length + 1) next
      if next.column = indent && next.peek ≠ '\x00' then
        let nextBlank := next.peek = ' ' || next.peek = '\t'
        let joint :=
          if folded && lineEnd = ['\n'] && !startsBlank && !nextBlank then
            (if following.isEmpty then [' '] else [])
          else lineEnd
        let (more, lastEnd, trailing, next) := blockLines folded indent fuel following next
        (empties ++ run ++ joint ++ more, lastEnd, trailing, next)
      else (empties ++ run, lineEnd, following, next)

/-- **A block scalar** inside a block of the given indentation, from its sign on. -/
def blockScalar? (indent : Int) (c : Cursor) : Option (String × Cursor) := do
  let folded := c.peek = '>'
  let fuel := c.rest.length + 1
  let (chomping, increment, next) ← blockHeader? c.forward
  let next ← blockHeaderEnd? next
  let least := (max (indent + 1) 1).toNat
  let (width, empties, next) :=
    match increment with
    | some n =>
      let width := least + n - 1
      let (empties, next) := blockBreaks width fuel next
      (width, empties, next)
    | none =>
      let (empties, widest, next) := blockLead fuel 0 next
      (max least widest, empties, next)
  let (text, lineEnd, trailing, next) := blockLines folded width fuel empties next
  let tail := match chomping with
    | .strip => []
    | .clip => lineEnd
    | .keep => lineEnd ++ trailing
  some (String.ofList (text ++ tail), next)

end PeerTrust.Yaml
