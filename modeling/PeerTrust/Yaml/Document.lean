/-
  `Yaml.Document` — the value of a text.

  A text is split into tokens, the tokens make up a graph of nodes, and the nodes
  are built into values. Each stage fails in its own way, and the first failure
  counts. An empty text is null.
-/
import PeerTrust.Failure
import PeerTrust.Yaml.Node.Parser
import PeerTrust.Yaml.Node.Unfold
import PeerTrust.Yaml.Token.Lexer

namespace PeerTrust.Yaml

/-- Line ends of two characters, and carriage returns, as line feeds. -/
def unifyLineEnds : List Char → List Char
  | '\r' :: '\n' :: rest => '\n' :: unifyLineEnds rest
  | '\r' :: rest => '\n' :: unifyLineEnds rest
  | c :: rest => c :: unifyLineEnds rest
  | [] => []

/-- The value of characters with unified line ends. -/
def scan (cs : List Char) : Scan Value := do
  if !cs.all isAllowed then Scan.malformed
  match ← Graph.ofTokens (tokens cs) with
  | (none, _) => return .null
  | (some root, g) => return Construction.value ⟨← g.build root⟩ root

/-- **The value of a document.** -/
def read (text : String) : Except Failure Value :=
  (scan (unifyLineEnds text.toList)).mapError .document

end PeerTrust.Yaml
