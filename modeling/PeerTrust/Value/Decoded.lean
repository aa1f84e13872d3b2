/-
  `Value.Decoded` — the text that a value amounts to.

  Octets are read in an encoding, a text is itself, and any other value is the
  text that messages show for it. Encodings and treatments go by many names, and
  a name that is not known is no matter as long as nothing depends on it.
-/
import PeerTrust.Failure

namespace PeerTrust

namespace Text

/-! ### Names -/

/-- The words of a name. Everything but letters, digits and points stands between words. -/
def words : List Char → List (List Char)
  | [] => [[]]
  | c :: rest =>
    if c.isAlphanum || c = '.' then
      match words rest with
      | word :: others => (c.toLower :: word) :: others
      | [] => [[c.toLower]]
    else [] :: words rest

/-- A name as its words in lower case with underscores between them. -/
def foldedName (name : String) : String :=
  "_".intercalate (((words name.toList).filter fun word => !word.isEmpty).map String.ofList)

/-- The names of encodings, the plain one first. -/
def charsetNames : List (Charset × List String) := [
  (.utf8, ["utf_8", "cp65001", "u8", "utf", "utf8", "utf8_ucs2", "utf8_ucs4"]),
  (.ascii, ["ascii", "646", "ansi_x3.4_1968", "ansi_x3.4_1986", "ansi_x3_4_1968", "cp367",
    "csascii", "ibm367", "iso646_us", "iso_646.irv_1991", "iso_ir_6", "us", "us_ascii"]),
  (.latin1, ["latin_1", "8859", "cp819", "csisolatin1", "ibm819", "iso8859", "iso8859_1",
    "iso_8859_1", "iso_8859_1_1987", "iso_ir_100", "l1", "latin", "latin1"])]

/-- **The encoding of a name.** In a name that is not the plain one, a point may stand
for an underscore. -/
def Charset.ofName? (name : String) : Option Charset :=
  let name := foldedName name
  let pointless := name.map fun c => if c = '.' then '_' else c
  (charsetNames.find? fun (_, names) =>
    names.contains name || (names.drop 1).contains pointless).map (·.1)

/-- The treatment of malformed octets that goes by a name. -/
def OnMalformed.ofName (name : String) : OnMalformed :=
  match name with
  | "strict" => .refuse
  | "ignore" => .drop
  | "replace" => .replace
  | "backslashreplace" => .escape
  | "surrogateescape" => .keepOctets
  | "surrogatepass" => .keepHalves
  | "xmlcharrefreplace" | "namereplace" => .unsuited
  | _ => .unknown

end Text

/-- The failure of reading octets. -/
def Text.DecodeFault.failure : Text.DecodeFault → Failure
  | .malformed => .octetsNotText
  | .unsuited => .misuse
  | .unknown => .unknownCharset

/-- **The text of a value,** its octets read in the encoding and with the treatment of
the given names. The names matter only for octets, and no octets are an empty text
in every encoding. -/
def Value.decodedText (v charset onMalformed : Value) : Except Failure String :=
  match v, charset, onMalformed with
  | .bytes content, .str charset, .str onMalformed =>
    if content.isEmpty then .ok ""
    else
      match Text.Charset.ofName? charset, Content.octets? content with
      | none, _ => .error .unknownCharset
      | some _, none => .error .octetsNotText
      | some charset, some octets =>
        (charset.decode (.ofName onMalformed) octets).mapError Text.DecodeFault.failure
  | .bytes _, _, _ => .error .misuse
  | v, _, _ => .ok v.text

end PeerTrust
