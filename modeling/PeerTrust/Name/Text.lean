/-
  `Name.Text` — the text of a distinguished name after RFC 4514.

  The relative names come in reverse order, joined by commas, and the attributes
  of one relative name are joined by plus signs. Characters that would end a
  value or change its reading are escaped by a backslash.
-/
import PeerTrust.Encoding.Hex
import PeerTrust.Name

namespace PeerTrust

/-- The short names that the text uses; other attributes show their dotted identifier. -/
def Oid.shortNames : List (String × String) := [
  (Oid.commonName, "CN"),
  (Oid.locality, "L"),
  (Oid.state, "ST"),
  (Oid.organization, "O"),
  (Oid.organizationalUnit, "OU"),
  (Oid.country, "C"),
  (Oid.street, "STREET"),
  (Oid.domainComponent, "DC"),
  (Oid.userId, "UID")]

namespace AttributeValue

/-- The characters that stand for one character anywhere in a value. -/
def escape (c : Char) : List Char :=
  if c = '\x00' then ['\\', '0', '0']
  else if ['\\', '"', '+', ',', ';', '<', '>'].contains c then ['\\', c]
  else [c]

/-- Escapes a first number sign, and a first space that is not the whole value. -/
def guardFirst (cs : List Char) : List Char :=
  match cs with
  | '#' :: _ => '\\' :: cs
  | ' ' :: _ :: _ => '\\' :: cs
  | _ => cs

/-- Escapes a last space. -/
def guardLast (cs : List Char) : List Char :=
  if cs.getLast? = some ' ' then cs.dropLast ++ ['\\', ' '] else cs

/-- **The text of a value;** octets are shown in hexadecimal after a number sign. -/
def render : AttributeValue → String
  | .text s => String.ofList (guardLast (guardFirst (s.toList.flatMap escape)))
  | .octets o => if o.isEmpty then "" else "#" ++ Hex.encode o

end AttributeValue

/-- The text of an attribute: the name of its kind, an equals sign and its value. -/
def Attribute.render (a : Attribute) : String :=
  (Oid.shortNames.lookup a.oid).getD a.oid ++ "=" ++ a.value.render

/-- The text of a relative name. -/
def RelativeName.render (r : RelativeName) : String :=
  "+".intercalate (r.map Attribute.render)

/-- **The text of a name,** most specific part first. -/
def Name.render (n : Name) : String :=
  ",".intercalate (n.relatives.reverse.map RelativeName.render)

end PeerTrust
