/-
  `Name` — distinguished names of subjects and issuers.

  A name is a list of relative names, and each of these is a set of attributes
  in the order of the encoding. Two comparisons matter and they differ: names
  *match* if their relative names are equal as sets of identifiers and values,
  and names are *identical* (`=`) if also the string types and the order inside
  relative names agree.

  A peer may write an attribute that no reader understands. That shows when the
  name is read (`Name.read`) and not before, so names can be identical without
  being legible.
-/
import PeerTrust.Text.Charset
import PeerTrust.Text.Search

namespace PeerTrust

/-! ### Defects -/

/-- Why an attribute of a name cannot be read: its octets are no text, its string type is not the
one that it has to have, or not in the table of known ones. -/
inductive NameDefect
  | malformed
  | mistyped
  | unlisted
deriving DecidableEq, Repr

/-! ### Attributes -/

/-- How the text of an attribute is encoded; `bits` holds octets and no text. -/
inductive StringType
  | utf8
  | printable
  | ia5
  | bmp
  | bits
  | other (tag : UInt8)
deriving DecidableEq, Repr

/-- The tag of a string type. -/
def StringType.tag : StringType → UInt8
  | .utf8 => 0x0C
  | .printable => 0x13
  | .ia5 => 0x16
  | .bmp => 0x1E
  | .bits => 0x03
  | .other tag => tag

/-- The tags that are known in attributes. -/
def StringType.knownTags : List UInt8 :=
  [0x03, 0x04, 0x0C, 0x12, 0x13, 0x14, 0x16, 0x17, 0x18, 0x1A, 0x1C, 0x1E]

/-- The value of an attribute: text, or octets that are no text. -/
inductive AttributeValue
  | text (s : String)
  | octets (o : Octets)
deriving DecidableEq, Repr

/-- One attribute of a name; its kind is an object identifier in dotted form. -/
structure Attribute where
  oid : String
  value : AttributeValue
  stringType : StringType
deriving DecidableEq, Repr

/-- A set of attributes, listed in the order of the encoding. -/
abbrev RelativeName := List Attribute

/-- A distinguished name: relative names from the most general to the most specific. -/
structure Name where
  relatives : List RelativeName
deriving DecidableEq, Repr

/-! ### Identifiers of attributes -/

namespace Oid

def commonName : String := "2.5.4.3"
def country : String := "2.5.4.6"
def locality : String := "2.5.4.7"
def state : String := "2.5.4.8"
def street : String := "2.5.4.9"
def organization : String := "2.5.4.10"
def organizationalUnit : String := "2.5.4.11"
def domainComponent : String := "0.9.2342.19200300.100.1.25"
def userId : String := "0.9.2342.19200300.100.1.1"
def email : String := "1.2.840.113549.1.9.1"
def serialNumber : String := "2.5.4.5"
def dnQualifier : String := "2.5.4.46"
def jurisdictionCountry : String := "1.3.6.1.4.1.311.60.2.1.3"
def uniqueIdentifier : String := "2.5.4.45"

/-- The registered names of attribute kinds. -/
def registered : List (String × String) := [
  (commonName, "commonName"),
  (country, "countryName"),
  (locality, "localityName"),
  (state, "stateOrProvinceName"),
  (street, "streetAddress"),
  (organization, "organizationName"),
  (organizationalUnit, "organizationalUnitName"),
  (serialNumber, "serialNumber"),
  ("2.5.4.4", "surname"),
  ("2.5.4.42", "givenName"),
  ("2.5.4.12", "title"),
  ("2.5.4.44", "generationQualifier"),
  (uniqueIdentifier, "x500UniqueIdentifier"),
  (dnQualifier, "dnQualifier"),
  ("2.5.4.65", "pseudonym"),
  (userId, "userID"),
  (domainComponent, "domainComponent"),
  (email, "emailAddress"),
  (jurisdictionCountry, "jurisdictionCountryName"),
  ("1.3.6.1.4.1.311.60.2.1.1", "jurisdictionLocalityName"),
  ("1.3.6.1.4.1.311.60.2.1.2", "jurisdictionStateOrProvinceName"),
  ("2.5.4.15", "businessCategory"),
  ("2.5.4.16", "postalAddress"),
  ("2.5.4.17", "postalCode"),
  ("1.2.643.3.131.1.1", "INN"),
  ("1.2.643.100.1", "OGRN"),
  ("1.2.643.100.3", "SNILS"),
  ("1.2.840.113549.1.9.2", "unstructuredName")]

/-- The display of an identifier, which shows its dotted form and its registered name. -/
def display (oid : String) : String :=
  "<ObjectIdentifier(oid=" ++ oid ++ ", name=" ++
    (registered.lookup oid).getD "Unknown OID" ++ ")>"

/-- The string type that an attribute has unless another one is asked for. -/
def defaultStringType (oid : String) : StringType :=
  if [country, serialNumber, dnQualifier, jurisdictionCountry].contains oid then .printable
  else if [email, domainComponent].contains oid then .ia5
  else .utf8

end Oid

/-! ### Reading names -/

/-- **What keeps an attribute from being read.** Octets have to be text in the string type; the
type has to be a known one; and a string of bits is a unique identifier and nothing else. -/
def Attribute.defect? (a : Attribute) : Option NameDefect :=
  match a.value, a.stringType with
  | .octets _, .bits => if a.oid = Oid.uniqueIdentifier then none else some .mistyped
  | .octets _, _ => some .malformed
  | .text _, type => if StringType.knownTags.contains type.tag then none else some .unlisted

/-! ### Comparison of names -/

/-- The attributes have the same identifier and the same value. -/
def Attribute.agrees (a b : Attribute) : Bool := a.oid == b.oid && a.value = b.value

/-- Each attribute of either relative name agrees with one of the other. -/
def RelativeName.agrees (a b : RelativeName) : Bool :=
  (a.all fun x => b.any x.agrees) && (b.all fun x => a.any x.agrees)

/-- Lists of relative names of one length that agree place by place. -/
def RelativeName.allAgree : List RelativeName → List RelativeName → Bool
  | [], [] => true
  | a :: as, b :: bs => RelativeName.agrees a b && allAgree as bs
  | _, _ => false

namespace Name

/-- **Names match** if they have as many relative names and these agree in order. -/
def agrees (a b : Name) : Bool := RelativeName.allAgree a.relatives b.relatives

/-- A name with a single common name. -/
def ofCommonName (s : String) : Name := ⟨[[⟨Oid.commonName, .text s, .utf8⟩]]⟩

/-- All attributes, in order. -/
def attributes (n : Name) : List Attribute := n.relatives.flatten

/-- The first defect among the attributes. -/
def defect? (n : Name) : Option NameDefect := n.attributes.findSome? Attribute.defect?

/-- Every attribute can be read. -/
def isLegible (n : Name) : Bool := n.defect?.isNone

/-- **The value of the first attribute whose identifier's display contains `field`.** -/
def find? (n : Name) (field : String) : Option AttributeValue :=
  (n.attributes.find? fun a => Text.hasRun field.toList (Oid.display a.oid).toList).map (·.value)

/-- The value of the first common name. -/
def commonName? (n : Name) : Option AttributeValue := n.find? "commonName"

end Name
end PeerTrust
