/-
  `Identity` — the identity that a peer claims, and the hosts that it covers.

  The first XMPP address among the alternative names counts; without one the
  common name of the subject; without that the whole subject. An identity covers
  the host of the same name. Behind the marker `*.` it covers every host that
  ends with the rest of it, which is a plain comparison of suffixes and not one
  of labels.
-/
import PeerTrust.Journal

namespace PeerTrust

/-! ### What a certificate says about its holder -/

/-- The value of the first attribute whose identifier's display contains the text that
a caller passes. A name without attributes is not searched. -/
def Name.findValue? (n : Name) : Value → Except Failure (Option AttributeValue)
  | .str field => .ok (n.find? field)
  | .armor _ _ => .ok none
  | _ => if n.attributes.isEmpty then .ok none else .error .misuse

namespace Certificate

/-- The alternative names, none if they are absent. Malformed extensions, of whatever kind, are
reported and all names ignored; a repeated extension and unsupported names are failures. -/
def altNameList (c : Certificate) : Traced (List GeneralName) :=
  match c.readAltNames with
  | .error (.repeated oid) => .fail (.duplicateExtension oid)
  | .error (.defective .malformed) => do
    .report .altNamesIgnored
    return []
  | .error (.defective .unsupportedName) => .fail .unsupportedName
  | .ok names => return names.getD []

/-- The addresses among alternative names; an element that holds none is
reported and skipped. -/
def collectAddresses : List GeneralName → Traced (List String)
  | [] => return []
  | .other oid element :: rest =>
    if oid = Oid.xmppAddress then
      match xmppAddressOf? element with
      | some address => do
        let addresses ← collectAddresses rest
        return address :: addresses
      | none => do
        .report .xmppAddressIgnored
        collectAddresses rest
    else collectAddresses rest
  | _ :: rest => collectAddresses rest

/-- **The XMPP addresses of the holder,** in the order of the certificate. -/
def xmppAddresses (c : Certificate) : Traced (List String) := do
  collectAddresses (← c.altNameList)

/-- **The host names of the holder,** in the order of code points. -/
def hostNames (c : Certificate) : Traced (List String) := do
  return dnsNames (← c.altNameList)

/-- The first common name of the subject; octets have to be UTF-8. -/
def commonName? (c : Certificate) : Except Failure (Option String) := do
  let subject ← c.subject.read
  match subject.commonName? with
  | none => .ok none
  | some (.text s) => .ok (some s)
  | some (.octets o) =>
    match Text.ofUtf8? o with
    | some s => .ok (some s)
    | none => .error .octetsNotText

end Certificate

/-! ### The claimed identity -/

namespace Identity

/-- The text after a leading run of characters, or the whole text. -/
def dropLeading (lead text : List Char) : List Char := (Text.afterRun? lead text).getD text

/-- The subject as an identity, without the name of a leading common name. -/
def ofSubject (subject : String) : String :=
  String.ofList (dropLeading "CN=".toList subject.toList)

/-- **The identity** that addresses, a common name and a subject amount to. -/
def choose (addresses : List String) (commonName : Option String) (subject : String) : String :=
  match addresses with
  | address :: _ => address
  | [] =>
    match commonName with
    | some name => name
    | none => ofSubject subject

end Identity

/-- **The identity that the holder of a certificate claims.** The subject is read only if
there is no address. -/
def Certificate.peerIdentity (c : Certificate) : Traced String := do
  let addresses ← c.xmppAddresses
  if addresses.isEmpty then
    let name ← .ofExcept c.commonName?
    return Identity.choose [] name c.subject.render
  else return Identity.choose addresses none c.subject.render

/-! ### Hosts that an identity covers -/

namespace Identity

/-- What an identity that covers more than one host starts with. -/
def wildcardMark : String := "*."

/-- **The identity covers the host.** -/
def covers (identity host : String) : Bool :=
  match Text.afterRun? wildcardMark.toList identity.toList with
  | some suffix => suffix.isSuffixOf host.toList
  | none => host == identity

/-! ### Identities and hosts of any class -/

/-- Asking a value how it starts or ends: no answer comes from octets, which start
with octets only, and the question makes no sense for all others. -/
def notAText : Value → Failure
  | .bytes _ => .misuse
  | _ => .noSuchAttribute

/-- **The identity covers the host,** where both are what a caller passes. -/
def coversValue (identity host : Value) : Except Failure Bool :=
  match identity, host with
  | .str identity, .str host => .ok (covers identity host)
  | .str identity, host =>
    if (Text.afterRun? wildcardMark.toList identity.toList).isSome then .error (notAText host)
    else .ok false
  | .armor lead c, .armor lead' c' => .ok (lead == lead' && c == c')
  | .armor _ _, _ => .ok false
  | v, _ => .error (notAText v)

/-- The first of the addresses that a caller passes. -/
def firstAddress : Value → Except Failure Value
  | .dict entries => (Value.lookup (.int 0) entries).elim (.error .noSuchKey) .ok
  | .list (v :: _) | .tuple (v :: _) => .ok v
  | .str s =>
    match Value.characters s with
    | v :: _ => .ok v
    | [] => .error .misuse
  | .bytes (.octet o :: _) => .ok (.int o.toNat)
  | _ => .error .misuse

/-- **The identity** that addresses, a common name and a subject amount to, where all
are what a caller passes. Each is looked at only if those before it are absent. -/
def chooseValue (addresses commonName subject : Value) : Except Failure Value :=
  if addresses.isTruthy then firstAddress addresses
  else
    match commonName, subject with
    | .null, .str subject => .ok (.str (ofSubject subject))
    | .null, .armor lead c => .ok (.armor lead c)
    | .null, subject => .error (notAText subject)
    | name, _ => .ok name

end Identity
end PeerTrust
