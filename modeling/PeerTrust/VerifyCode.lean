/-
  `VerifyCode` — the numbers by which TLS libraries name verification errors.

  A trust error carries such a number where one fits, and its message then ends
  with the number's explanation. Only the numbers of the table have one.
-/
namespace PeerTrust.VerifyCode

def signatureFailure : Int := 7
def notYetValid : Int := 9
def hasExpired : Int := 10
def selfSignedLeaf : Int := 18
def issuerNotFound : Int := 20
def untrusted : Int := 27
def subjectIssuerMismatch : Int := 29
def hostnameMismatch : Int := 62

/-- The numbers with an explanation. -/
def explanations : List (Int × String) := [
  (signatureFailure,
    "certificate signature failure, the signature of the certificate is invalid."),
  (notYetValid,
    "certificate is not yet valid, the certificate is not yet valid: " ++
      "the notBefore date is after the current time."),
  (hasExpired,
    "certificate has expired, the certificate has expired: " ++
      "that is the notAfter date is before the current time."),
  (selfSignedLeaf,
    "self signed certificate, the passed certificate is self signed and " ++
      "the same certificate cannot be found in the list of trusted certificates"),
  (issuerNotFound,
    "unable to get local issuer certificate, the issuer certificate could not be found: " ++
      "this occurs if the issuer certificate of an untrusted certificate cannot be found."),
  (untrusted,
    "certificate not trusted, the root CA is not marked as trusted for the specified purpose."),
  (subjectIssuerMismatch,
    "subject issuer mismatch, the current candidate issuer certificate was rejected " ++
      "because its subject name did not match the issuer name of the current certificate."),
  (hostnameMismatch,
    "hostname mismatch, the certificate identity does not match " ++
      "the host name the client connected to.")]

/-- The explanation of a number. -/
def explanation? (code : Int) : Option String := explanations.lookup code

end PeerTrust.VerifyCode
