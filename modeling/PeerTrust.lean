import PeerTrust.Certificate.Summary
import PeerTrust.Check.Single
import PeerTrust.Clock
import PeerTrust.Encoding.Sha256
import PeerTrust.Failure.Fields
import PeerTrust.Session
import PeerTrust.Session.Diagnosis
import PeerTrust.Value.Decoded
import PeerTrust.Proofs.Text.Search
import PeerTrust.Proofs.Name
import PeerTrust.Proofs.Armor
import PeerTrust.Proofs.Armor.Bundle
import PeerTrust.Proofs.Presentation
import PeerTrust.Proofs.Chain
import PeerTrust.Proofs.Check
import PeerTrust.Proofs.Check.Links
import PeerTrust.Proofs.Expiry
import PeerTrust.Proofs.Check.Windows
import PeerTrust.Proofs.Evaluator.Request
import PeerTrust.Proofs.Evaluator.Decision
import PeerTrust.Proofs.Evaluator.Provision
import PeerTrust.Proofs.Evaluator.FailClosed
import PeerTrust.Proofs.Identity
import PeerTrust.Proofs.Identity.Precedence
import PeerTrust.Proofs.Identity.Coverage
import PeerTrust.Proofs.Identity.Extensions
import PeerTrust.Proofs.Evaluator.Totality
import PeerTrust.Proofs.Store
import PeerTrust.Proofs.Evaluator.Fallback
import PeerTrust.Proofs.Trace
import PeerTrust.Proofs.Audit
import PeerTrust.Proofs.Evaluator.Audit
import PeerTrust.Proofs.Evaluator.LoneCertificate
import PeerTrust.Proofs.Evaluator.Monotone
import PeerTrust.Proofs.Session.Step
import PeerTrust.Proofs.Session.History
import PeerTrust.Proofs.Evaluator.Record
import PeerTrust.Proofs.Session.Handshake
import PeerTrust.Proofs.Session.Diagnosis
import PeerTrust.Proofs.Configuration.Defaults
import PeerTrust.Proofs.Configuration.Merge
import PeerTrust.Proofs.Configuration.Precedence
import PeerTrust.Proofs.Evaluator.Consistency
import PeerTrust.Proofs.RootSet
import PeerTrust.Proofs.Store.Bundle
import PeerTrust.Proofs.Calendar
import PeerTrust.Proofs.Instant
import PeerTrust.Proofs.Clock
import PeerTrust.Proofs.Expiry.Days
