import Delegation.Exposure.Expansion
import Delegation.Handler
import Delegation.Inspect
import Delegation.Proofs.Relay
import Delegation.Proofs.Hierarchy
import Delegation.Proxy.Registry
import Delegation.Proofs.Scope
import Delegation.Proofs.Registry
import Delegation.Proofs.Resolution
import Delegation.Proofs.Stage
import Delegation.Proofs.Forwarding
import Delegation.Proofs.Renaming
import Delegation.Proofs.Synchrony
import Delegation.Proofs.Ancestry
import Delegation.Proofs.Lineage
import Delegation.Proofs.Nearest
import Delegation.Proofs.Tenancy
import Delegation.Proofs.Sharing
import Delegation.Proofs.Takeover
import Delegation.Proofs.Refusal
import Delegation.Proofs.Convention
import Delegation.Proofs.Account
import Delegation.Proofs.Republishing
import Delegation.Proofs.Tables
import Delegation.Proofs.Dispatch
import Delegation.Proofs.WellFormed
import Delegation.Proofs.Attaching
import Delegation.Proofs.Members
import Delegation.Proofs.Visiting
import Delegation.Proofs.Foreign
import Delegation.Proofs.Realm
import Delegation.Proofs.Redirection
import Delegation.Proofs.Slots
import Delegation.Proofs.Reporting
import Delegation.Proofs.Spelling
import Delegation.Proofs.Substitution
import Delegation.Proofs.Alignment
import Delegation.Proofs.Declaring
import Delegation.Proofs.Repetition
import Delegation.Proofs.Conversion
import Delegation.Proofs.Display
import Delegation.Proofs.Recording
import Delegation.Proofs.Captured
import Delegation.Proofs.Messages
import Delegation.Proofs.Exposable
import Delegation.Proofs.Stripping
import Delegation.Proofs.Handover
import Delegation.Proofs.Results
