import AccessControl.Entry.Basic
import AccessControl.AccessList.Mode
import AccessControl.Names
import AccessControl.Wire
import AccessControl.Text.Quoted
import AccessControl.Listing.Spec
import AccessControl.Listing.ListFlags
import AccessControl.Json.Record
import AccessControl.Document.Encode
import AccessControl.Document.Decode
import AccessControl.Store.Payload
import AccessControl.Diagnostics.Capture
import AccessControl.Proofs.AccessList.Evaluation
import AccessControl.Proofs.Listing.RoundTrip
import AccessControl.Proofs.Wire.Acceptance
import AccessControl.Proofs.AccessList.Generations
import AccessControl.Proofs.Store.Operations
import AccessControl.Proofs.Store.Run
import AccessControl.Proofs.Store.Copy
import AccessControl.Proofs.Document.Elements
import AccessControl.Proofs.Document.Reports
import AccessControl.Proofs.Listing.Reading
import AccessControl.Proofs.Listing.Tokens
import AccessControl.Proofs.Document.Reading
import AccessControl.Proofs.KindSwitch
import AccessControl.Proofs.AccessList.Run
import AccessControl.Proofs.Document.RoundTrip
import AccessControl.Proofs.Json.RoundTrip
import AccessControl.Proofs.AccessList.Folding
import AccessControl.Proofs.AccessList.Trivial
import AccessControl.Proofs.Store.Write
import AccessControl.Proofs.AccessList.PlainList
import AccessControl.Proofs.Qualifier
import AccessControl.Proofs.AccessList.Heir
import AccessControl.Proofs.AccessList.Extension
import AccessControl.Proofs.Listing.Grammar
import AccessControl.Proofs.Listing.Comments
import AccessControl.Proofs.Document.Sets
import AccessControl.Proofs.Document.Blame
import AccessControl.Proofs.Listing.Composition
import AccessControl.Proofs.Listing.Edits
import AccessControl.Proofs.Store.Triviality
import AccessControl.Proofs.Diagnostics.Tokens
import AccessControl.Proofs.Diagnostics.Directives
import AccessControl.Proofs.Store.History
import AccessControl.Proofs.AccessList.Journal
import AccessControl.Proofs.Entry.Projection
import AccessControl.Proofs.ByteOrder
import AccessControl.Proofs.Names.Additions
import AccessControl.Proofs.Listing.ListFlags
