import Unseal.Envelope.Field
import Unseal.Files.Tree
import Unseal.Main
import Unseal.Replay
import Unseal.Proofs.Chain.Fault
import Unseal.Proofs.Record.Agreement
import Unseal.Proofs.Wrapping.Tree
import Unseal.Proofs.Instant
import Unseal.Proofs.Record.Restoring
import Unseal.Proofs.Replay
import Unseal.Proofs.Schema.Agreement
import Unseal.Proofs.Schema.Filter
import Unseal.Proofs.Chain.Batch
import Unseal.Proofs.Schema.Sharing
import Unseal.Proofs.Schema.Denial
import Unseal.Proofs.Dispatch
import Unseal.Proofs.Rendering
import Unseal.Proofs.Schema.Visiting
import Unseal.Proofs.Input
import Unseal.Proofs.StreamData
import Unseal.Proofs.Chain.Fused
import Unseal.Proofs.Schema.InPlace
import Unseal.Proofs.Envelope.Place
import Unseal.Proofs.Envelope.Fields
import Unseal.Proofs.Envelope.Records
import Unseal.Proofs.Options
import Unseal.Proofs.Envelope.Names
import Unseal.Proofs.Envelope.Refusal
import Unseal.Proofs.Chain.Message
import Unseal.Proofs.Envelope.Declared
import Unseal.Proofs.Envelope.Documented
