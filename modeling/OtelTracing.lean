import OtelTracing.Proofs.ShapeProofs
import OtelTracing.Proofs.ProtoProofs
import OtelTracing.Lib.Slots
import OtelTracing.Otlp
import OtelTracing.Export
import OtelTracing.Proofs.OtlpProofs
import OtelTracing.Proofs.BatchProofs
import OtelTracing.Proofs.SizeProofs
import OtelTracing.Lib.Machine
import OtelTracing.Tracer
import OtelTracing.Lib.Outcome
import OtelTracing.Lifecycle
import OtelTracing.Proofs.TracerProofs
import OtelTracing.Proofs.PassProofs
import OtelTracing.Proofs.AvoidProofs
import OtelTracing.Proofs.RegistryProofs
import OtelTracing.Proofs.AccountProofs
import OtelTracing.Lib.Txn
import OtelTracing.Sqlite
import OtelTracing.Proofs.SqliteProofs
import OtelTracing.Proofs.RetentionProofs
import OtelTracing.Proofs.PruneProofs
import OtelTracing.Proofs.RowProofs
import OtelTracing.Proofs.ResidueProofs
import OtelTracing.Proofs.DropProofs
import OtelTracing.Proofs.AttachProofs
import OtelTracing.Forest
import OtelTracing.Proofs.ForestProofs
import OtelTracing.Threads
import OtelTracing.Lib.Spsc
import OtelTracing.Proofs.LockProofs
import OtelTracing.Detach
import OtelTracing.Delivery
import OtelTracing.Proofs.DetachProofs
import OtelTracing.Proofs.OwnProofs
import OtelTracing.Proofs.RingProofs
import OtelTracing.Proofs.LedgerProofs
import OtelTracing.Proofs.SinkProofs
import OtelTracing.Proofs.DeliverProofs
import OtelTracing.Lib.Lehmer
import OtelTracing.Proofs.RandomProofs
import OtelTracing.Capacity
import OtelTracing.Proofs.CapacityProofs
import OtelTracing.Ids
import OtelTracing.Proofs.IdsProofs
import OtelTracing.Lib.Preorder
import OtelTracing.Show
import OtelTracing.Proofs.ShowProofs
import OtelTracing.Lib.Limit
import OtelTracing.Query
import OtelTracing.Proofs.QueryProofs
import OtelTracing.TraceList
import OtelTracing.Proofs.TraceListProofs
import OtelTracing.PrintAttrs
import OtelTracing.Proofs.PrintAttrsProofs
import OtelTracing.Alloc
import OtelTracing.Proofs.AllocProofs
import OtelTracing.Exporting
import OtelTracing.Proofs.ExportingProofs
import OtelTracing.Proofs.InPlaceProofs
import OtelTracing.Journal
import OtelTracing.Proofs.BracketProofs
import OtelTracing.Proofs.JournalProofs
import OtelTracing.Proofs.DurableProofs
import OtelTracing.Proofs.MirrorProofs
import OtelTracing.Proofs.ReturnProofs
import OtelTracing.Proofs.SamplingProofs
import OtelTracing.Serial
import OtelTracing.Proofs.SerialProofs
import OtelTracing.ShowText
import OtelTracing.Proofs.ShowTextProofs
import OtelTracing.Cli
import OtelTracing.Proofs.CliProofs
import OtelTracing.Proofs.CommitProofs
import OtelTracing.Proofs.EmitProofs
import OtelTracing.Proofs.EncodeProofs
