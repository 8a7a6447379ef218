import SchedAudit.Main
import SchedAudit.CommandLine.Checking
import SchedAudit.Simulator.Recorded
import SchedAudit.Simulator.Scripted
import SchedAudit.Json.Printer
import SchedAudit.Proofs.Audit.Flags
import SchedAudit.Proofs.Audit.Membership
import SchedAudit.Proofs.Audit.Rate
import SchedAudit.Proofs.Audit.Separation
import SchedAudit.Proofs.Audit.Heads
import SchedAudit.Proofs.Audit.Deadlines
import SchedAudit.Proofs.Audit.Locality
import SchedAudit.Proofs.Audit.Watermark
import SchedAudit.Proofs.Audit.Attribution
import SchedAudit.Proofs.Audit.LifeCycle
import SchedAudit.Proofs.Audit.Observation
import SchedAudit.Proofs.Audit.Succession
import SchedAudit.Proofs.Audit.Diagnoses
import SchedAudit.Proofs.Audit.Frequencies
import SchedAudit.Proofs.Audit.Precedence
import SchedAudit.Proofs.Audit.Samples
import SchedAudit.Proofs.Audit.Batches
import SchedAudit.Proofs.Audit.Recency
import SchedAudit.Proofs.Audit.NotNumbers
import SchedAudit.Proofs.Tolerance.Matching
import SchedAudit.Proofs.Formula.Cores
import SchedAudit.Proofs.Batch.Assembly
import SchedAudit.Proofs.Simulator.Replay
import SchedAudit.Proofs.CommandLine.Printed
import SchedAudit.Proofs.CommandLine.Verdict
import SchedAudit.Proofs.Json.Spelling
import SchedAudit.Proofs.Json.Writing
import SchedAudit.Proofs.Trace.Decoding
import SchedAudit.Proofs.Discovery.Partition
import SchedAudit.Proofs.Discovery.Order
import SchedAudit.Proofs.Platform.Loading
import SchedAudit.Proofs.Settings.Overlay
import SchedAudit.Proofs.Summary.Handcrafted
import SchedAudit.Proofs.Summary.Generated
import SchedAudit.Proofs.Summary.Labels
import SchedAudit.Proofs.Schedule.Processors
import SchedAudit.Proofs.Summary.Failures
import SchedAudit.Proofs.Text.Decoding
import SchedAudit.Proofs.Simulator.Faults
