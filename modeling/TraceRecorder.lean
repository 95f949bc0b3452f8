import TraceRecorder.Epoch.Calls
import TraceRecorder.Epoch.Handshake
import TraceRecorder.Main
import TraceRecorder.Pool.ArenaCalls
import TraceRecorder.Pool.Bindings
import TraceRecorder.Pool.BufferCalls
import TraceRecorder.Pool.Slab
import TraceRecorder.Pool.SlotTable
import TraceRecorder.Recorder.Run
import TraceRecorder.Storage.ChunkHolders
import TraceRecorder.TypeRegistry
import TraceRecorder.Workload.Contention
import TraceRecorder.Proofs.Chunk.Pieces
import TraceRecorder.Proofs.Chunk.Grammar
import TraceRecorder.Proofs.Chunk.Segments
import TraceRecorder.Proofs.Chunk.Readers
import TraceRecorder.Proofs.Chunk.Offsets
import TraceRecorder.Proofs.Chunk.RoundTrip
import TraceRecorder.Proofs.Chunk.Constants
import TraceRecorder.Proofs.Chunk.Yields
import TraceRecorder.Proofs.Chunk.Resolution
import TraceRecorder.Proofs.Chunk.Totals
import TraceRecorder.Proofs.Chunk.Fields
import TraceRecorder.Proofs.Chunk.Threads
import TraceRecorder.Proofs.Chunk.Values
import TraceRecorder.Proofs.Chunk.Identities
import TraceRecorder.Proofs.Epoch.Calls
import TraceRecorder.Proofs.Epoch.Handshake
import TraceRecorder.Proofs.Inspection
import TraceRecorder.Proofs.Json.Grammar
import TraceRecorder.Proofs.OptionsFile
import TraceRecorder.Proofs.OrderedDict
import TraceRecorder.Proofs.Outcome
import TraceRecorder.Proofs.Tables
import TraceRecorder.Proofs.TypeRegistry
import TraceRecorder.Proofs.Pool.Accounts
import TraceRecorder.Proofs.Pool.Custody
import TraceRecorder.Proofs.Pool.Misuse
import TraceRecorder.Proofs.Pool.Acquisition
import TraceRecorder.Proofs.Pool.Slots
import TraceRecorder.Proofs.Pool.SlotTable
import TraceRecorder.Proofs.Pool.Bindings
import TraceRecorder.Proofs.Pool.Contents
import TraceRecorder.Proofs.Recorder.Custody
import TraceRecorder.Proofs.Recorder.Leases
import TraceRecorder.Proofs.Recorder.Writers
import TraceRecorder.Proofs.Recorder.Emissions
import TraceRecorder.Proofs.Recorder.Deliveries
import TraceRecorder.Proofs.Recorder.Drains
import TraceRecorder.Proofs.Recorder.Rotations
import TraceRecorder.Proofs.Recorder.Untouched
import TraceRecorder.Proofs.Recorder.Aborts
import TraceRecorder.Proofs.Recorder.Drops
import TraceRecorder.Proofs.Recorder.Lanes
import TraceRecorder.Proofs.Recorder.Order
import TraceRecorder.Proofs.Recorder.Completion
import TraceRecorder.Proofs.Recorder.Ledger
import TraceRecorder.Proofs.Recorder.Passes
import TraceRecorder.Proofs.Recorder.Recitals
import TraceRecorder.Proofs.Recorder.Seals
import TraceRecorder.Proofs.Recorder.Fillings
import TraceRecorder.Proofs.Recorder.Losses
import TraceRecorder.Proofs.Recorder.Renewals
import TraceRecorder.Proofs.Recorder.Partition
import TraceRecorder.Proofs.Run.Steps
import TraceRecorder.Proofs.Run.Quiet
import TraceRecorder.Proofs.Run.Conservation
import TraceRecorder.Proofs.Run.Counters
import TraceRecorder.Proofs.Run.Ownership
import TraceRecorder.Proofs.Run.Generations
import TraceRecorder.Proofs.Run.Delivery
import TraceRecorder.Proofs.Run.Interlude
import TraceRecorder.Proofs.Run.Dropping
import TraceRecorder.Proofs.Run.Violation
import TraceRecorder.Proofs.Run.Framing
import TraceRecorder.Proofs.Run.Receipts
import TraceRecorder.Proofs.Run.Rotation
import TraceRecorder.Proofs.Run.Renewal
import TraceRecorder.Proofs.Run.Crew
import TraceRecorder.Proofs.Run.Chronicle
import TraceRecorder.Proofs.Run.Intake
import TraceRecorder.Proofs.Run.ReadBack
import TraceRecorder.Proofs.Run.Threads
import TraceRecorder.Proofs.Run.TypeSets
import TraceRecorder.Proofs.Run.Losses
import TraceRecorder.Proofs.Run.Identities
import TraceRecorder.Proofs.Storage.Directory
import TraceRecorder.Proofs.Storage.Places
import TraceRecorder.Proofs.Storage.Holders
import TraceRecorder.Proofs.Storage.Exclusion
import TraceRecorder.Proofs.Workload.Worker
import TraceRecorder.Proofs.Workload.Recording
