import TextureMemory.Alignment
import TextureMemory.Context.Action
import TextureMemory.Context.Basic
import TextureMemory.Demo
import TextureMemory.Fault
import TextureMemory.Json.Error
import TextureMemory.Json.Number
import TextureMemory.Json.Record
import TextureMemory.Json.Skip
import TextureMemory.Json.Token
import TextureMemory.Main
import TextureMemory.Memory.Address
import TextureMemory.Memory.Buffer
import TextureMemory.Memory.Extent
import TextureMemory.Memory.Heap
import TextureMemory.Memory.Pool
import TextureMemory.Metrics.Duration
import TextureMemory.Metrics.Event
import TextureMemory.Metrics.FrameTimer
import TextureMemory.Metrics.Recorder
import TextureMemory.Metrics.Tally
import TextureMemory.Metrics.Window
import TextureMemory.Proofs.Arena
import TextureMemory.Proofs.Arena.Generations
import TextureMemory.Proofs.Arena.Layout
import TextureMemory.Proofs.Arena.Run
import TextureMemory.Proofs.Arena.Slots
import TextureMemory.Proofs.Context.Accounts
import TextureMemory.Proofs.Context.AllocationFailures
import TextureMemory.Proofs.Context.Bindings
import TextureMemory.Proofs.Context.Bounds
import TextureMemory.Proofs.Context.Contents
import TextureMemory.Proofs.Context.Elapsed
import TextureMemory.Proofs.Context.Failure
import TextureMemory.Proofs.Context.History
import TextureMemory.Proofs.Context.Image
import TextureMemory.Proofs.Context.Interference
import TextureMemory.Proofs.Context.Invariant
import TextureMemory.Proofs.Context.Isolation
import TextureMemory.Proofs.Context.Measuring
import TextureMemory.Proofs.Context.Outcomes
import TextureMemory.Proofs.Context.Ownership
import TextureMemory.Proofs.Context.PurgeWindow
import TextureMemory.Proofs.Context.Reachable
import TextureMemory.Proofs.Context.Run
import TextureMemory.Proofs.Context.Stability
import TextureMemory.Proofs.Context.Stats
import TextureMemory.Proofs.Context.Step
import TextureMemory.Proofs.Context.Stranded
import TextureMemory.Proofs.Context.Tallies
import TextureMemory.Proofs.Context.Valid
import TextureMemory.Proofs.Duration
import TextureMemory.Proofs.Fault
import TextureMemory.Proofs.Heap.Accounts
import TextureMemory.Proofs.Heap.Bytes
import TextureMemory.Proofs.Heap.Calls
import TextureMemory.Proofs.Heap.Ranges
import TextureMemory.Proofs.Heap.Requests
import TextureMemory.Proofs.Heap.Run
import TextureMemory.Proofs.Heap.Valid
import TextureMemory.Proofs.Json.Exact
import TextureMemory.Proofs.Json.Forms
import TextureMemory.Proofs.Json.Grammar
import TextureMemory.Proofs.Json.Number
import TextureMemory.Proofs.Json.Record
import TextureMemory.Proofs.Json.Skip
import TextureMemory.Proofs.Json.Strings
import TextureMemory.Proofs.Metrics
import TextureMemory.Proofs.Scene.Costs
import TextureMemory.Proofs.Scene.Frame
import TextureMemory.Proofs.Scene.Picture
import TextureMemory.Proofs.Scene.Play
import TextureMemory.Proofs.Scene.Progress
import TextureMemory.Proofs.Scene.Rows
import TextureMemory.Proofs.Scene.Schedule
import TextureMemory.Proofs.Scene.Session
import TextureMemory.Proofs.Scene.Start
import TextureMemory.Proofs.Scene.Strokes
import TextureMemory.Proofs.Scene.Teardown
import TextureMemory.Proofs.Scene.Upload
import TextureMemory.Proofs.Settings.Choices
import TextureMemory.Proofs.Settings.Reading
import TextureMemory.Proofs.Settings.Refusals
import TextureMemory.Proofs.Settings.RoundTrip
import TextureMemory.Proofs.Settings.Values
import TextureMemory.Proofs.Surface
import TextureMemory.Proofs.Surface.Rounding
import TextureMemory.Proofs.Surface.Size
import TextureMemory.Proofs.Tally
import TextureMemory.Proofs.Trace
import TextureMemory.Proofs.Window
import TextureMemory.Proofs.Window.Samples
import TextureMemory.Purge
import TextureMemory.Scene
import TextureMemory.Settings.Basic
import TextureMemory.Settings.Error
import TextureMemory.Settings.Text
import TextureMemory.Surface.Format
import TextureMemory.Surface.Size
import TextureMemory.Text.Decimal
import TextureMemory.Text.Printable
import TextureMemory.Text.Quoted
import TextureMemory.Texture.Arena
import TextureMemory.Texture.Basic
import TextureMemory.Texture.Error
import TextureMemory.Texture.Slot
import TextureMemory.Texture.Stamp
import TextureMemory.Texture.Units
import TextureMemory.Word
