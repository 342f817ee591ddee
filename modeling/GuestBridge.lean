import GuestBridge.Bench.Setup
import GuestBridge.Page.Run
import GuestBridge.Proofs.Bench.Completions
import GuestBridge.Proofs.Bench.Count
import GuestBridge.Proofs.Bench.Deferral
import GuestBridge.Proofs.Bench.LoopRun
import GuestBridge.Proofs.Bench.Natives
import GuestBridge.Proofs.Bench.Others
import GuestBridge.Proofs.Bench.Pumps
import GuestBridge.Proofs.Bench.Regions
import GuestBridge.Proofs.Bench.Selection
import GuestBridge.Proofs.Bench.Shutdown
import GuestBridge.Proofs.Bench.Unresolved
import GuestBridge.Proofs.Capability.Creation
import GuestBridge.Proofs.Capability.Deletion
import GuestBridge.Proofs.Capability.Introspection
import GuestBridge.Proofs.Capability.Random
import GuestBridge.Proofs.Capability.Series
import GuestBridge.Proofs.Capability.Trace
import GuestBridge.Proofs.Capability.Uploads
import GuestBridge.Proofs.Fetch.Url
import GuestBridge.Proofs.Guest.Wire
import GuestBridge.Proofs.Handle.Log
import GuestBridge.Proofs.Memory.Arrays
import GuestBridge.Proofs.Page.Boundary
import GuestBridge.Proofs.Page.Contract
import GuestBridge.Proofs.Page.Failure
import GuestBridge.Proofs.Page.Integers
import GuestBridge.Proofs.Page.Rhythms
import GuestBridge.Proofs.Platform.RoundTrip
import GuestBridge.Proofs.Platform.Texts
import GuestBridge.Proofs.Token.Run
