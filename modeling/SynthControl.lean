import SynthControl.Main
import SynthControl.Proofs.Worker
import SynthControl.Proofs.Signed
import SynthControl.Proofs.Bracketing
import SynthControl.Proofs.Crowd
import SynthControl.Proofs.Matching
import SynthControl.Proofs.Ensemble
import SynthControl.Proofs.Orderly
import SynthControl.Proofs.Agreement
import SynthControl.Proofs.Succession
import SynthControl.Proofs.Conversations
import SynthControl.Proofs.Overwriting
import SynthControl.Proofs.MidiQueue
import SynthControl.Proofs.Completions
import SynthControl.Proofs.OneShot
import SynthControl.Proofs.Levels
import SynthControl.Proofs.Streaming
import SynthControl.Proofs.OutputPath
import SynthControl.Proofs.Outstanding
import SynthControl.Proofs.Monitoring
import SynthControl.Proofs.Chronicle
import SynthControl.Proofs.WellFormed
import SynthControl.Proofs.Coherence
import SynthControl.Proofs.Handover
import SynthControl.Proofs.Indifference
import SynthControl.Proofs.Pausing
import SynthControl.Proofs.Renewal
import SynthControl.Proofs.Misdirected
import SynthControl.Proofs.Guarding
import SynthControl.Proofs.Listening
import SynthControl.Proofs.BlockShape
import SynthControl.Proofs.Options
import SynthControl.Proofs.Refusals
import SynthControl.Proofs.Adjustments
import SynthControl.Proofs.Dispatching
import SynthControl.Proofs.Chunks
import SynthControl.Proofs.Rendering
import SynthControl.Proofs.Cycling
import SynthControl.Proofs.Lending
import SynthControl.Proofs.Feeding
import SynthControl.Proofs.Starting
import SynthControl.Proofs.Filing
import SynthControl.Proofs.Rounding
import SynthControl.Proofs.Shortest
import SynthControl.Proofs.Printing
import SynthControl.Proofs.Sections
import SynthControl.Proofs.Settings
import SynthControl.Proofs.Storing
import SynthControl.Proofs.Saving
import SynthControl.Proofs.Scores
import SynthControl.Proofs.Declining
import SynthControl.Proofs.Addressing
import SynthControl.Proofs.Durations
import SynthControl.Proofs.Undisturbed
import SynthControl.Proofs.Unending
import SynthControl.Proofs.Unheeded
import SynthControl.Proofs.Waiting
import SynthControl.Proofs.Roles
import SynthControl.Proofs.Tags
import SynthControl.Proofs.Intake
