import PatternGuard.Listing
import PatternGuard.Proofs.Annotation
import PatternGuard.Proofs.Checked.Process
import PatternGuard.Proofs.ClassFile.RoundTrip
import PatternGuard.Proofs.ClassFile.SelfDelimiting
import PatternGuard.Proofs.Code.Body
import PatternGuard.Proofs.Code.Disassembly
import PatternGuard.Proofs.Code.FrameOffsets
import PatternGuard.Proofs.Code.FramePlaces
import PatternGuard.Proofs.Code.FrameTable
import PatternGuard.Proofs.Containment
import PatternGuard.Proofs.Descriptor
import PatternGuard.Proofs.Guard.Frames
import PatternGuard.Proofs.Guard.InsertedFlow
import PatternGuard.Proofs.Guard.Patterns
import PatternGuard.Proofs.Guard.Precedence
import PatternGuard.Proofs.Guard.Ranges
import PatternGuard.Proofs.Guard.Untouched
import PatternGuard.Proofs.Pool.Demand
import PatternGuard.Proofs.Pool.Texts
import PatternGuard.Settings.Json
import PatternGuard.Proofs.Code.OperandStack
import PatternGuard.Proofs.Guard.StackRoom
import PatternGuard.Proofs.Guard.Emission
import PatternGuard.Proofs.Guard.Rearrangement
import PatternGuard.Proofs.Guard.Writing
import PatternGuard.Proofs.Settings
import PatternGuard.Proofs.Checked.Listing
import PatternGuard.Proofs.Listing
