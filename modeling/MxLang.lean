import MxLang.Main
import MxLang.Pipeline
import MxLang.Proofs.Namespace
import MxLang.Proofs.Preservation
import MxLang.Proofs.Refinement
import MxLang.Proofs.Resume
import MxLang.Proofs.Session
import MxLang.Proofs.Transport
import MxLang.Proofs.Frame
import MxLang.Proofs.SourceFault
import MxLang.Proofs.ZoneFault
import MxLang.Proofs.PipelineEnd
import MxLang.Proofs.Halt
import MxLang.Proofs.LabelUse
import MxLang.Proofs.LogicalLines
import MxLang.Proofs.Keyword
import MxLang.Proofs.Operands
import MxLang.Proofs.EndlessTape
import MxLang.Proofs.Selection
import MxLang.Proofs.Comment
import MxLang.Proofs.Spelling
import MxLang.Proofs.Trail
import MxLang.Proofs.Output
import MxLang.Proofs.StraightLine
import MxLang.Proofs.FaultPlace
import MxLang.Proofs.Acceptance
import MxLang.Proofs.HostCodec
import MxLang.Proofs.ZoneFront
import MxLang.Proofs.ReadInput
import MxLang.Proofs.Renaming
import MxLang.Proofs.ZoneBytes
import MxLang.Proofs.Grouping
import MxLang.Proofs.Pointer
import MxLang.Proofs.InstructionSplit
import MxLang.Proofs.Division
import MxLang.Proofs.Literal
import MxLang.Proofs.Delivery
