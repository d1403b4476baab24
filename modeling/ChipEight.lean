import ChipEight.Instruction.Decode
import ChipEight.Host.Tone
import ChipEight.Main
import ChipEight.Proofs.Machine.History
import ChipEight.Proofs.Machine.WellFormed
import ChipEight.Proofs.Machine.CallStack
import ChipEight.Proofs.Machine.WaitEquivalence
import ChipEight.Proofs.Machine.Stopping
import ChipEight.Proofs.Machine.RunLoop
import ChipEight.Proofs.Desk.Frame
import ChipEight.Proofs.Machine.PowerCycle
import ChipEight.Proofs.Machine.Interleaving
import ChipEight.Proofs.Text.Numeral
import ChipEight.Proofs.Text.Hexadecimal
import ChipEight.Proofs.Instruction.Line
import ChipEight.Proofs.Machine.Footprint
import ChipEight.Proofs.Machine.RunCount
import ChipEight.Proofs.Machine.RandomStream
import ChipEight.Proofs.Machine.Flip
import ChipEight.Proofs.Machine.Sprite
import ChipEight.Proofs.Desk.Pacing
import ChipEight.Proofs.Desk.Controls
import ChipEight.Proofs.Machine.ByteArithmetic
import ChipEight.Proofs.Machine.DrawInstruction
import ChipEight.Proofs.Machine.BlockTransfer
import ChipEight.Proofs.Instruction.Encoding
import ChipEight.Proofs.Machine.DecimalDigits
import ChipEight.Proofs.Machine.Memory
import ChipEight.Proofs.Machine.StoppedInstruction
import ChipEight.Proofs.Desk.Edits
import ChipEight.Proofs.Desk.KeyHistory
import ChipEight.Proofs.Desk.Picture
import ChipEight.Proofs.Host.SquareWave
