import ChipEight.Main
import ChipEight.Clockwork.Wait
import ChipEight.Machine.Settle
import ChipEight.Proofs.Machine.Faults
import ChipEight.Proofs.Machine.InPlace
import ChipEight.Proofs.Machine.Interpreter
import ChipEight.Proofs.Machine.FaultLatch
import ChipEight.Proofs.Machine.Recording
import ChipEight.Proofs.Machine.JournalHistory
import ChipEight.Proofs.Machine.Noninterference
import ChipEight.Proofs.Machine.KeyWait
import ChipEight.Proofs.Machine.Calls
import ChipEight.Proofs.Pacer.Requests
import ChipEight.Proofs.Pacer.Ticks
import ChipEight.Proofs.Pacer.Budget
import ChipEight.Proofs.Pacer.Skew
import ChipEight.Proofs.Pacer.Slicing
import ChipEight.Proofs.Pacer.Frames
import ChipEight.Proofs.Pacer.Loading
import ChipEight.Proofs.Command.Headless
import ChipEight.Proofs.Pacer.Summaries
import ChipEight.Proofs.Pacer.Failures
import ChipEight.Proofs.Pacer.Reports
import ChipEight.Proofs.Pacer.Seconds
import ChipEight.Proofs.Pacer.Counters
import ChipEight.Proofs.Machine.Restart
import ChipEight.Proofs.Pacer.Restart
import ChipEight.Proofs.Machine.Footprint
import ChipEight.Proofs.Machine.RandomStream
import ChipEight.Proofs.Framebuffer.Sprites
import ChipEight.Proofs.Machine.DisplayHistory
import ChipEight.Proofs.Machine.TimerHistory
import ChipEight.Proofs.Clockwork.Order
import ChipEight.Proofs.Clockwork.Lifecycle
import ChipEight.Proofs.Machine.Assembly
import ChipEight.Proofs.Machine.TrapFree
import ChipEight.Proofs.Machine.Drawing
import ChipEight.Proofs.Machine.Frame
import ChipEight.Proofs.Machine.Control
import ChipEight.Proofs.Machine.Carries
import ChipEight.Proofs.Machine.Transfer
import ChipEight.Proofs.Memory.Law
import ChipEight.Proofs.Keypad.Latch
