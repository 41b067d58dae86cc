import Interhart.HartSet.Shared
import Interhart.Machine.Command
import Interhart.Proofs.Ipi.Availability
import Interhart.Proofs.Ipi.Delivery
import Interhart.Proofs.Ipi.FanOut
import Interhart.Proofs.Ipi.Wakeup
import Interhart.Proofs.Contract
import Interhart.Proofs.Ipi.Accounts
import Interhart.Proofs.Domain.Pieces
import Interhart.Proofs.Domain.Growth
import Interhart.Proofs.Domain.Coverage
import Interhart.Proofs.Domain.Overhang
import Interhart.Proofs.Machine.Logging
import Interhart.Proofs.Machine.Protecting
import Interhart.Proofs.Machine.Binding
import Interhart.Proofs.Machine.Refusal
import Interhart.Proofs.Machine.DriverTable
import Interhart.Proofs.Mtimer.Copies
import Interhart.Proofs.Machine.Enrolling
import Interhart.Proofs.Machine.Isolation
import Interhart.Proofs.Machine.Exactness
import Interhart.Proofs.Ipi.Invariance
import Interhart.Proofs.Machine.Attendance
import Interhart.Proofs.Machine.Accesses
import Interhart.Proofs.Machine.AlignedOnce
import Interhart.Proofs.InStep
import Interhart.Proofs.Machine.Widths
import Interhart.Proofs.Machine.Timekeeping
import Interhart.Proofs.Machine.Frequency
import Interhart.Proofs.Machine.Commissioning
import Interhart.Proofs.Machine.BoardTimers
import Interhart.Proofs.Machine.Changes
import Interhart.Proofs.Machine.WriteOnce
import Interhart.Proofs.HartSet.Members
import Interhart.Proofs.Registers.Halves
import Interhart.Proofs.Registers.Running
import Interhart.Proofs.Machine.Accuracy
import Interhart.Proofs.Mswi.Ownership
import Interhart.Proofs.Mtimer.Frames
import Interhart.Proofs.Machine.Confinement
import Interhart.Proofs.Machine.Faults
import Interhart.Proofs.Ipi.BringUp
import Interhart.Proofs.Domain.Smallest
import Interhart.Proofs.HartTable.Publishing
import Interhart.Proofs.Ipi.Meanwhile
import Interhart.Proofs.Delay.Readings
import Interhart.Proofs.Delay.Elapsed
import Interhart.Proofs.Registers.Live
import Interhart.Proofs.Delay.Liveness
import Interhart.Proofs.Machine.Staffing
import Interhart.Proofs.Machine.Delays
import Interhart.Proofs.Domain.Repeated
import Interhart.Proofs.HartSet.Decoding
import Interhart.Proofs.Text.Words
import Interhart.Proofs.Log.Timestamps
import Interhart.Proofs.BootArguments.LastSetting
