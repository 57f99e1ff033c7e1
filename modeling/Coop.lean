import Coop.Bench.Guards
import Coop.Bench.Loans
import Coop.Bench.Lock
import Coop.Bench.Order
import Coop.Bench.Queues
import Coop.Bench.Scheduling
import Coop.Bench.Stationary
import Coop.Bench.Table
import Coop.Bench.Waiting
import Coop.Config
import Coop.Error
import Coop.Fault
import Coop.Interrupt.Guard
import Coop.Interrupt.Line
import Coop.Interrupt.Waits
import Coop.Machine.Basic
import Coop.Memory.Supply
import Coop.Mutex
import Coop.Notice
import Coop.Proofs.Interrupt.Guards
import Coop.Proofs.Machine.Attempts
import Coop.Proofs.Machine.Custody
import Coop.Proofs.Machine.History
import Coop.Proofs.Machine.IdleThread
import Coop.Proofs.Machine.Joining
import Coop.Proofs.Machine.Masking
import Coop.Proofs.Machine.ProgramOrder
import Coop.Proofs.Machine.Reclaiming
import Coop.Proofs.Machine.Sections
import Coop.Proofs.Machine.Timeline
import Coop.Proofs.Machine.Views
import Coop.Proofs.Recency
import Coop.Proofs.Roster.Basic
import Coop.Proofs.Roster.Matching
import Coop.Proofs.Roster.Mirroring
import Coop.Proofs.Roster.Refinement
import Coop.Proofs.Roster.Refusals
import Coop.Proofs.Scheduler.Admissions
import Coop.Proofs.Scheduler.Alarms
import Coop.Proofs.Scheduler.Balance
import Coop.Proofs.Scheduler.Canonical
import Coop.Proofs.Scheduler.Departures
import Coop.Proofs.Scheduler.ExitCodes
import Coop.Proofs.Scheduler.Expectations
import Coop.Proofs.Scheduler.Failures
import Coop.Proofs.Scheduler.FaultFree
import Coop.Proofs.Scheduler.Funds
import Coop.Proofs.Scheduler.Handles
import Coop.Proofs.Scheduler.Interrupts
import Coop.Proofs.Scheduler.Lifetimes
import Coop.Proofs.Scheduler.Lineups
import Coop.Proofs.Scheduler.Masks
import Coop.Proofs.Scheduler.Objections
import Coop.Proofs.Scheduler.Origins
import Coop.Proofs.Scheduler.Overflows
import Coop.Proofs.Scheduler.Partings
import Coop.Proofs.Scheduler.Retirement
import Coop.Proofs.Scheduler.Rounds
import Coop.Proofs.Scheduler.Sequels
import Coop.Proofs.Scheduler.Sites
import Coop.Proofs.Scheduler.Standby
import Coop.Proofs.Scheduler.Statistics
import Coop.Proofs.Scheduler.Takeover
import Coop.Proofs.Scheduler.Turns
import Coop.Proofs.Scheduler.Waking
import Coop.Proofs.Stack.Dealings
import Coop.Proofs.Stack.Stock
import Coop.Proofs.Stack.Thrift
import Coop.Proofs.Thread.Arrangements
import Coop.Proofs.Thread.Capacity
import Coop.Proofs.Thread.Slab
import Coop.Scheduler.Basic
import Coop.Scheduler.Operation
import Coop.Scheduler.Request
import Coop.Scheduler.Work
import Coop.Script.Program
import Coop.Stack.Basic
import Coop.Stack.Pool
import Coop.Stack.SizeClass
import Coop.Thread.Basic
import Coop.Thread.Block
import Coop.Thread.Queue
import Coop.Thread.Table
