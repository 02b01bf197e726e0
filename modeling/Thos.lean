import Thos.Data.Transition
import Thos.Common.BuildInfo
import Thos.Kernel.Outcome
import Thos.Data.RadixForest
import Thos.VirtualMemory.Layout
import Thos.VirtualMemory.PageTable
import Thos.VirtualMemory.Forest
import Thos.VirtualMemory.Allocation
import Thos.VirtualMemory.Mapping
import Thos.VirtualMemory.Refinement
import Thos.VirtualMemory.MapSection
import Thos.VirtualMemory.UserTable
import Thos.Kernel.SpinLock
import Thos.Data.Numeral
import Thos.Data.MachineInteger
import Thos.Libc.Stdlib
import Thos.Libc.Parse
import Thos.Libc.Stdio
import Thos.Libc.Emission
import Thos.Libc.Conversion
import Thos.Libc.Arithmetic
import Thos.Libc.Padding
import Thos.Libc.Format
import Thos.Libc.Directive
import Thos.Libc.Printf
import Thos.Libc.Numerals
import Thos.Libc.Snprintf
import Thos.Libc.Pieces
import Thos.Libc.Reading
import Thos.Libc.RoundTrip
import Thos.Data.LinkedList
import Thos.Kernel.List
import Thos.Common.Endian
import Thos.Device.DeviceTree
import Thos.Device.FlattenedTree
import Thos.Device.Loading
import Thos.Device.Storage
import Thos.Device.Capacity
import Thos.Device.Blob
import Thos.Data.Ownership
import Thos.Scheduling.Frame
import Thos.Scheduling.Machine
import Thos.Data.Trace
import Thos.Scheduling.History
import Thos.Scheduling.Discipline
import Thos.Scheduling.Invariant
import Thos.Scheduling.Steps
import Thos.VirtualMemory.Calls
import Thos.Data.RadixEnumeration
import Thos.VirtualMemory.Enumeration
import Thos.VirtualMemory.Arithmetic
import Thos.VirtualMemory.Shape
import Thos.VirtualMemory.KernelTable
import Thos.VirtualMemory.TrapPath
import Thos.Kernel.Buffer
import Thos.Kernel.Console
import Thos.VirtualMemory.PageRace
import Thos.Kernel.Hart
import Thos.Kernel.LockDepth
import Thos.Scheduling.Masking
import Thos.Scheduling.Creating
import Thos.Scheduling.Switching
import Thos.Scheduling.Trapping
import Thos.Scheduling.Exclusion
import Thos.Scheduling.Preemption
import Thos.Scheduling.Return
import Thos.Scheduling.Output
import Thos.Scheduling.Containment
import Thos.Scheduling.Creators
import Thos.Scheduling.Deadlock
import Thos.Scheduling.UserEntry
import Thos.Kernel.Timer
import Thos.Kernel.Boot
import Thos.Scheduling.TrapEntry
import Thos.Data.Cyclic
import Thos.Scheduling.RoundRobin
import Thos.Libc.String
import Thos.Libc.Comparison
import Thos.Libc.Length
import Thos.Kernel.Io
import Thos.Device.Grammar
import Thos.Device.Nops
import Thos.Data.LabelledForest
import Thos.Device.Lookup
import Thos.Common.Bits
import Thos.Scheduling.KernelMain
import Thos.Scheduling.Startup
import Thos.Device.Plic
import Thos.Device.Uart
import Thos.Device.Receive
import Thos.Device.Bootargs
import Thos.Data.BitField
import Thos.VirtualMemory.Words
import Thos.VirtualMemory.Mmu
import Thos.VirtualMemory.MapCalls
import Thos.VirtualMemory.Activation
import Thos.VirtualMemory.UserSpace
import Thos.Data.RadixCount
import Thos.VirtualMemory.Accounting
import Thos.Data.Lines
import Thos.Device.Dump
import Thos.Data.SuffixCode
import Thos.Device.Description
import Thos.Device.Print
