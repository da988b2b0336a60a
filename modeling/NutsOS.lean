import NutsOS.Lib.Prog
import NutsOS.Lib.Successor
import NutsOS.Heap.Runs
import NutsOS.Fat16.Chain
import NutsOS.Kernel.State
import NutsOS.Kernel.Boot
import NutsOS.Paging.Refinement
import NutsOS.Task.Runs
import NutsOS.Isr80h.Print
import NutsOS.File.File
import NutsOS.File.Parsing
import NutsOS.Fat16.Walk
import NutsOS.File.Open
import NutsOS.Fat16.Frame
import NutsOS.Kernel.Growth
import NutsOS.Fat16.RootFile
import NutsOS.File.Table
import NutsOS.Gdt.Encoding
import NutsOS.Gdt.Tss
import NutsOS.Lib.Ram
import NutsOS.Lib.X86
import NutsOS.Task.Return
import NutsOS.Idt.Syscall
import NutsOS.File.RoundTrip
import NutsOS.Fat16.Entries
import NutsOS.Fat16.Search
import NutsOS.Fat16.Loads
import NutsOS.Fat16.Shared
import NutsOS.File.Interference
import NutsOS.File.Sequence
import NutsOS.File.Independence
import NutsOS.File.Leak
import NutsOS.Fat16.Watched
import NutsOS.Fat16.Ledger
import NutsOS.Fat16.Restore
import NutsOS.Heap.Marks
import NutsOS.Heap.Requests
import NutsOS.Fat16.Release
import NutsOS.Heap.Sweep
import NutsOS.Paging.Recycled
import NutsOS.Fat16.Classes
import NutsOS.Fat16.Resolve
import NutsOS.Fat16.Mount
import NutsOS.Fat16.Volume
import NutsOS.Fat16.Positions
import NutsOS.Fat16.Accept
import NutsOS.Fat16.Division
import NutsOS.Fat16.Checks
import NutsOS.Fat16.Members
import NutsOS.File.Members
import NutsOS.Fat16.Subdirectory
import NutsOS.Fat16.Tree
import NutsOS.Lib.Realizes
import NutsOS.Fat16.Resolution
import NutsOS.Fat16.Parent
import NutsOS.Process.Load
import NutsOS.Fat16.Output
import NutsOS.Fat16.Counts
import NutsOS.Fat16.Names
import NutsOS.Fat16.Lookup
import NutsOS.Fat16.Quarantine
import NutsOS.Fat16.Stops
import NutsOS.Fat16.Failure
import NutsOS.Fat16.Residue
import NutsOS.Fat16.Tally
import NutsOS.Fat16.Overrun
import NutsOS.Fat16.Fragments
import NutsOS.Process.Rollback
import NutsOS.File.Resolved
import NutsOS.Process.Loading
import NutsOS.Process.Window
import NutsOS.Process.Program
import NutsOS.File.Seek
import NutsOS.File.Descriptors
import NutsOS.File.PathFree
import NutsOS.Task.Schedule
import NutsOS.Terminal.Printf
import NutsOS.Stdutil.Sprintf
import NutsOS.Process.Filename
import NutsOS.Fat16.Composition
import NutsOS.Lib.ThreeWay
import NutsOS.Stdutil.Order
import NutsOS.Stdutil.Scan
import NutsOS.Disk.Ports
import NutsOS.Boot.Loader
import NutsOS.Isr80h.Calls
import NutsOS.Isr80h.Overrun
import NutsOS.Idt.Table
import NutsOS.Idt.Stubs
import NutsOS.File.Filesystems
import NutsOS.File.Located
import NutsOS.Process.Isolation
import NutsOS.Heap.Extents
import NutsOS.Kernel.Sizes
import NutsOS.File.Steps
import NutsOS.Kernel.Main
