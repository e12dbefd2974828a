import Nachos.Lib.Runs
import Nachos.Lib.Blocks
import Nachos.Lib.Codec
import Nachos.Lib.Gate
import Nachos.Lib.Sorted
import Nachos.Lib.Ring
import Nachos.Machine.Translate
import Nachos.Machine.TranslateLaws
import Nachos.Machine.Linear
import Nachos.Machine.Mult
import Nachos.Machine.Instruction
import Nachos.Machine.Mipssim
import Nachos.Machine.Restart
import Nachos.Machine.Isa
import Nachos.Machine.IsaLaws
import Nachos.Machine.UserBytes
import Nachos.Machine.Interrupt
import Nachos.Machine.InterruptLaws
import Nachos.Machine.Ties
import Nachos.Userprog.BitMap
import Nachos.Userprog.BitMapLaws
import Nachos.Userprog.Executable
import Nachos.Userprog.AddrSpace
import Nachos.Userprog.AddrSpaceLaws
import Nachos.Userprog.Family
import Nachos.Userprog.Steps
import Nachos.Userprog.Liveness
import Nachos.Userprog.Sharing
import Nachos.Userprog.Frames
import Nachos.Userprog.Loading
import Nachos.Userprog.Transfers
import Nachos.Userprog.Copying
import Nachos.Vm.Map
import Nachos.Vm.Kernel
import Nachos.Vm.Views
import Nachos.Vm.SecondChance
import Nachos.Vm.Faults
import Nachos.Vm.Steps
import Nachos.Vm.Sound
import Nachos.Vm.Ownership
import Nachos.Vm.Coherence
import Nachos.Vm.Destruction
import Nachos.Vm.Bounds
import Nachos.Vm.Flat
import Nachos.Vm.Refinement
import Nachos.Vm.Swap
import Nachos.Vm.Sharing
import Nachos.Vm.Loading
import Nachos.Vm.Replacement
import Nachos.Vm.MapArrays
import Nachos.Vm.WriteBack
import Nachos.Vm.VictimTable
import Nachos.Vm.Exchange
import Nachos.Vm.Copying
import Nachos.Threads.Kernel
import Nachos.Threads.Scheduling
import Nachos.Threads.Events
import Nachos.Threads.Gates
import Nachos.Threads.Semaphores
import Nachos.Threads.Locks
import Nachos.Threads.Owners
import Nachos.Threads.Conditions
import Nachos.Threads.Broadcasting
import Nachos.Threads.Joining
import Nachos.Threads.Monitor
import Nachos.Threads.SynchList
import Nachos.Threads.Delivery
import Nachos.Threads.Private
import Nachos.Threads.Barriers
import Nachos.Threads.Levels
import Nachos.Threads.LevelsLaws
import Nachos.Threads.Routines
import Nachos.Threads.Exclusion
import Nachos.Threads.Serial
import Nachos.Threads.DiningPh
import Nachos.Threads.DiningPhLaws
import Nachos.Syscall.ControlTable
import Nachos.Syscall.HandleMap
import Nachos.Syscall.Handlers
import Nachos.Syscall.Effects
import Nachos.Syscall.Descriptors
import Nachos.Syscall.Closing
import Nachos.Syscall.FullTables
import Nachos.Syscall.Destroying
import Nachos.Syscall.Handles
import Nachos.Syscall.Resources
import Nachos.Syscall.Registry
import Nachos.Syscall.Accounting
import Nachos.Syscall.Strings
import Nachos.Filesys.OpenFile
import Nachos.Filesys.Directory
import Nachos.Filesys.FileSystem
import Nachos.Filesys.OpenFileLaws
import Nachos.Filesys.Allocation
import Nachos.Filesys.DirectoryLaws
import Nachos.Filesys.Storage
import Nachos.Filesys.Chunks
import Nachos.Filesys.Consistency
import Nachos.Filesys.Sound
import Nachos.Filesys.SizeLimit
import Nachos.Filesys.SynchDisk
import Nachos.Filesys.SynchDiskLaws
import Nachos.Babuinos.Monitor
import Nachos.Babuinos.Accounting
import Nachos.Babuinos.Crossing
import Nachos.PapaCaliente.Collatz
import Nachos.PapaCaliente.CollatzLaws
import Nachos.PapaCaliente.Juego
import Nachos.PapaCaliente.PThreads
import Nachos.PapaCaliente.PThreadsLaws
import Nachos.PapaCaliente.ShM
import Nachos.PapaCaliente.ShMLaws
import Nachos.PapaCaliente.SameGame
import Nachos.PapaCaliente.MailBox
import Nachos.PapaCaliente.MailBoxLaws
import Nachos.Threads.Supply
import Nachos.Network.PostOffice
import Nachos.Network.PostOfficeLaws
import Nachos.Network.Packets
import Nachos.Network.Delivery
import Nachos.Network.Asserts
import Nachos.Filesys.Session
import Nachos.Filesys.Shelf
import Nachos.Filesys.Refinement
import Nachos.Filesys.SessionLaws
import Nachos.Filesys.Fstest
import Nachos.Lib.Chains
import Nachos.Threads.LinkedList
import Nachos.Threads.LinkedListLaws
import Nachos.Threads.ListQueues
import Nachos.Userprog.Console
import Nachos.Userprog.ConsoleLaws
import Nachos.Network.Lossless
import Nachos.Lib.Processors
import Nachos.Lib.X86
import Nachos.Threads.Switch
import Nachos.Threads.SwitchLaws
import Nachos.Threads.Contexts
import Nachos.Filesys.DiskTiming
import Nachos.Filesys.DiskTimingLaws
import Nachos.Userprog.UserContexts
import Nachos.Userprog.UserContextsLaws
