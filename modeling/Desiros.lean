import Desiros.Library.Runs
import Desiros.Library.Words
import Desiros.Library.History
import Desiros.Library.Bytes
import Desiros.Library.RefCount
import Desiros.Mem.Arena
import Desiros.Mem.ArenaMap
import Desiros.Mem.Uvmm
import Desiros.Mem.Resources
import Desiros.Mem.ResourceRefs
import Desiros.Mem.ResourceRuns
import Desiros.Mem.Unmap
import Desiros.Mem.FreeInterval
import Desiros.Mem.Map
import Desiros.Mem.Resize
import Desiros.Mem.UvmmRuns
import Desiros.Mem.MapRefines
import Desiros.Mem.MapAtHint
import Desiros.Mem.PageFault
import Desiros.Mem.Physmem
import Desiros.Mem.PhysmemRuns
import Desiros.Mem.PageDirectory
import Desiros.Mem.Paging
import Desiros.Mem.Slab
import Desiros.Mem.SlabCache
import Desiros.Mem.SlabSystem
import Desiros.Mem.SlabInvariant
import Desiros.Mem.SlabGrow
import Desiros.Mem.SlabAlloc
import Desiros.Mem.SlabRuns
import Desiros.Mem.Kvmm
import Desiros.Mem.KvmmLists
import Desiros.Mem.KvmmInvariant
import Desiros.Mem.KvmmDel
import Desiros.Mem.KvmmNew
import Desiros.Mem.KvmmRuns
import Desiros.Drivers.Zero
import Desiros.Drivers.AnonymousMemory
import Desiros.Drivers.AnonymousRuns
import Desiros.Block.BlockDev
import Desiros.Syscall.FileDescriptors
import Desiros.Proc.ProcessTable
import Desiros.Proc.Schedule
import Desiros.Proc.WaitQueue
import Desiros.Proc.Blocked
import Desiros.Proc.Mutex
import Desiros.Proc.Semaphore
import Desiros.Fs.Ext2
import Desiros.Fs.Lookup
import Desiros.Fs.Vfs
import Desiros.Fs.Mount
import Desiros.Exec.Elf32
import Desiros.Exec.ElfBounds
import Desiros.Exec.ElfImage
import Desiros.Fs.Unlink
import Desiros.Fs.BlockBitmap
import Desiros.Fs.InodeSlot
import Desiros.Fs.FileIo
import Desiros.Fs.KernelMemory
import Desiros.Mem.Kmalloc
import Desiros.Mem.KmallocInvariant
import Desiros.Mem.KmallocSlabs
import Desiros.Library.Related
import Desiros.Mem.KmallocRuns
import Desiros.Mem.KmallocSetup
import Desiros.Mem.HeapOwners
import Desiros.Mem.UnmapRefines
import Desiros.Syscall.DescriptorBounds
import Desiros.Block.Registry
import Desiros.Block.PartDetect
import Desiros.Block.PartGeometry
import Desiros.Block.DeviceNames
import Desiros.Fs.PathResolution
import Desiros.Mem.UserHeap
import Desiros.Mem.Statistics
import Desiros.Fs.Directory
import Desiros.Fs.MakeDir
import Desiros.Fs.RemoveEntry
import Desiros.Fs.Rename
import Desiros.Mem.BrkRuns
import Desiros.Mem.MapUndo
import Desiros.Library.TableCount
import Desiros.Mem.PagingRuns
import Desiros.Mem.PageTables
import Desiros.Mem.Resident
import Desiros.Drivers.ZeroResident
import Desiros.Mem.ArenaCache
import Desiros.Mem.ArenaRuns
import Desiros.Mem.KvmmPages
import Desiros.Mem.KvmmLookup
import Desiros.Library.Nesting
import Desiros.Mem.HeapRecursion
import Desiros.Mem.SlabFree
import Desiros.Mem.SlabGeometry
import Desiros.Library.CircularList
import Desiros.Mem.CacheList
import Desiros.Mem.KvmmDelPages
import Desiros.Fs.BlockMapping
import Desiros.Fs.RemoveRight
import Desiros.Fs.AddRight
import Desiros.Fs.ScanEnds
import Desiros.Fs.Truncate
import Desiros.Mem.KvmmRules
import Desiros.Mem.LentPages
import Desiros.Mem.KvmmAttempt
import Desiros.Mem.KvmmFails
import Desiros.Mem.KvmmMemory
import Desiros.Mem.KvmmHolders
import Desiros.Mem.PagingInit
import Desiros.Mem.AddressSpaces
import Desiros.Drivers.Ide
import Desiros.Drivers.IdeIo
import Desiros.Block.BlockRead
import Desiros.Block.BlockErrors
import Desiros.Fs.InodeStore
import Desiros.Fs.FileRead
import Desiros.Fs.FileRuns
import Desiros.Fs.ListDir
import Desiros.Fs.Setattr
import Desiros.Fs.Attributes
import Desiros.Fs.Mknod
import Desiros.Fs.OpenCreat
import Desiros.Exec.PageIn
import Desiros.Library.CyclicOrder
import Desiros.Proc.RoundRobin
import Desiros.Proc.WakeupEnds
import Desiros.Proc.Exit
import Desiros.Exec.FillStack
import Desiros.Library.Ledger
import Desiros.Syscall.KernelCopies
import Desiros.Drivers.Clock
import Desiros.Klibc.Printf
import Desiros.Klibc.PrintfFormats
import Desiros.Klibc.PrintfReads
import Desiros.Drivers.Console
import Desiros.Klibc.Memmove
import Desiros.Library.RingSplice
import Desiros.Lists.Links
import Desiros.Lists.Sequences
import Desiros.Klibc.Vsnprintf
import Desiros.Klibc.VsnprintfText
import Desiros.Klibc.VsnprintfTruncates
import Desiros.Klibc.Formatters
import Desiros.Block.PartNames
import Desiros.Library.WordStack
import Desiros.Library.CStrings
import Desiros.Proc.Cpu
import Desiros.Proc.ContextSwitch
import Desiros.Klibc.Strings
import Desiros.Syscall.SystemCalls
import Desiros.Syscall.Requests
