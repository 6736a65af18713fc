import KaworuOS.AddressSpace
import KaworuOS.Base
import KaworuOS.Bitmap
import KaworuOS.Block
import KaworuOS.Completion
import KaworuOS.Console
import KaworuOS.DebugLog
import KaworuOS.Elf
import KaworuOS.FdTable
import KaworuOS.Fdt
import KaworuOS.Freelist
import KaworuOS.Input
import KaworuOS.IntrusiveList
import KaworuOS.KernelSpace
import KaworuOS.Kheap
import KaworuOS.Lib.BigEndian
import KaworuOS.Lib.BitField
import KaworuOS.Lib.BitMem
import KaworuOS.Lib.Buffers
import KaworuOS.Lib.ByteMem
import KaworuOS.Lib.Call
import KaworuOS.Lib.Chain
import KaworuOS.Lib.DList
import KaworuOS.Lib.Guarded
import KaworuOS.Lib.Outcome
import KaworuOS.Lib.Pieces
import KaworuOS.Lib.Run
import KaworuOS.Lib.Saturate
import KaworuOS.Lib.Slots
import KaworuOS.Paging
import KaworuOS.Pmm
import KaworuOS.Printf
import KaworuOS.Process
import KaworuOS.ProcessLife
import KaworuOS.ProcessTree
import KaworuOS.Proofs.Bitmap
import KaworuOS.Proofs.BitmapFit
import KaworuOS.Proofs.Block
import KaworuOS.Proofs.BlockCount
import KaworuOS.Proofs.BlockErrors
import KaworuOS.Proofs.BlockRange
import KaworuOS.Proofs.CleanupRun
import KaworuOS.Proofs.CompletionRun
import KaworuOS.Proofs.Console
import KaworuOS.Proofs.ConsoleRoom
import KaworuOS.Proofs.DebugLog
import KaworuOS.Proofs.ElfFits
import KaworuOS.Proofs.ElfImage
import KaworuOS.Proofs.ElfPages
import KaworuOS.Proofs.ElfPanics
import KaworuOS.Proofs.ElfReads
import KaworuOS.Proofs.FdTable
import KaworuOS.Proofs.FdTableCreate
import KaworuOS.Proofs.FdTableReserve
import KaworuOS.Proofs.FdTableRun
import KaworuOS.Proofs.FdTableShare
import KaworuOS.Proofs.FdtBounds
import KaworuOS.Proofs.FrameRule
import KaworuOS.Proofs.FreelistLimits
import KaworuOS.Proofs.FreelistRep
import KaworuOS.Proofs.FreelistRun
import KaworuOS.Proofs.FreelistSteps
import KaworuOS.Proofs.HeapView
import KaworuOS.Proofs.Input
import KaworuOS.Proofs.InputRun
import KaworuOS.Proofs.IntrusiveList
import KaworuOS.Proofs.IntrusiveListRun
import KaworuOS.Proofs.KernelBoot
import KaworuOS.Proofs.KernelBytes
import KaworuOS.Proofs.KernelPrivate
import KaworuOS.Proofs.KernelProtection
import KaworuOS.Proofs.KernelReturns
import KaworuOS.Proofs.KernelSpace
import KaworuOS.Proofs.KernelSpaceRun
import KaworuOS.Proofs.KheapBuffers
import KaworuOS.Proofs.KheapCap
import KaworuOS.Proofs.KheapGrow
import KaworuOS.Proofs.KheapRun
import KaworuOS.Proofs.KheapTotal
import KaworuOS.Proofs.LifeSched
import KaworuOS.Proofs.Memmove
import KaworuOS.Proofs.Numerals
import KaworuOS.Proofs.PageRegion
import KaworuOS.Proofs.PagingDestroy
import KaworuOS.Proofs.PagingDestroyLeaves
import KaworuOS.Proofs.PagingExhaust
import KaworuOS.Proofs.PagingMap
import KaworuOS.Proofs.PagingRefines
import KaworuOS.Proofs.PagingTree
import KaworuOS.Proofs.PagingWalk
import KaworuOS.Proofs.Pmm
import KaworuOS.Proofs.PmmRun
import KaworuOS.Proofs.PrintInt
import KaworuOS.Proofs.Printf
import KaworuOS.Proofs.PrintfBounds
import KaworuOS.Proofs.ProcessLife
import KaworuOS.Proofs.ProcessTree
import KaworuOS.Proofs.ReapFamily
import KaworuOS.Proofs.ReapLog
import KaworuOS.Proofs.ReapRun
import KaworuOS.Proofs.Refcount
import KaworuOS.Proofs.Region
import KaworuOS.Proofs.RegionCopy
import KaworuOS.Proofs.RegionFresh
import KaworuOS.Proofs.RingBuffer
import KaworuOS.Proofs.RoundRobin
import KaworuOS.Proofs.SchedulerInv
import KaworuOS.Proofs.SchedulerPlaces
import KaworuOS.Proofs.SchedulerSteps
import KaworuOS.Proofs.SleepOrder
import KaworuOS.Proofs.Smp
import KaworuOS.Proofs.SpaceClash
import KaworuOS.Proofs.SpaceCopy
import KaworuOS.Proofs.SpaceExhaust
import KaworuOS.Proofs.SpaceFamily
import KaworuOS.Proofs.SpaceFork
import KaworuOS.Proofs.SpaceFrames
import KaworuOS.Proofs.SpaceIsolation
import KaworuOS.Proofs.SpaceLife
import KaworuOS.Proofs.Spawning
import KaworuOS.Proofs.SpawningRefines
import KaworuOS.Proofs.SpinlockIrq
import KaworuOS.Proofs.SpinlockSmp
import KaworuOS.Proofs.Strchr
import KaworuOS.Proofs.Strtoul
import KaworuOS.Proofs.StrtoulPrint
import KaworuOS.Proofs.SyncRun
import KaworuOS.Proofs.SyncSafety
import KaworuOS.Proofs.SysIo
import KaworuOS.Proofs.SysWrite
import KaworuOS.Proofs.SysWriteRun
import KaworuOS.Proofs.TimedSleep
import KaworuOS.Proofs.Uaccess
import KaworuOS.Proofs.UaccessString
import KaworuOS.Proofs.UserTable
import KaworuOS.Proofs.VirtioBlk
import KaworuOS.Proofs.VirtioBlkTasks
import KaworuOS.Proofs.VirtioInit
import KaworuOS.Proofs.VmAtomic
import KaworuOS.Proofs.VmCoverage
import KaworuOS.Proofs.VmInv
import KaworuOS.Proofs.VmmRun
import KaworuOS.Proofs.Wait4Children
import KaworuOS.Proofs.Wait4Run
import KaworuOS.Refcount
import KaworuOS.Region
import KaworuOS.RingBuffer
import KaworuOS.Scheduler
import KaworuOS.Smp
import KaworuOS.Spawning
import KaworuOS.Spinlock
import KaworuOS.SpinlockSmp
import KaworuOS.Strings
import KaworuOS.Strtoul
import KaworuOS.Sync
import KaworuOS.SysIo
import KaworuOS.TimedSleep
import KaworuOS.Uaccess
import KaworuOS.UserTable
import KaworuOS.Virtio
import KaworuOS.VirtioBlk
import KaworuOS.Vmm
import KaworuOS.Wait4
