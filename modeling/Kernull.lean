import Kernull.Library.LabelledRun
import Kernull.Library.ByteMemory
import Kernull.Library.GuardedMemory
import Kernull.Library.StoreTrace
import Kernull.Library.Position
import Kernull.Library.Registers
import Kernull.Library.Numeral
import Kernull.Library.LinkedList
import Kernull.Library.BlockArena
import Kernull.Library.RadixTree
import Kernull.Library.RadixTreeInsertion
import Kernull.Library.RingQueue
import Kernull.Library.Transducer
import Kernull.Library.ScrollingScreen
import Kernull.MmConstants
import Kernull.AbstractHeap
import Kernull.Kmalloc
import Kernull.KmallocRefinement
import Kernull.SplitBlock
import Kernull.HeapExtents
import Kernull.FirstFit
import Kernull.KfreeConservation
import Kernull.HeapRuns
import Kernull.FreeListOrder
import Kernull.HeapCoverage
import Kernull.HeapExclusion
import Kernull.Pml
import Kernull.PageAlloc
import Kernull.FrameBitmap
import Kernull.FrameSearch
import Kernull.PageRelease
import Kernull.FrameExclusivity
import Kernull.AllocationOrder
import Kernull.PageTables
import Kernull.PageWalkers
import Kernull.MapAddr
import Kernull.MapTranslate
import Kernull.MapFrame
import Kernull.MapPermissions
import Kernull.MmuInit
import Kernull.BootMemory
import Kernull.HeapBacking
import Kernull.HeapExhaustion
import Kernull.InitialAddressSpace
import Kernull.ImageMapping
import Kernull.MetadataWindow
import Kernull.MemoryCounters
import Kernull.InputCodes
import Kernull.Ps2Decoder
import Kernull.Ps2DecoderBounds
import Kernull.Ps2SpecialKeys
import Kernull.Ps2CommandQueue
import Kernull.Ps2CommandRuns
import Kernull.Ps2QueueContents
import Kernull.Ps2Acknowledgement
import Kernull.Ps2ScanSetQuery
import Kernull.Ps2Interleaving
import Kernull.VgaPrint
import Kernull.VgaTerminal
import Kernull.VgaAttributes
import Kernull.VgaBounds
import Kernull.Itoa
import Kernull.Printk
import Kernull.Multiboot2Parser
import Kernull.MultibootTags
import Kernull.MultibootSafety
import Kernull.KernelString
import Kernull.StringReading
import Kernull.StringComparison
import Kernull.CharacterSearch
import Kernull.SubstringSearch
import Kernull.StringAppend
import Kernull.Ps2Controller
import Kernull.BootPageTables
import Kernull.BootVga
import Kernull.BootMessages
import Kernull.Library.WordStack
import Kernull.Library.InterruptController
import Kernull.IdtGates
import Kernull.DescriptorTables
import Kernull.InterruptEntry
import Kernull.Pic
import Kernull.InterruptDispatch
import Kernull.KernelInterrupts
import Kernull.ConsoleOutput
import Kernull.TypedText
import Kernull.BootStack
import Kernull.BootStart
import Kernull.Library.ReplicatingCopy
import Kernull.MemoryFunctions
import Kernull.StringCopy
import Kernull.Library.PortIo
import Kernull.Ps2Init
import Kernull.Ps2Hardware
import Kernull.Library.PrefixCode
import Kernull.PageFault
import Kernull.Pit
