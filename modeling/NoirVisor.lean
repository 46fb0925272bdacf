import NoirVisor.Npt.Protect
import NoirVisor.Npt.Refine
import NoirVisor.Rmt.Ownership
import NoirVisor.Rmt.Lookup
import NoirVisor.Custom.Lookup
import NoirVisor.Npt.Aside
import NoirVisor.Cvm.SvmCleanRuns
import NoirVisor.Cvm.SvmCr4
import NoirVisor.Cvm.WorldSwitch
import NoirVisor.Tlb.VpidPool
import NoirVisor.Nested.Faithful
import NoirVisor.Nested.Hidden
import NoirVisor.Nested.Gif
import NoirVisor.Hypercall.Vt
import NoirVisor.Cvm.VtResidency
import NoirVisor.Tlb.GuestTlb
import NoirVisor.Cvm.SvmClaim
import NoirVisor.Cvm.References
import NoirVisor.Tlb.AsidPool
import NoirVisor.Custom.Lockers
import NoirVisor.Cvm.CpuidQuickpath
import NoirVisor.Cvm.SvmMsr
import NoirVisor.Cvm.Rescission
import NoirVisor.Cvm.SvmInterrupts
import NoirVisor.Cvm.SvmNmi
import NoirVisor.Cvm.SvmOptionRuns
import NoirVisor.Cvm.SvmOptionState
import NoirVisor.Cvm.SvmOptions
import NoirVisor.Cvm.Operands
import NoirVisor.Cvm.Exclusion
import NoirVisor.Cvm.VtEvents
import NoirVisor.Cvm.VtControl
import NoirVisor.Cvm.VtXsetbv
import NoirVisor.Custom.LifecycleRuns
import NoirVisor.Custom.Vcpus
import NoirVisor.Custom.Lifetime
import NoirVisor.Cvm.SvmMsrpm
import NoirVisor.Host.Npiep
import NoirVisor.Host.HypercallPage
import NoirVisor.Host.DescriptorTables
import NoirVisor.Host.AvlTree
import NoirVisor.Host.CodeIntegrity
import NoirVisor.Host.Sipi
import NoirVisor.NestedVmx.Store
import NoirVisor.NestedVmx.Instructions
import NoirVisor.Ept.Run
import NoirVisor.Hooks.Ept
import NoirVisor.Hooks.Partition
import NoirVisor.Radix.Trail
import NoirVisor.Custom.Walkers
import NoirVisor.Radix.Place
import NoirVisor.Custom.Accessing
import NoirVisor.Transfer
import NoirVisor.VirtualMemory.Entries
import NoirVisor.VirtualMemory.Chunks
import NoirVisor.VirtualMemory.Host
import NoirVisor.VirtualMemory.GuestWalk
import NoirVisor.VirtualMemory.GuestCopy
import NoirVisor.Radix.Content
import NoirVisor.Iommu.Run
import NoirVisor.Io.Dispatch
import NoirVisor.Io.MmioAccess
import NoirVisor.Emulator.NextRip
import NoirVisor.Emulator.AbsoluteAddress
import NoirVisor.Emulator.VtMmio
import NoirVisor.Host.MsrRuns
import NoirVisor.Npt.Failures
import NoirVisor.Windows.Exports
import NoirVisor.Uefi.Configuration
import NoirVisor.Host.PageCrc
import NoirVisor.Iommu.InvalQueue
import NoirVisor.Host.VtMsrs
import NoirVisor.Host.VtCrAccess
import NoirVisor.Cvm.HaxRun
import NoirVisor.Iommu.Discovery
import NoirVisor.Hooks.Construct
import NoirVisor.Cvm.PageCrypto
import NoirVisor.Host.Vendors
import NoirVisor.Host.CiScan
import NoirVisor.Host.FindBit
import NoirVisor.Uefi.Format
import NoirVisor.Uefi.MemoryMap
import NoirVisor.Ept.SetupMap
import NoirVisor.Custom.Pinned
