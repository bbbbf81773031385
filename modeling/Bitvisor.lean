import Bitvisor.BplusTree.Node
import Bitvisor.BplusTree.Search
import Bitvisor.BplusTree.Add
import Bitvisor.BplusTree.Del
import Bitvisor.BplusTree.Map
import Bitvisor.BplusTree.Shape
import Bitvisor.Mmio.Registry
import Bitvisor.Mmio.CallHandler
import Bitvisor.Mm.Mempool
import Bitvisor.Mm.Page
import Bitvisor.Mm.PageInv
import Bitvisor.Mm.PageFree
import Bitvisor.Mm.PageAlloc
import Bitvisor.Mm.Alloc
import Bitvisor.Mm.AllocInv
import Bitvisor.Nvme.GBuf
import Bitvisor.Lib.Run
import Bitvisor.Lib.Slots
import Bitvisor.Lib.MachineInt
import Bitvisor.Lib.Buddy
import Bitvisor.Lib.ByteMem
import Bitvisor.Lib.Sort
import Bitvisor.Lib.Segments
import Bitvisor.Io.Core
import Bitvisor.Io.Hook
import Bitvisor.X86Mmio.Rangecheck
import Bitvisor.X86Mmio.Access
import Bitvisor.X86Mmio.PageSize
import Bitvisor.Lib.Align
import Bitvisor.X86Mmio.PageSizeSpec
import Bitvisor.Ept.Mmio
import Bitvisor.Se.Bytes
import Bitvisor.Se.Ip4Combine
import Bitvisor.Se.Ip4Frag
import Bitvisor.Se.Ip4Send
import Bitvisor.Se.Ip6Parse
import Bitvisor.Se.Esp
import Bitvisor.Se.Ike
import Bitvisor.Se.IkeRoundTrip
import Bitvisor.Storage.Sectors
import Bitvisor.Cache.Mtrr
import Bitvisor.Storage.AesXts
import Bitvisor.Core.QSort
import Bitvisor.Se.QSort
import Bitvisor.Se.QSortSpec
import Bitvisor.Se.List
import Bitvisor.Se.ListSpec
import Bitvisor.Core.Strtol
import Bitvisor.Core.Printf
import Bitvisor.Core.Token
import Bitvisor.Se.Base64
import Bitvisor.X86Mmu.Pmap
import Bitvisor.X86Mmu.GetPte
import Bitvisor.Ept.Clear
import Bitvisor.Ept.Cursor
import Bitvisor.X86Interp.Modrm
import Bitvisor.X86Interp.ModrmSdm
import Bitvisor.Lib.Text
import Bitvisor.Se.Ip6Text
import Bitvisor.Se.Ip6TextParse
import Bitvisor.Lib.PtrWalk
import Bitvisor.Ept.Table
import Bitvisor.Ept.Walk
import Bitvisor.Ept.Fill
import Bitvisor.Ept.Map
import Bitvisor.Ept.Run
import Bitvisor.Ept.Safety
import Bitvisor.Ept.ReadEpte
