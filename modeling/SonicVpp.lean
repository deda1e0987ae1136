import SonicVpp.RunInvariant
import SonicVpp.SlotPool
import SonicVpp.WildcardStore
import SonicVpp.VxlanTunnel
import SonicVpp.VxlanDecapMap
import SonicVpp.VxlanFindTunnel
import SonicVpp.VxlanDecapAny
import SonicVpp.VxlanReachable
import SonicVpp.VxlanSearch
import SonicVpp.VxlanConservative
import SonicVpp.VxlanPromiscuous
import SonicVpp.TuntermBypass
import SonicVpp.BatchedLoop
import SonicVpp.TuntermBypassLoops
import SonicVpp.PacketBytes
import SonicVpp.IpHeader
import SonicVpp.InnerResolve
import SonicVpp.FlowHash
import SonicVpp.FlowHashOptIn
import SonicVpp.VectorMap
import SonicVpp.HashEth
import SonicVpp.InnerFlow
import SonicVpp.InnerReads
import SonicVpp.InnerGrammar
import SonicVpp.InnerSafe
import SonicVpp.HashBounds
import SonicVpp.HashTagged
import SonicVpp.FragmentHash
import SonicVpp.HashMoves
import SonicVpp.VlanHash
import SonicVpp.IngressRedirect
import SonicVpp.RefCount
import SonicVpp.FeatureWiring
import SonicVpp.FeatureBalance
import SonicVpp.SubInterfaceChurn
import SonicVpp.HostXcPath
import SonicVpp.FrameNode
import SonicVpp.IpValidate
import SonicVpp.IpValidateWiring
import SonicVpp.PacketNode
import SonicVpp.Ip2Me
import SonicVpp.TrapFixup
import SonicVpp.RedirectNodes
import SonicVpp.RedirectOnce
import SonicVpp.StaleStamp
import SonicVpp.LastWrite
import SonicVpp.TuntermAcl
import SonicVpp.TuntermAclSessions
import SonicVpp.TuntermAclTables
import SonicVpp.TuntermAclNode
import SonicVpp.TuntermAclSlots
import SonicVpp.TuntermAclRules
import SonicVpp.TuntermAclAttach
import SonicVpp.TuntermAclInterfaces
import SonicVpp.TuntermAclFailure
import SonicVpp.TuntermAclIndices
import SonicVpp.TuntermAclCarried
import SonicVpp.RedirectStore
import SonicVpp.SkipSampler
import SonicVpp.SflowSampler
import SonicVpp.SflowPerPort
import SonicVpp.SflowControl
import SonicVpp.SflowRates
import SonicVpp.SflowLoopSafe
import SonicVpp.SflowProcessed
import SonicVpp.SflowDirection
import SonicVpp.BondDrops
import SonicVpp.PyDict
import SonicVpp.JsonOverlay
import SonicVpp.VppCfg
import SonicVpp.VppCfgBatches
import SonicVpp.VppCfgSurvives
import SonicVpp.VppCfgMerge
import SonicVpp.DictHeap
import SonicVpp.VppCfgInPlace
import SonicVpp.ManagerQueue
import SonicVpp.RunnerLoop
import SonicVpp.TextLines
import SonicVpp.StartupConf
import SonicVpp.VppCfgRender
import SonicVpp.VppCfgRoundTrip
import SonicVpp.PortNames
import SonicVpp.PortFiles
import SonicVpp.PortConfigDb
import SonicVpp.PortFactory
