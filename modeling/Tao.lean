import Tao.Foundation.Table
import Tao.Foundation.Transition
import Tao.Foundation.History
import Tao.Foundation.Transcript
import Tao.Foundation.Scan
import Tao.Foundation.SlotArray
import Tao.Foundation.TrailingRun
import Tao.Foundation.Interleaving
import Tao.Foundation.IdPool
import Tao.Foundation.Bits
import Tao.Foundation.OnesComplement
import Tao.Foundation.ClassicBpf
import Tao.Foundation.LongestMatch
import Tao.Foundation.Cylinders
import Tao.Foundation.Netmask
import Tao.Foundation.PrefixInterval
import Tao.Foundation.Projected
import Tao.Foundation.Bytes
import Tao.Foundation.OrderedMap
import Tao.Foundation.Simulation
import Tao.Foundation.Digits
import Tao.Foundation.Access
import Tao.Foundation.Checked
import Tao.Foundation.Spans
import Tao.Foundation.LowestFree
import Tao.DataPlane.Headers
import Tao.DataPlane.Sketch
import Tao.DataPlane.Ingress
import Tao.DataPlane.BucketHistory
import Tao.DataPlane.ActiveFlow
import Tao.DataPlane.SingleReport
import Tao.DataPlane.BucketIndependence
import Tao.DataPlane.Parser
import Tao.DataPlane.Deparser
import Tao.DataPlane.Transparency
import Tao.DataPlane.FullChain
import Tao.DataPlane.DigestFlow
import Tao.DataPlane.ChainFormat
import Tao.DataPlane.ChainTransit
import Tao.DataPlane.ChainDigests
import Tao.DataPlane.Resending
import Tao.Agent.Types
import Tao.Agent.Neigh
import Tao.Agent.NextHop
import Tao.Agent.Fib
import Tao.Agent.Route
import Tao.Agent.RouteEffect
import Tao.Agent.RouteAccounting
import Tao.Agent.RouteAtomicity
import Tao.Agent.RouteCleanup
import Tao.Agent.ObjectIds
import Tao.Agent.FibAgreement
import Tao.Agent.NeighCoverage
import Tao.Agent.NhopIdentity
import Tao.Agent.RouteAsserts
import Tao.Hal.Tables
import Tao.Agent.Vrf
import Tao.Agent.TunnelStore
import Tao.Agent.VrfRegistry
import Tao.Agent.VxlanRcv
import Tao.Agent.SocketFilter
import Tao.Agent.ReceivePath
import Tao.Agent.RouteHistory
import Tao.Agent.RouteIsolation
import Tao.Agent.NeighHistory
import Tao.Offload.Rule
import Tao.Offload.Chain
import Tao.Offload.Forwarding
import Tao.Offload.SoftwarePath
import Tao.Offload.Isolation
import Tao.Offload.AllOrNothing
import Tao.Offload.Classification
import Tao.Offload.VrfCleanup
import Tao.Offload.VrfService
import Tao.Offload.VirtualRouter
import Tao.Offload.MpathBounds
import Tao.Offload.LookupSafety
import Tao.Offload.TunnelMirror
import Tao.Offload.VrfById
import Tao.Offload.ChainRefinement
import Tao.Offload.OffloadedFlows
import Tao.Driver.Route
import Tao.Driver.AgingTtl
import Tao.Driver.Learning
import Tao.Driver.LearnedFlows
import Tao.Driver.TtlController
import Tao.Driver.FlowsetAggregation
import Tao.Common.IpAddress
import Tao.Common.IpPrefix
import Tao.Common.InetText
import Tao.Common.LpmTrie
import Tao.Common.LpmRefinement
import Tao.Common.IpInterval
import Tao.Common.SubnetKeys
import Tao.Common.Subnets
import Tao.Common.IpAddresses
import Tao.Common.Tokenize
import Tao.Common.PrefixGrammar
import Tao.Common.AddressScope
import Tao.Driver.CuckooPacket
import Tao.Driver.ObjectId
