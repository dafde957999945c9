import Qubit.Lib.FiniteMap
import Qubit.Lib.SecondaryIndex
import Qubit.Lib.Run
import Qubit.Lib.KeyedWrites
import Qubit.Lib.NewKeys
import Qubit.Lib.Renaming
import Qubit.Lib.Text
import Qubit.Lib.Ipv4
import Qubit.Lib.KeepFirst
import Qubit.Lib.Yaml
import Qubit.Lib.Json
import Qubit.Lib.WrittenJson
import Qubit.Lib.Loop
import Qubit.Lib.LevelSearch
import Qubit.Lib.Walks
import Qubit.Lib.Pieces
import Qubit.Lib.Pages
import Qubit.Lib.SqlLexer
import Qubit.Lib.ReprC
import Qubit.Lib.Windows
import Qubit.Lib.BatchWriter
import Qubit.Lib.Pool
import Qubit.Core.Topology
import Qubit.Core.CallGraph
import Qubit.Core.Aggregator
import Qubit.Core.HostNames
import Qubit.Core.Server
import Qubit.Core.Coherence
import Qubit.Core.Resolution
import Qubit.Core.Provenance
import Qubit.Core.Dedup
import Qubit.Core.ArrivalOrder
import Qubit.Core.Interleaving
import Qubit.Core.Healing
import Qubit.Core.PodMap
import Qubit.Core.HealedNames
import Qubit.Core.Storage
import Qubit.Core.FlushHistory
import Qubit.Core.Pages
import Qubit.Core.RestApi
import Qubit.Core.Subgraph
import Qubit.Core.SubgraphTree
import Qubit.Core.SubgraphApi
import Qubit.Core.QueryApi
import Qubit.Core.History
import Qubit.Core.Ledger
import Qubit.Core.NodeLog
import Qubit.Core.Backend
import Qubit.Core.CacheOrigin
import Qubit.Core.GraphOrigin
import Qubit.Ui.TopologyUtils
import Qubit.Ui.ShownEdges
import Qubit.Ui.Layers
import Qubit.Ui.RootService
import Qubit.Ui.FlowData
import Qubit.Ui.NodeKeys
import Qubit.Ui.ConnectedNodes
import Qubit.Ui.TopologyGraph
import Qubit.Ui.TopologyView
import Qubit.Ui.ServedSubgraph
import Qubit.Ui.ResourceEvents
import Qubit.Ui.EventPages
import Qubit.Ui.NetworkEvents
import Qubit.Mcp.Tools
import Qubit.Agent.ServiceRegistry
import Qubit.Agent.RegistryContents
import Qubit.Agent.PodHandler
import Qubit.Agent.PodMapping
import Qubit.Agent.PodNames
import Qubit.Agent.Resync
import Qubit.Agent.MapAgreement
import Qubit.Agent.EnvoyParser
import Qubit.Agent.ConfigMaps
import Qubit.Agent.EnvoyCache
import Qubit.Agent.NameAgreement
import Qubit.Agent.EventHandler
import Qubit.Agent.Informers
import Qubit.Agent.Installation
import Qubit.Agent.CachedNames
import Qubit.Mcp.ChClient
import Qubit.Mcp.RecentEvents
import Qubit.Ebpf.TcpPayloadEvent
import Qubit.Ebpf.HttpFilter
import Qubit.Ebpf.EbpfLoader
import Qubit.Ebpf.EventFormat
import Qubit.Ebpf.HostHeader
import Qubit.Ebpf.CapturedText
import Qubit.Ebpf.Truncation
import Qubit.Ebpf.RequestLine
import Qubit.Ebpf.PacketPayload
import Qubit.Ebpf.Capture
import Qubit.Ebpf.Traffic
