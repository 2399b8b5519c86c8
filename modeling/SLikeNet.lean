import SLikeNet.Library.HeapOrder
import SLikeNet.Library.SerialNumber
import SLikeNet.Uint24
import SLikeNet.Heap
import SLikeNet.Library.ReorderBuffer
import SLikeNet.Packet
import SLikeNet.OrderingChannel
import SLikeNet.ConformingSender
import SLikeNet.UnboundedChannel
import SLikeNet.Library.Transition
import SLikeNet.OrderedDelivery
import SLikeNet.SequencedDelivery
import SLikeNet.ReceiveLoop
import SLikeNet.ReceivedPackets
import SLikeNet.OrderedList
import SLikeNet.RangeList
import SLikeNet.CoalescedRanges
import SLikeNet.Library.CircularList
import SLikeNet.Library.Segments
import SLikeNet.ReliabilityLayer
import SLikeNet.Send
import SLikeNet.UpdateInternal
import SLikeNet.AckHandling
import SLikeNet.PackSteps
import SLikeNet.ResendView
import SLikeNet.ResendBookkeeping
import SLikeNet.Library.BitStream
import SLikeNet.DatagramHeaderFormat
import SLikeNet.Acknowledgements
import SLikeNet.MessageCodec
import SLikeNet.TruncatedMessages
import SLikeNet.SplitPacketSort
import SLikeNet.Reassembly
import SLikeNet.SplitRoundTrip
import SLikeNet.FragmentBits
import SLikeNet.SendQueue
import SLikeNet.PushOrder
import SLikeNet.Starvation
import SLikeNet.PriorityRatio
import SLikeNet.Frame
import SLikeNet.SplitIds
import SLikeNet.AckLoop
import SLikeNet.DatagramHistory
import SLikeNet.DatagramSize
import SLikeNet.LoneMessage
import SLikeNet.AckWindow
import SLikeNet.DueResends
import SLikeNet.AckTimeout
import SLikeNet.Library.IndexChains
import SLikeNet.ReliableTransfer
import SLikeNet.RemoteSystem
import SLikeNet.RemoteSystemLookup
import SLikeNet.MessageBytes
import SLikeNet.RakPeer
import SLikeNet.OfflineMessages
import SLikeNet.UpdateCycle
import SLikeNet.SlotSteps
import SLikeNet.SlotTransitions
import SLikeNet.NegotiatedMtu
import SLikeNet.EstablishedConnection
import SLikeNet.IncomingLimit
import SLikeNet.PasswordShown
import SLikeNet.OfflineReads
import SLikeNet.Library.RecentRing
import SLikeNet.MessageTimes
import SLikeNet.SentMessages
import SLikeNet.ClockDifferential
import SLikeNet.TwoSystems
import SLikeNet.ClockAccuracy
import SLikeNet.LostVariables
import SLikeNet.IdenticalSerialization
import SLikeNet.Library.BitCursor
import SLikeNet.PacketReads
import SLikeNet.FileListTransfer
import SLikeNet.PushedBlocks
import SLikeNet.ReplicaManager
import SLikeNet.ReplicaPackets
import SLikeNet.GroupedDownload
import SLikeNet.Table
import SLikeNet.QueryFilters
import SLikeNet.QueryTable
import SLikeNet.StreamWrites
import SLikeNet.BitStreamStorage
import SLikeNet.StreamMemory
import SLikeNet.HuffmanEncodingTree
import SLikeNet.StringCompressor
import SLikeNet.Library.BitCodec
import SLikeNet.TableSerializer
import SLikeNet.TableRoundTrip
import SLikeNet.Library.FuelledLoop
import SLikeNet.Library.EvenCounts
import SLikeNet.TeamBalancer
import SLikeNet.TeamCounts
import SLikeNet.TeamRebalancing
import SLikeNet.TeamOperations
import SLikeNet.TeamLimits
import SLikeNet.EvenTeams
import SLikeNet.TeamEvenness
import SLikeNet.TeamRequests
import SLikeNet.BalancedTeamLimit
import SLikeNet.TeamWorld
import SLikeNet.KickedMembers
import SLikeNet.TeamSwitch
import SLikeNet.JoinRequestOrder
import SLikeNet.LowestPing
import SLikeNet.ConnectionLists
import SLikeNet.ConnectionRecords
import SLikeNet.ReplicaWorlds
import SLikeNet.ReplicaReferences
import SLikeNet.Library.GuardedRun
import SLikeNet.ReplicaRuns
import SLikeNet.Library.LastReport
import SLikeNet.Library.IncidenceLists
import SLikeNet.NatPunchthroughServer
import SLikeNet.PunchthroughAttempts
import SLikeNet.PunchthroughLoops
import SLikeNet.PunchthroughRuns
import SLikeNet.ReadyEvent
import SLikeNet.ReadyEventCalls
import SLikeNet.ReadyEventStatus
import SLikeNet.ReadyEventViews
import SLikeNet.FullyConnectedMesh2
import SLikeNet.HostCalculation
import SLikeNet.MeshHosts
import SLikeNet.VerifiedJoin
import SLikeNet.VerifiedJoinRuns
import SLikeNet.ByteQueue
import SLikeNet.ByteQueueRuns
import SLikeNet.Library.Framing
import SLikeNet.PacketizedTCP
import SLikeNet.PacketizedTCPRuns
import SLikeNet.WorldConnections
import SLikeNet.CloudQueryResult
import SLikeNet.RakStringCopies
import SLikeNet.CloudGetRuns
import SLikeNet.CloudServerStore
import SLikeNet.CloudSubscriptions
import SLikeNet.CloudServerSteps
import SLikeNet.CloudServerRuns
import SLikeNet.CloudServerQueries
import SLikeNet.CloudUploadLimit
import SLikeNet.IdenticalBroadcast
import SLikeNet.ConstructionMessage
import SLikeNet.ConstructionDelivery
import SLikeNet.AckTraffic
import SLikeNet.SlidingWindow
import SLikeNet.MaliciousReports
import SLikeNet.StreamAppend
import SLikeNet.LeftAlignedBits
import SLikeNet.IntegerRange
import SLikeNet.AVLTree
import SLikeNet.AVLTreeRuns
import SLikeNet.WeightedGraph
import SLikeNet.GraphConnections
import SLikeNet.CostMatrix
import SLikeNet.ShortestPathRuns
import SLikeNet.TypedRoundTrip
import SLikeNet.TableRows
import SLikeNet.TableSort
import SLikeNet.ChunkProgress
import SLikeNet.PluginOrder
import SLikeNet.LoopbackReceipts
import SLikeNet.SendImmediate
import SLikeNet.BanList
import SLikeNet.ConnectionProbes
import SLikeNet.FilterQueryLists
import SLikeNet.SkippedColumns
import SLikeNet.SerializationChannels
import SLikeNet.StringFind
import SLikeNet.UrlEncoding
import SLikeNet.Base64Encoder
import SLikeNet.MessageWeights
import SLikeNet.HeapRuns
import SLikeNet.AddressOrder
import SLikeNet.LocalAddresses
import SLikeNet.NetworkIdLookup
import SLikeNet.StreamOverwrite
import SLikeNet.CloudRowWindow
