import FStack.Prelude.TailCall
import FStack.Prelude.Logged
import FStack.Analysis.FilterTermination
import FStack.Model.PacketAccess
import FStack.Analysis.VethInputOwnership
import FStack.Model.RssHash
import FStack.Model.RssTable
import FStack.Analysis.RssTableMap
import FStack.Analysis.PortRange
import FStack.Model.PcbLport
import FStack.Analysis.PcbLportContract
import FStack.Analysis.Toeplitz
import FStack.Model.RssKey
import FStack.Analysis.SymmetricKey
import FStack.Model.Transmit
import FStack.Prelude.Slots
import FStack.Analysis.TransmitStep
import FStack.Analysis.TransmitQueue
import FStack.Analysis.TransmitPairing
import FStack.Model.Receive
import FStack.Analysis.ReceiveOwnership
import FStack.Analysis.FilterLocality
import FStack.Analysis.NeighborFrames
import FStack.Analysis.NeighborFanout
import FStack.Analysis.FilterBounds
import FStack.Analysis.ZeroCopyRecv
import FStack.Analysis.ZeroCopySend
import FStack.Model.ConfigText
import FStack.Model.Config
import FStack.Analysis.ConfigBounds
import FStack.Analysis.QueueAssignment
import FStack.Model.Epoll
import FStack.Analysis.EpollData
import FStack.Analysis.EpollOneShot
import FStack.Analysis.FdMapOwnership
import FStack.Model.KeventCoexist
import FStack.Analysis.HostPairs
import FStack.Analysis.KeventChanges
import FStack.Analysis.HostInterest
import FStack.Model.HeapList
import FStack.Prelude.BinaryHeap
import FStack.Analysis.HeapOrder
import FStack.Model.MicroThread
import FStack.Analysis.HeapWakeup
import FStack.Analysis.ThreadJoins
import FStack.Analysis.ThreadRuns
import FStack.Analysis.KqueueMirror
import FStack.Analysis.CacheBuffers
import FStack.Analysis.CacheFifo
import FStack.Analysis.BoundAddresses
import FStack.Analysis.SoContexts
import FStack.Analysis.HandOver
import FStack.Analysis.RingRequests
import FStack.Analysis.SemRequests
import FStack.Analysis.DispathMessages
import FStack.Analysis.RequestFraming
import FStack.Analysis.WriteInterest
import FStack.Analysis.OwnResponses
import FStack.Analysis.KeepOwners
import FStack.Analysis.SessionEntries
import FStack.Analysis.KeyPublication
import FStack.Analysis.RssPrediction
import FStack.Analysis.ExtensionHeaders
import FStack.Analysis.ConfigLists
import FStack.Analysis.LcoreMask
import FStack.Analysis.DpdkArgsBounds
import FStack.Analysis.SolvedPort
import FStack.Analysis.SolvedPort6
import FStack.Model.ControlMsg
import FStack.Analysis.ControlMsgWalk
import FStack.Analysis.ControlMsgRecv
import FStack.Analysis.ControlMsgSend
import FStack.Analysis.HookedSockets
import FStack.Analysis.CleanRecords
import FStack.Analysis.ClosedRecords
import FStack.Analysis.KeepRecords
import FStack.Analysis.TxRingDelay
import FStack.Analysis.KniLimits
import FStack.Analysis.KniPortLists
import FStack.Analysis.OffloadPaths
import FStack.Analysis.IovRestored
import FStack.Analysis.AddressRoundTrip
import FStack.Analysis.CopiedPackets
import FStack.Analysis.ClonedChains
import FStack.Analysis.ControlReplies
import FStack.Analysis.WritevRounds
import FStack.Analysis.WritevPrefix
import FStack.Model.ToolCalls
import FStack.Analysis.MessagePlaces
import FStack.Analysis.PoolMessages
import FStack.Analysis.WaitDeadlines
import FStack.Analysis.AdapterRetries
import FStack.Analysis.ForkWakeup
import FStack.Analysis.KeventIdents
import FStack.Model.ThreadPool
import FStack.Analysis.PoolAccounting
import FStack.Model.ShareAlloc
import FStack.Analysis.ScatteredBytes
import FStack.Analysis.DispatchedEvents
import FStack.Analysis.SendVerdicts
import FStack.Analysis.SelectSets
import FStack.Analysis.SelectAnswers
import FStack.Analysis.BatchPhases
import FStack.Analysis.SharedInterest
import FStack.Analysis.CheckedReceive
import FStack.Model.HashDrain
import FStack.Analysis.DrainedTables
import FStack.Model.PcapDump
import FStack.Prelude.Rotation
import FStack.Analysis.CaptureFiles
import FStack.Model.PageAlloc
import FStack.Prelude.Pooled
import FStack.Analysis.ConservedPages
import FStack.Analysis.PageSends
import FStack.Model.VethAddr6
import FStack.Analysis.InterfacePrefixes
import FStack.Analysis.BlockingContract
import FStack.Analysis.LcoreSearch
import FStack.Analysis.ToeplitzReference
import FStack.Analysis.ChainedEntries
import FStack.Analysis.HostRegistration
import FStack.Analysis.DescriptorPartition
import FStack.Analysis.RegistrationRollback
import FStack.Analysis.ToolMarshalling
import FStack.Analysis.ToolAnswers
import FStack.Analysis.IniConfig
import FStack.Analysis.SchedulerOrder
import FStack.Analysis.DispatchedPackets
