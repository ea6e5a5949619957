import DcSim.BaselineDelivery
import DcSim.DataPath
import DcSim.EventOrder
import DcSim.FatTreePath
import DcSim.FlowSafety
import DcSim.FlowTimeout
import DcSim.FlowTimer
import DcSim.FlowAcks
import DcSim.LeafSpinePath
import DcSim.PimAgreement
import DcSim.PimPrompt
import DcSim.Preemption
import DcSim.QueueCounters
import DcSim.RufConns
import DcSim.SnsComplete
import DcSim.SnsLink
import DcSim.SnsRelease
import DcSim.SnsSendChain
import DcSim.SnsWork
import DcSim.SnsWorld
import DcSim.TokenRegistration
import DcSim.CapabilityHost
import DcSim.CapabilityChain
import DcSim.Rotation
import DcSim.SnsFairness
import DcSim.Selection
import DcSim.SnsOrder
import DcSim.PFabricQueue
import DcSim.SimTrace
import DcSim.SnsBuffer
import DcSim.Spray
import DcSim.SprayBalance
import DcSim.SnsBurst
import DcSim.DctcpFlow
import DcSim.DctcpReceiver
import DcSim.FlowWindow
import DcSim.FlowPriority
import DcSim.DctcpAlpha
import DcSim.TimerOverlap
import DcSim.RingScan
import DcSim.TokenSequence
import DcSim.PimTokenQueue
import DcSim.Greedy
import DcSim.IdealArbiter
import DcSim.IdealSchedule
import DcSim.IdealRuns
import DcSim.FastpassArbiter
import DcSim.FastpassTimeslot
import DcSim.FastpassSchedule
import DcSim.FastpassSlots
import DcSim.PermutationTM
import DcSim.PeerSelection
import DcSim.CachedQueue
import DcSim.Bisect
import DcSim.EmpiricalCdf
import DcSim.ExperimentParams
import DcSim.FastpassEpochTime
import DcSim.FlowSizes
import DcSim.Network
import DcSim.NetworkPlaces
import DcSim.NetworkDrain
import DcSim.NetworkOrder
import DcSim.NetworkDelay
import DcSim.NetworkFlow
import DcSim.FlowCompletion
import DcSim.Links
import DcSim.LeafSpineNetwork
import DcSim.Slowdown
import DcSim.FatTreeNetwork
import DcSim.FatTreeSlowdown
import DcSim.MagicHost
import DcSim.MagicSchedule
import DcSim.MagicRuns
import DcSim.CapabilityProgress
import DcSim.CapabilityWindow
import DcSim.CapabilityGoal
