import SsvNode.Qbft.CheckedDecisions
import SsvNode.Qbft.Justification
import SsvNode.Eth.HistorySync
import SsvNode.Validation.NonInterference
import SsvNode.Validation.PacketLimits
import SsvNode.Qbft.PeerValidity
import SsvNode.Runner.AggregatorCommittee
import SsvNode.Runner.IndependentSubmissions
import SsvNode.Validation.RoundEstimation
import SsvNode.Validation.DecidedGrowth
import SsvNode.Validation.RootBudget
import SsvNode.Validation.DutyBudget
import SsvNode.Validation.AggregatedDecided
import SsvNode.Runner.ExpectedRoots
import SsvNode.Queue.Conservation
import SsvNode.Doppelganger.Gate
import SsvNode.Validation.HonestTraffic
import SsvNode.Registry.Restart
import SsvNode.Ekm.BumpEffect
import SsvNode.Validator.CommitteeSlots
import SsvNode.Validator.StaleFloor
import SsvNode.Duties.FetchIntents
import SsvNode.Duties.Participation
import SsvNode.Exporter.LateSignatures
import SsvNode.P2p.RetryBackoff
import SsvNode.NetworkConfig.ForkSchedules
import SsvNode.P2p.SubnetIndex
import SsvNode.P2p.SenderCache
import SsvNode.Storage.Participants
import SsvNode.P2p.CommitteeTopics
import SsvNode.Exporter.DecidedQueries
