import Mdk.EpochRuns
import Mdk.WitnessInfluence
import Mdk.AcceptedChain
import Mdk.UnavailableParents
import Mdk.Lineage
import Mdk.DerivedBranches
import Mdk.PassPartition
import Mdk.PassGate
import Mdk.RewindRecovery
import Mdk.GroupLifecycle
import Mdk.FanoutRuns
import Mdk.OutboundQueue
import Mdk.BrokerSubscribers
import Mdk.TextReceiver
import Mdk.StreamBindings
import Mdk.ComponentStates
import Mdk.DeferredPeelRuns
import Mdk.ConversationWindow
import Mdk.RelayLifecycle
import Mdk.RouteHistory
import Mdk.BackfillIntents
import Mdk.StallReports
import Mdk.SelectionScan
import Mdk.SelectionTrace
import Mdk.InlineScan
