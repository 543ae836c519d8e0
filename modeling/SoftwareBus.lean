import SoftwareBus.Transition
import SoftwareBus.LinkGraph
import SoftwareBus.Subscriptions
import SoftwareBus.Acyclicity
import SoftwareBus.CheckWindow
import SoftwareBus.Replies
import SoftwareBus.OwnQuery
import SoftwareBus.Convergence
import SoftwareBus.Publish
import SoftwareBus.ClientTracking
import SoftwareBus.NodeReports
import SoftwareBus.SendQueue
import SoftwareBus.LiveLoops
import SoftwareBus.Silence
import SoftwareBus.Flooding
import SoftwareBus.Acceptors
import SoftwareBus.HeldInOrder
import SoftwareBus.LiveTags
import SoftwareBus.Informing
import SoftwareBus.CheckLock
import SoftwareBus.Agreement
import SoftwareBus.Matching
import SoftwareBus.WireFormat
import SoftwareBus.Framing
import SoftwareBus.ReplySubjects
import SoftwareBus.RefusedParameters
import SoftwareBus.CombinedReplies
import SoftwareBus.NodeLinks
import SoftwareBus.Cycles
import SoftwareBus.QueryTaskInvariant
import SoftwareBus.DyingOut
import SoftwareBus.RequestTasks
import SoftwareBus.RequestTaskInvariant
import SoftwareBus.RequestTaskSteps
import SoftwareBus.RequestWaits
