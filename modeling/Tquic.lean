import Tquic.Stream.Reassembly
import Tquic.Endpoint.Independence
import Tquic.Connection.Consumption
import Tquic.RangeRuns
import Tquic.Endpoint.TokenKeys
import Tquic.Connection.Retired
import Tquic.Connection.Forgery
import Tquic.Connection.PathValidation
import Tquic.Connection.Retry
import Tquic.Stream.FinalSize
import Tquic.Connection.Queueing
import Tquic.Connection.Numbering
import Tquic.Connection.Acking
import Tquic.Connection.Idle
import Tquic.Connection.ScidRuns
import Tquic.Endpoint.Attempts
import Tquic.Endpoint.RetiringScids
import Tquic.Connection.AbandonedPaths
import Tquic.Connection.FrozenCredit
import Tquic.Connection.Pmtu
import Tquic.Endpoint.Connecting
import Tquic.Connection.Datagram
import Tquic.Connection.Probing
import Tquic.H3.PriorityUpdate
import Tquic.TokioAdapter.DatagramReads
import Tquic.TokioAdapter.Lifecycle
import Tquic.TokioAdapter.Wakers
import Tquic.CongestionControl.Pacing
import Tquic.CongestionControl.MinMax
