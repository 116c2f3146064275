import Freelite.Router.Coherence
import Freelite.Router.Identity
import Freelite.Router.ContainerPath
import Freelite.Router.Untouched
import Freelite.Router.Unresolved
import Freelite.Router.Words
import Freelite.Router.Sessions
import Freelite.Router.Undisturbed
import Freelite.Router.Apart
import Freelite.Router.Survival
import Freelite.Router.Exhaustion
import Freelite.Router.Returns
import Freelite.Client.Pairing
import Freelite.Client.TestRpc
import Freelite.Client.TestLatency.Runs
import Freelite.Client.RpcBench.Runs
import Freelite.Link.Transparency
import Freelite.Link.Framing
import Freelite.Link.AllocFree
import Freelite.Link.Reported
import Freelite.Link.Strings
import Freelite.Link.Connection
import Freelite.Link.History
import Freelite.Vcm.Server
import Freelite.Vcm.AcceptLoop
import Freelite.Vcm.Counter
import Freelite.Router.Lookups
import Freelite.System.Deployment
import Freelite.System.Restarts
