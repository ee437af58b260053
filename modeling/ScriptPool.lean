import ScriptPool.Convert.Codecs
import ScriptPool.Exchange.Guest
import ScriptPool.Exchange.Report
import ScriptPool.Main
import ScriptPool.Proofs.Config.Settled
import ScriptPool.Proofs.Config.Toml
import ScriptPool.Proofs.Convert.Functions
import ScriptPool.Proofs.Convert.Graph
import ScriptPool.Proofs.Convert.GuestTrip
import ScriptPool.Proofs.Convert.Marker
import ScriptPool.Proofs.Convert.Names
import ScriptPool.Proofs.Convert.Ordering
import ScriptPool.Proofs.Convert.Registries
import ScriptPool.Proofs.Convert.RoundTrip
import ScriptPool.Proofs.Guest.Evaluation
import ScriptPool.Proofs.Guest.Hops
import ScriptPool.Proofs.Guest.References
import ScriptPool.Proofs.Guest.Scopes
import ScriptPool.Proofs.Interpreter.Assigning
import ScriptPool.Proofs.Interpreter.Budgets
import ScriptPool.Proofs.Interpreter.Exact
import ScriptPool.Proofs.Interpreter.Functions
import ScriptPool.Proofs.Interpreter.HostFunctions
import ScriptPool.Proofs.Interpreter.Libraries
import ScriptPool.Proofs.Interpreter.Objects
import ScriptPool.Proofs.Interpreter.Replies
import ScriptPool.Proofs.Interpreter.Scopes
import ScriptPool.Proofs.Interpreter.Values
import ScriptPool.Proofs.Pool.Clean
import ScriptPool.Proofs.Pool.Closed
import ScriptPool.Proofs.Pool.Conservation
import ScriptPool.Proofs.Pool.Failing
import ScriptPool.Proofs.Pool.Leftovers
import ScriptPool.Proofs.Pool.MinSize
import ScriptPool.Proofs.Pool.Picking
import ScriptPool.Proofs.Pool.Population
import ScriptPool.Proofs.Pool.Rate
import ScriptPool.Proofs.Pool.Scaling
import ScriptPool.Proofs.Pool.Scopes
import ScriptPool.Proofs.Pool.Scratch
import ScriptPool.Proofs.Pool.Waiting
import ScriptPool.Proofs.Pool.Warming
import ScriptPool.Proofs.Scaling.Band
import ScriptPool.Proofs.Scaling.Decisions
import ScriptPool.Proofs.Scaling.LeastSquares
import ScriptPool.Proofs.Scaling.Windows
import ScriptPool.Proofs.Service.Shutdown
import ScriptPool.Proofs.Value.Json
