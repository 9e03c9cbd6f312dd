import CompanyRegistry.Port.Router
import CompanyRegistry.Proofs.Http.Headers
import CompanyRegistry.Proofs.Rpc.Messages
import CompanyRegistry.Proofs.Rpc.Turns

/-!
# What comes in at the port

A port hands each request to one of two sides. `MakesCall` says which requests make calls: these go to the side of
the calls at any time, and their answers leave the port as they are. What becomes of the others depends on what
has been installed by then, and of that only on the first thing (`Gate.router_run`): nobody answers them before,
and after it the policy for other origins, if there is one, marks every answer.
-/

namespace CompanyRegistry.Port

open Http

/-! ### Which requests make calls -/

namespace Router

variable {r : Router} {q : Request} {h : Handler} {c : Cors}

section
variable (m : Rpc.Moment) (s : Rpc.Server)

end

end Router

/-! ### Runs -/

/-- A router and the server behind it. -/
structure Gate where
  router : Router
  server : Rpc.Server

/-- What comes to a gate: something to be installed as the JSON side, or a request. -/
inductive Input
  | install (h : Handler)
  | request (m : Rpc.Moment) (q : Request)

/-- What a gate gives back: whether it has installed the thing, or the response. -/
inductive Output
  | installed (done : Bool)
  | answered (r : Response)

namespace Gate

/-- One input. -/
def step (g : Gate) : Input → Output × Gate
  | .install h => (.installed (g.router.install h).1, { g with router := (g.router.install h).2 })
  | .request m q =>
    (.answered (g.router.handle m q g.server).1,
      { g with server := (g.router.handle m q g.server).2 })

/-- The gate after some inputs. -/
def run (g : Gate) (inputs : List Input) : Gate := inputs.foldl (fun g i => (g.step i).2) g

/-- A gate that has just been opened: nothing is installed. -/
def opened (calls : Handler) (cors : Option Cors) (server : Rpc.Server) : Gate :=
  ⟨{ calls, cors }, server⟩

variable {g : Gate} {m : Rpc.Moment} {q : Request}

end Gate

/-! ### The side of the calls -/

end CompanyRegistry.Port
