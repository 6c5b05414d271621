import Hawiya.Requests
import Hawiya.Server

/-!
# The application behind the middleware

A request is read, handled in a session of its own, and answered. Reading a request and rendering a
response are FastAPI's. The response is sent when the endpoint has returned; the session flushes
what it still holds and commits after that, when the code after the `yield` of `get_session` runs.
-/

namespace Hawiya
open PyString Interaction

/-- What the application awaits besides messages: what a call draws, and statements of its
session. -/
inductive AppOp where
  | draw
  | statement (op : DbOp)

abbrev AppOp.Reply : AppOp → Type
  | .draw => Draws
  | .statement op => op.Reply

abbrev AppProgram := Program (AsgiOp AppOp) (AsgiOp.Reply AppOp.Reply) PyError

namespace AppProgram

def await (op : AsgiOp AppOp) : AppProgram (op.Reply AppOp.Reply) := Program.perform op

def send (message : Message) : AppProgram Unit := await (.send message)

def draw : AppProgram Draws := await (.own .draw)

def statements {α : Type} : Tx α → AppProgram α
  | .pure a => .pure a
  | .throw e => .throw e
  | .call op next => .call (.own (.statement op)) (fun r => statements (next r))

end AppProgram

/-- A request as its endpoint gets it. -/
inductive Submission where
  | resolve (ctx : RequestContext) (upload : Upload) (create_if_missing : Bool)
  | create (ctx : RequestContext) (body : PersonService.Args)

def Submission.request (draws : Draws) : Submission → Request
  | .resolve ctx upload create_if_missing => .resolve ctx draws upload create_if_missing
  | .create ctx body => .create ctx draws body

/-- What is taken from FastAPI: how a request is read, and how a response is rendered. -/
structure FastAPI where
  read : Scope → AppProgram Submission
  headers : ApiResponse → Headers
  body : ApiResponse → Bytes

namespace FastAPI
variable (api : FastAPI) (lib : Libraries)

/-- Reading a request receives messages and does nothing else. -/
def Reads : Prop := ∀ scope, (api.read scope).Only (fun op => op = .receive)

def messages (r : ApiResponse) : List Message :=
  answerMessages r.status (api.headers r) (api.body r)

def send (r : ApiResponse) : AppProgram Unit := do
  AppProgram.send (.responseStart r.status (api.headers r))
  AppProgram.send (.responseBody (api.body r) false)

/-- A request in its session: the code after `yield` runs when the response has been sent. -/
def respond (req : Request) : AppProgram Unit :=
  match req.ctx.tenant_id with
  | none => throw (.runtimeError "set_session_tenant called without a tenant in context.")
  | some _ =>
      let answered : AppProgram Unit := do
        let r ← AppProgram.statements (req.endpoint lib)
        api.send r
      answered.handle (fun r => AppProgram.statements (closeSession r))

def app : App AppOp AppOp.Reply := fun scope => do
  let submission ← api.read scope
  let draws ← AppProgram.draw
  api.respond lib (submission.request draws)

end FastAPI

variable {ι : Type} [DecidableEq ι]

/-- Each request draws its own values; its statements go to the database. -/
def backend (draws : ι → Draws) : Environment ι Outcome AppOp AppOp.Reply PyError (Db ι) where
  waits i op db := match op with
    | .draw => false
    | .statement op => Db.waits i op db
  exec i outcome op db := match op with
    | .draw => (.ok (draws i), db)
    | .statement op => Db.exec i outcome op db

end Hawiya
