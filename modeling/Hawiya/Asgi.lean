import Hawiya.Lib.Handlers
import Hawiya.Lib.PyBytes
import Hawiya.Database

/-!
# ASGI

The messages and scopes of the server interface, and applications as programs that receive, send
and call operations of their own. A body or `more_body` that a message leaves out has its default.
-/

namespace Hawiya
open PyString Interaction

abbrev Headers := List (Bytes × Bytes)

inductive Message where
  | request (body : Bytes) (more_body : Bool)
  | disconnect
  | responseStart (status : ℕ) (headers : Headers)
  | responseBody (body : Bytes) (more_body : Bool)
  | other (type : String)
  deriving DecidableEq

/-- `message.get("body", b"")`. -/
def Message.body : Message → Bytes
  | .request body _ => body
  | .responseBody body _ => body
  | _ => []

/-- `bool(message.get("more_body"))`. -/
def Message.more_body : Message → Bool
  | .request _ more_body => more_body
  | .responseBody _ more_body => more_body
  | _ => false

inductive ScopeType where
  | http
  | websocket
  | lifespan
  deriving DecidableEq

structure Scope where
  type : ScopeType
  method : Str
  path : Str
  /-- What `request.url.path` answers. -/
  url_path : Str
  headers : Headers
  deriving DecidableEq

inductive AsgiOp (ω : Type) where
  | receive
  | send (message : Message)
  | own (op : ω)

abbrev AsgiOp.Reply {ω : Type} (Rep : ω → Type) : AsgiOp ω → Type
  | .receive => Message
  | .send _ => Unit
  | .own op => Rep op

/-- An application with operations `ω` of its own. -/
abbrev App (ω : Type) (Rep : ω → Type) :=
  Scope → Program (AsgiOp ω) (AsgiOp.Reply Rep) PyError Unit

/-- `_header_lookup`. -/
def headerLookup (headers : Headers) (name : Bytes) : Option Bytes :=
  (headers.find? (fun h => lowerBytes h.1 = name)).map Prod.snd

end Hawiya
