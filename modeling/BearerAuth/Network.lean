import BearerAuth.Event
import BearerAuth.Failure
import BearerAuth.Json.Node

/-!
# Requests over a network

A network answers the requests that are sent to it, each by its URL.  Which texts stand for URLs,
and how a reference in an answer is resolved, is left to the client.

* `Network` is what a client knows of a network, `Network.ofReplies` the one without such rules;
* `Network.get` sends a request and follows redirections;
* `Exchange.document?` is what has come as a JSON document, unless it is an error;
* `Fetched` is what has been made of it, with the requests and events on the way.
-/

namespace BearerAuth

/-- An answer to a request. -/
structure Response where
  /-- The status. -/
  status : Nat := 200
  /-- Where to look instead, if the status says so, as a URL or a part of one. -/
  location : Option String := none
  /-- The body. -/
  body : List UInt8 := []
  deriving DecidableEq, Repr

namespace Response

/-- The statuses that send a client elsewhere. -/
def redirections : List Nat := [301, 302, 303, 307, 308]

/-- Where to look instead. -/
def redirection? (r : Response) : Option String :=
  if redirections.contains r.status then r.location else none

/-- The answer reports an error.  An answer that sends nobody anywhere is none. -/
def isError (r : Response) : Bool := 400 ≤ r.status && r.status < 600

end Response

/-- What becomes of a request. -/
inductive Reply where
  /-- There is no connection, and nobody sees the request. -/
  | unreachable
  /-- The connection is closed before an answer. -/
  | dropped
  /-- There is an answer. -/
  | answered (r : Response)
  deriving DecidableEq, Repr

/-- A network as a client sees it: what the client takes for a URL, and what becomes of its
requests. -/
structure Network where
  /-- The URL that a text stands for, if there is one. -/
  url? : String → Option String
  /-- The URL to which an answer from some URL refers, if there is one. -/
  join? : String → String → Option String
  /-- What becomes of a request, by its URL. -/
  reply : String → Reply
  /-- How many redirections are followed. -/
  maxRedirections : Nat := 10

/-- The requests that somebody has seen, in order, and the last answer. -/
structure Exchange where
  /-- The URLs. -/
  requests : List String
  /-- The answer. -/
  answer : Option Response
  deriving DecidableEq, Repr

namespace Network

/-- The network of some replies, in which every text is a URL as it stands. -/
def ofReplies (reply : String → Reply) : Network where
  url? := some
  join? _ := some
  reply

instance : Coe (String → Reply) Network := ⟨ofReplies⟩

/-- The network without any connection. -/
def unreachable : Network := ofReplies fun _ => .unreachable

variable (net : Network)

/-- Sends a request, and follows a number of redirections at most.  An answer that refers to no URL
is the last one, whatever its status. -/
def follow (url : String) (redirections : Nat) : Exchange :=
  match net.reply url with
  | .unreachable => ⟨[], none⟩
  | .dropped => ⟨[url], none⟩
  | .answered r =>
    match r.redirection?.bind (net.join? url), redirections with
    | none, _ => ⟨[url], some r⟩
    | some _, 0 => ⟨[url], none⟩
    | some next, n + 1 =>
      let e := follow next n
      ⟨url :: e.requests, e.answer⟩

/-- Sends a request, if the text stands for a URL. -/
def get (text : String) : Exchange :=
  match net.url? text with
  | none => ⟨[], none⟩
  | some url => net.follow url net.maxRedirections

end Network

/-- The document that an exchange has brought, unless it is an error. -/
def Exchange.document? (e : Exchange) : Option Json.Document :=
  (e.answer.filter (!·.isError)).map fun r => .ofOctets r.body

/-- What has been made of some requests. -/
structure Fetched (α : Type) where
  /-- The URLs that somebody has been asked for, in order. -/
  requests : List String
  /-- The events on the way. -/
  events : List Event
  /-- The result. -/
  result : Except Failure α

end BearerAuth
