import CortenDesk.Lib.Runs
import Mathlib.Logic.Function.Basic

/-!
The frames of a WebSocket and their consumers: the promises of `next()`, the async iterators over
them, and the callback of `onMessage`. A callback may do anything that its holder may, so what it
does is a list of actions for each time it is called; what an `onClose` callback does comes after
the close as actions of its own.
-/
namespace CortenDesk
namespace WebClient

/-- What a frame carries: `toBytes` takes no text. -/
inductive Payload (Bytes : Type)
  | binary (bytes : Bytes)
  | text

def toBytes {Bytes : Type} : Payload Bytes → Except String Bytes
  | .binary bytes => .ok bytes
  | .text => .error "unexpected websocket frame payload: [object String]"

/-- A promise of `next()`, with the iterator whose body awaits it. -/
structure Promised where
  id : Nat
  reader : Option Nat
  deriving DecidableEq

inductive Consumer
  | promise (p : Promised)
  | callback (cb : Nat)
  deriving DecidableEq

/-- A call on an async generator that it has yet to answer. -/
inductive Request
  | next
  | return
  deriving DecidableEq

/-- The async generator that `[Symbol.asyncIterator]()` makes. An answer is the frame yielded, or
`none` once it is done. -/
structure FrameIterator (Bytes : Type) where
  requests : List Request := []
  awaits : Option Nat := none
  returned : Bool := false
  answers : List (Option Bytes) := []

/-- What a consumer can do. -/
inductive StreamAction
  | next
  | request (g : Nat) (request : Request)
  | onMessage (cb : Nat)
  | close

inductive StreamEvent (Bytes : Type)
  | message (data : Payload Bytes)
  | closed
  | action (a : StreamAction)
  | resume (g : Nat)

/-- The stream, with the frames it has received and to whom they went. A promise is settled with a
frame, or with `none` when it is rejected. -/
structure WsStream (Bytes : Type) where
  queue : List Bytes := []
  waiters : List Promised := []
  msgCb : Option Nat := none
  closed : Bool := false
  promises : Nat := 0
  settled : Nat → Option (Option Bytes) := fun _ => none
  iterators : Nat → FrameIterator Bytes := fun _ => {}
  invocations : Nat := 0
  handed : List (Consumer × Bytes) := []
  received : List Bytes := []

namespace WsStream
section
variable {Bytes : Type} (reacts : Nat → List StreamAction)

def resolve (s : WsStream Bytes) (p : Promised) (b : Bytes) : WsStream Bytes :=
  { s with
    settled := Function.update s.settled p.id (some (some b))
    handed := s.handed ++ [(.promise p, b)] }

def reject (s : WsStream Bytes) (p : Promised) : WsStream Bytes :=
  { s with settled := Function.update s.settled p.id (some none) }

def next (s : WsStream Bytes) (reader : Option Nat) : WsStream Bytes :=
  let p : Promised := ⟨s.promises, reader⟩
  let s := { s with promises := s.promises + 1 }
  match s.queue with
  | b :: queue => { s with queue }.resolve p b
  | [] => if s.closed then s.reject p else { s with waiters := s.waiters ++ [p] }

def putIterator (s : WsStream Bytes) (g : Nat) (it : FrameIterator Bytes) : WsStream Bytes :=
  { s with iterators := Function.update s.iterators g it }

/-- The body of an iterator that has run to a yield, or has not begun: it goes on to the next
frame if one is asked for. -/
def advance (s : WsStream Bytes) (g : Nat) (it : FrameIterator Bytes) : WsStream Bytes :=
  match it.requests with
  | [] => s.putIterator g { it with awaits := none }
  | .return :: requests =>
      s.putIterator g
        { requests := [], awaits := none, returned := true
          answers := it.answers ++ none :: requests.map fun _ => none }
  | .next :: _ => (s.putIterator g { it with awaits := some s.promises }).next (some g)

def request (s : WsStream Bytes) (g : Nat) (request : Request) : WsStream Bytes :=
  let it := s.iterators g
  if it.returned then s.putIterator g { it with answers := it.answers ++ [none] }
  else
    let it := { it with requests := it.requests ++ [request] }
    if it.awaits.isSome then s.putIterator g it else s.advance g it

/-- The body of an iterator after its await, once the promise is settled. -/
def resume (s : WsStream Bytes) (g : Nat) : WsStream Bytes :=
  let it := s.iterators g
  match it.awaits.bind s.settled with
  | none => s
  | some (some b) =>
      s.advance g { it with requests := it.requests.tail, answers := it.answers ++ [some b] }
  | some none =>
      s.putIterator g
        { requests := [], awaits := none, returned := true
          answers := it.answers ++ it.requests.map fun _ => none }

/-- `close`, and the events `close` and `error` of the socket. -/
def teardown (s : WsStream Bytes) : WsStream Bytes :=
  if s.closed then s
  else s.waiters.foldl reject { s with closed := true, waiters := [] }

/-- A callback is called with a frame. -/
def called (s : WsStream Bytes) (cb : Nat) (b : Bytes) : WsStream Bytes :=
  { s with invocations := s.invocations + 1, handed := s.handed ++ [(.callback cb, b)] }

/-- An action, given the loop of `onMessage`. -/
def perform (drain : Nat → WsStream Bytes → WsStream Bytes) (s : WsStream Bytes) :
    StreamAction → WsStream Bytes
  | .next => s.next none
  | .request g request => s.request g request
  | .onMessage cb => drain cb { s with msgCb := some cb }
  | .close => s.teardown

/-- The loop of `onMessage`. Each turn takes a frame, so that their number is fuel enough, also for
the loops inside. -/
def drain : Nat → Nat → WsStream Bytes → WsStream Bytes
  | 0, _, s => s
  | fuel + 1, cb, s =>
      match s.queue with
      | [] => s
      | b :: queue =>
          if s.msgCb = some cb then
            drain fuel cb
              ((reacts s.invocations).foldl (perform (drain fuel)) ({ s with queue }.called cb b))
          else s

def act (s : WsStream Bytes) (a : StreamAction) : WsStream Bytes :=
  s.perform (fun cb s => drain reacts s.queue.length cb s) a

def deliver (s : WsStream Bytes) (b : Bytes) : WsStream Bytes :=
  let s := { s with received := s.received ++ [b] }
  match s.waiters with
  | waiter :: waiters => { s with waiters }.resolve waiter b
  | [] =>
      match s.msgCb with
      | some cb => (reacts s.invocations).foldl (act reacts) (s.called cb b)
      | none => { s with queue := s.queue ++ [b] }

def step (s : WsStream Bytes) : StreamEvent Bytes → WsStream Bytes
  | .message data =>
      match toBytes data with
      | .ok b => s.deliver reacts b
      | .error _ => s
  | .closed => s.teardown
  | .action a => s.act reacts a
  | .resume g => s.resume g

end
end WsStream
end WebClient
end CortenDesk
