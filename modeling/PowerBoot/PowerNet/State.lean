import PowerBoot.Coop.World
import PowerBoot.PowerNet.OpenTransport

/-! The memory PowerNet's threads share, and the operations on it. Open Transport
is outside the repository: its endpoints are modelled by the bytes they hold, and
the status of every call is an input of the machine. -/

namespace PowerBoot.PowerNet
open Coop

abbrev Bytes := List UInt8
abbrev Ptr := Nat
abbrev EndpointRef := Nat

/-- 32-bit words of the `fd_set` of sys/select.h, 1024 bits in all. -/
structure FdSet where
  fdsBits : Vector (BitVec 32) 32

/-- `fds_bits[0]`. -/
def FdSet.firstWord (fds : FdSet) : Nat := fds.fdsBits[0].toNat

structure SockaddrIn where
  sinPort : Nat
  sAddr : Nat

structure ConnectThreadParams where
  socket : Int
  address : SockaddrIn
  addressLen : Nat

/-- `class Socket`. Its flags start out clear, because `new Socket()` clears the
members that have no initializer. -/
structure Socket where
  halting : Bool := false
  recvHalt : Bool := false
  sendHalt : Bool := false
  id : Nat := 0
  endpoint : Option EndpointRef := none
  cfg : Option String := none
  recvBuf : List Bytes := []
  sendBuf : List Bytes := []
  sndCall : Option SockaddrIn := none

/-- What Open Transport keeps for an endpoint: the bytes that arrived, those not
read yet, those it accepted for sending, and the Socket given to its notifier. -/
structure Endpoint where
  arrived : Bytes := []
  unread : Bytes := []
  accepted : Bytes := []
  notifier : Option Ptr := none
  closed : Bool := false

def Endpoint.arrive (bytes : Bytes) (held : Endpoint) : Endpoint :=
  { held with arrived := held.arrived ++ bytes, unread := held.unread ++ bytes }

def Endpoint.discard (count : Nat) (held : Endpoint) : Endpoint := { held with unread := held.unread.drop count }

def Endpoint.accept (bytes : Bytes) (held : Endpoint) : Endpoint := { held with accepted := held.accepted ++ bytes }

def Endpoint.close (held : Endpoint) : Endpoint := { held with closed := true }

/-- The entry points of PowerNet. A notifier call is the delivery of an event for
an endpoint; it receives the context pointer installed with the notifier. -/
inductive Entry where
  | socket (domain type protocol : Int)
  | connect (socket : Int) (address : SockaddrIn) (addressLen : Nat)
  | connectThread (params : ConnectThreadParams)
  | notifier (endpoint : EndpointRef) (usrPtr : Ptr) (code : OTEventCode) (res : Int)
  | recv (fd : Int) (nbytes : Nat) (flags : Int)
  | send (fd : Int) (buf : Bytes) (flags : Int)
  | select (nfds : Int) (readfds writefds : Option FdSet)

/-- What a call returns. For `recv` the count comes with the caller's buffer. -/
inductive Value where
  | int (result : Int)
  | received (result : Int) (buf : Bytes)
  | none

/-- Open Transport calls of which only the status matters here. -/
inductive OTFunction where
  | initOpenTransport | createConfiguration | useSyncIdleEvents | setBlocking | setSynchronous | bind
  | setNonBlocking | setAsynchronous | initInetAddress | rcvConnect | inetAddressToName | countDataBytes
  | rcvDisconnect
deriving DecidableEq

inductive OTCall where
  | status (function : OTFunction) (endpoint : Option EndpointRef) (result : Int)
  | openEndpoint (endpoint : Option EndpointRef) (result : Int)
  | installNotifier (endpoint : Option EndpointRef) (result : Int)
  | connect (endpoint : Option EndpointRef) (address : Option SockaddrIn) (result : Int)
  | rcv (endpoint : Option EndpointRef) (nbytes : Nat) (result : Int) (moved : Bytes)
  | snd (endpoint : Option EndpointRef) (offered : Bytes) (result : Int)

/-- What happened, in order. Every event but the last two names the thread that
made it happen. -/
inductive Event where
  | called (thread : ThreadId) (entry : Entry)
  | spawned (thread child : ThreadId) (entry : Entry)
  | returned (thread : ThreadId) (value : Value)
  | threw (thread : ThreadId)
  | disposed (thread other : ThreadId)
  | created (thread : ThreadId) (socket : Ptr)
  | inserted (thread : ThreadId) (key : Nat) (socket : Ptr)
  | lookedUp (thread : ThreadId) (key : Nat) (found : Option Ptr)
  | readRecvHalt (thread : ThreadId) (socket : Ptr)
  | readSendHalt (thread : ThreadId) (socket : Ptr)
  | setFinished (thread : ThreadId) (value : Bool)
  | openTransport (thread : ThreadId) (call : OTCall)
  | reported (thread : ThreadId) (format : String) (arguments : List String)
  | arrived (endpoint : EndpointRef) (bytes : Bytes)
  | closed (endpoint : EndpointRef)

/-- The thread an event belongs to; the environment's events have none. -/
def Event.thread : Event → Option ThreadId
  | .called thread _ | .spawned thread _ _ | .returned thread _ | .threw thread | .disposed thread _
  | .created thread _ | .inserted thread _ _ | .lookedUp thread _ _ | .readRecvHalt thread _
  | .readSendHalt thread _ | .setFinished thread _ | .openTransport thread _ | .reported thread _ _ => some thread
  | .arrived _ _ | .closed _ => none

inductive Assign where
  | halting (value : Bool)
  | recvHalt (value : Bool)
  | sendHalt (value : Bool)
  | id (value : Nat)
  | endpoint (value : Option EndpointRef)
  | cfg (value : String)
  | sndCall (value : SockaddrIn)
  | pushRecvBuf (chunk : Bytes)
  | clearRecvBuf
  | clearSendBuf

def Assign.apply (member : Assign) (socket : Socket) : Socket :=
  match member with
  | .halting value => { socket with halting := value }
  | .recvHalt value => { socket with recvHalt := value }
  | .sendHalt value => { socket with sendHalt := value }
  | .id value => { socket with id := value }
  | .endpoint value => { socket with endpoint := value }
  | .cfg value => { socket with cfg := some value }
  | .sndCall value => { socket with sndCall := some value }
  | .pushRecvBuf chunk => { socket with recvBuf := socket.recvBuf ++ [chunk] }
  | .clearRecvBuf => { socket with recvBuf := [] }
  | .clearSendBuf => { socket with sendBuf := [] }

inductive Op where
  | mainThreadId
  | newSocket
  | load (socket : Ptr)
  | recvHalt (socket : Ptr)
  | sendHalt (socket : Ptr)
  | assign (socket : Ptr) (member : Assign)
  | lookup (key : Nat)
  | size
  | insert (key : Nat) (socket : Ptr)
  | finished
  | setFinished (value : Bool)
  | report (format : String) (arguments : List String)
  | openTransport (function : OTFunction) (endpoint : Option EndpointRef)
  | otOpenEndpoint (cfg : Option String)
  | otInstallNotifier (endpoint : Option EndpointRef) (usrPtr : Ptr)
  | otConnect (endpoint : Option EndpointRef) (address : Option SockaddrIn)
  | otRcv (endpoint : Option EndpointRef) (nbytes : Nat)
  | otSnd (endpoint : Option EndpointRef) (buf : Bytes)

@[reducible] def Op.Reply : Op → Type
  | .mainThreadId => ThreadId
  | .newSocket => Ptr
  | .load _ => Socket
  | .recvHalt _ | .sendHalt _ | .finished => Bool
  | .lookup _ => Option Ptr
  | .size => Nat
  | .assign .. | .insert .. | .setFinished _ | .report .. => Unit
  | .openTransport .. | .otInstallNotifier .. | .otConnect .. | .otSnd .. => Int
  | .otOpenEndpoint _ => Option EndpointRef × Int
  | .otRcv .. => Int × Bytes × OTFlags

@[reducible] def signature : Signature := { Op, Reply := Op.Reply, Entry }

abbrev Shim := Code signature

/-- The choices of Open Transport and of the peers. -/
inductive Input where
  | none
  | status (result : Int)
  | moved (count : Nat) (flags : OTFlags)
  | arrive (endpoint : EndpointRef) (bytes : Bytes)
  | close (endpoint : EndpointRef)

structure Net where
  mainThreadId : ThreadId
  heap : List Socket := []
  openSockets : List (Nat × Ptr) := []
  endpoints : List Endpoint := []
  finished : Bool := false
  log : List Event := []

namespace Net

def record (event : Event) (net : Net) : Net := { net with log := net.log ++ [event] }

/-- `openSockets.at`, without its exception. -/
def lookup (key : Nat) (net : Net) : Option Ptr := net.openSockets.lookup key

/-- `unordered_map::insert` leaves an existing entry as it is. -/
def insert (key : Nat) (socket : Ptr) (net : Net) : Net :=
  if (net.lookup key).isSome then net else { net with openSockets := net.openSockets ++ [(key, socket)] }

def updateEndpoint (endpoint : EndpointRef) (change : Endpoint → Endpoint) (net : Net) : Net :=
  { net with endpoints := net.endpoints.modify endpoint change }

def endpointAt (socket : Ptr) (net : Net) : Option EndpointRef := net.heap[socket]?.bind Socket.endpoint

end Net

/-- OTRcv moves the next bytes into the buffer, or fails and moves nothing. -/
def otRcv (endpoint : Option EndpointRef) (nbytes : Nat) : Input → Net → Option ((Int × Bytes × OTFlags) × Net)
  | .moved count flags, net => do
    let ref ← endpoint
    let held ← net.endpoints[ref]?
    if count ≤ nbytes ∧ count ≤ held.unread.length ∧ count < 2 ^ 31 then
      return ((count, held.unread.take count, flags),
        net.updateEndpoint ref (.discard count))
    else none
  | .status result, net => if result < 0 then some ((result, [], .other), net) else none
  | _, _ => none

/-- OTSnd accepts the first bytes offered, or fails and accepts nothing. -/
def otSnd (endpoint : Option EndpointRef) (buf : Bytes) : Input → Net → Option (Int × Net)
  | .moved count _, net => do
    let ref ← endpoint
    let _ ← net.endpoints[ref]?
    if count ≤ buf.length ∧ count < 2 ^ 31 then
      return (count, net.updateEndpoint ref (.accept (buf.take count)))
    else none
  | .status result, net => if result < 0 then some (result, net) else none
  | _, _ => none

/-- What an operation does when `thread` executes it. Events are recorded for the
operations that the properties speak about. -/
def exec (thread : ThreadId) : (o : Op) → Input → Net → Option (o.Reply × Net)
  | .mainThreadId, _, net => some (net.mainThreadId, net)
  | .newSocket, _, net =>
    some (net.heap.length, { net with heap := net.heap ++ [({} : Socket)] }.record (.created thread net.heap.length))
  | .load socket, _, net => (net.heap[socket]?).map (·, net)
  | .recvHalt socket, _, net =>
    (net.heap[socket]?).map fun s => (s.recvHalt, net.record (.readRecvHalt thread socket))
  | .sendHalt socket, _, net =>
    (net.heap[socket]?).map fun s => (s.sendHalt, net.record (.readSendHalt thread socket))
  | .assign socket member, _, net =>
    (net.heap[socket]?).map fun _ => ((), { net with heap := net.heap.modify socket member.apply })
  | .lookup key, _, net => some (net.lookup key, net.record (.lookedUp thread key (net.lookup key)))
  | .size, _, net => some (net.openSockets.length, net)
  | .insert key socket, _, net => some ((), (net.insert key socket).record (.inserted thread key socket))
  | .finished, _, net => some (net.finished, net)
  | .setFinished value, _, net => some ((), { net with finished := value }.record (.setFinished thread value))
  | .report format arguments, _, net => some ((), net.record (.reported thread format arguments))
  | .openTransport function endpoint, .status result, net =>
    some (result, net.record (.openTransport thread (.status function endpoint result)))
  | .otOpenEndpoint _, .status result, net =>
    let opened := if result = noErr then some net.endpoints.length else none
    let endpoints := if result = noErr then net.endpoints ++ [{}] else net.endpoints
    some ((opened, result), { net with endpoints }.record (.openTransport thread (.openEndpoint opened result)))
  | .otInstallNotifier endpoint usrPtr, .status result, net =>
    let installed := match endpoint with
      | some ref => if result = noErr then net.updateEndpoint ref ({ · with notifier := some usrPtr }) else net
      | none => net
    some (result, installed.record (.openTransport thread (.installNotifier endpoint result)))
  | .otConnect endpoint address, .status result, net =>
    some (result, net.record (.openTransport thread (.connect endpoint address result)))
  | .otRcv endpoint nbytes, input, net => (otRcv endpoint nbytes input net).map fun (reply, after) =>
    (reply, after.record (.openTransport thread (.rcv endpoint nbytes reply.1 reply.2.1)))
  | .otSnd endpoint buf, input, net => (otSnd endpoint buf input net).map fun (result, after) =>
    (result, after.record (.openTransport thread (.snd endpoint buf result)))
  | _, _, _ => none

/-- Calls that may be made from outside. A notifier only runs where one is
installed, and connect_thread is started by connect alone. -/
def called (thread : ThreadId) (entry : Entry) (net : Net) : Option Net :=
  match entry with
  | .connectThread _ => none
  | .notifier endpoint usrPtr _ _ =>
    if net.endpoints[endpoint]?.bind Endpoint.notifier = some usrPtr then some (net.record (.called thread entry))
    else none
  | _ => some (net.record (.called thread entry))

/-- Bytes arrive from the peer until it closes the stream. -/
def environment : Input → Net → Option Net
  | .arrive endpoint bytes, net => do
    let held ← net.endpoints[endpoint]?
    if held.closed then none
    else return (net.updateEndpoint endpoint (.arrive bytes)).record (.arrived endpoint bytes)
  | .close endpoint, net =>
    some ((net.updateEndpoint endpoint .close).record (.closed endpoint))
  | _, _ => none

end PowerBoot.PowerNet
