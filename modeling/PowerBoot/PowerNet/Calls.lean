import PowerBoot.Memory.Overlay
import PowerBoot.PowerNet.State

/-! The functions of PowerNet, statement by statement. Every printf is a yield,
because the console gives up the processor after each write. -/

namespace PowerBoot.PowerNet
open Coop Code Memory

/-- Conversion of an int descriptor to the 32-bit size_t key of `openSockets`. -/
def key (fd : Int) : Nat := (fd % 2 ^ 32).toNat

abbrev perform (o : Op) : Shim o.Reply := Code.call (S := signature) o

def printf : Shim Unit := pause

/-- `openSockets.at`, which throws std::out_of_range on a missing key. -/
def openSocketsAt (fd : Nat) : Shim Ptr := do
  match ← perform (.lookup fd) with
  | some socket => return socket
  | none => .throw

def flatten (v : List Bytes) : Bytes := v.flatten

/-- The thread that is disposed is the one `main_thread_id` names, whichever
thread reports the error. -/
def macErrorThrow (format : String) (arguments : List String) : Shim Unit := do
  perform (.report format arguments)
  printf
  let mainThreadId ← perform .mainThreadId
  stop mainThreadId
  pause

def throwOsErr (file : String) (line : Nat) (func : String) (err : Int) : Shim Unit :=
  match osErrFormat err with
  | some format => macErrorThrow format [func, file, toString line]
  | none => return ()

/-- The macro ThrowOSErr: its argument is converted to OSErr on the way. -/
def throwOSErr (file : String) (line : Nat) (func : String) (status : Int) : Shim Unit :=
  throwOsErr file line func (toOSErr status)

/-- `ThrowOSErr(f(s->endpoint))`. -/
def checked (line : Nat) (func : String) (function : OTFunction) (s : Ptr) : Shim Unit := do
  let endpoint := (← perform (.load s)).endpoint
  throwOSErr "connect.cpp" line func (← perform (.openTransport function endpoint))

def SOCK_STREAM : Int := 1
def SOCK_DGRAM : Int := 2

/-- The switch on the socket type. -/
def configure (skt : Ptr) (type : Int) : Shim Unit :=
  if type = SOCK_STREAM then do
    let _ ← perform (.openTransport .createConfiguration none)
    perform (.assign skt (.cfg "tcp"))
  else if type = SOCK_DGRAM then do
    let _ ← perform (.openTransport .createConfiguration none)
    perform (.assign skt (.cfg "udp"))
  else
    macErrorThrow "Unknown socket type \"%d\" passed" [toString type]

def socket (_domain type _protocol : Int) : Shim Int := do
  let err := toOSErr (← perform (.openTransport .initOpenTransport none))
  when (err ≠ noErr) (macErrorThrow "Error initializing OpenTransport: %d\n" [toString err])
  pause
  let skt ← perform .newSocket
  pause
  configure skt type
  pause
  let cfg := (← perform (.load skt)).cfg
  let (endpoint, otEndpointStatus) ← perform (.otOpenEndpoint cfg)
  perform (.assign skt (.endpoint endpoint))
  throwOSErr "socket.cpp" 35 "OTEndpointStatus" otEndpointStatus
  pause
  let endpoint := (← perform (.load skt)).endpoint
  let _ ← perform (.openTransport .useSyncIdleEvents endpoint)
  pause
  let socketId ← perform .size
  perform (.assign skt (.id socketId))
  perform (.insert socketId skt)
  pause
  return socketId

/-- The new thread is ready when NewThread returns, and first runs at a yield. -/
def connect (socket : Int) (address : SockaddrIn) (addressLen : Nat) : Shim Int := do
  let connectThreadId ← start (S := signature) (Entry.connectThread { socket, address, addressLen })
  repeatWhile (do return !(← perform .finished)) pause
  stop connectThreadId
  pause
  return 0

def connectThread (params : ConnectThreadParams) : Shim Unit := do
  let socket := params.socket
  let address := params.address
  let s ← openSocketsAt (key socket)
  pause
  perform (.assign s (.halting true))
  checked 74 "OTSetBlocking(s->endpoint)" .setBlocking s
  checked 75 "OTSetSynchronous(s->endpoint)" .setSynchronous s
  checked 77 "OTBind(s->endpoint, nil, nil)" .bind s
  checked 79 "OTSetNonBlocking(s->endpoint)" .setNonBlocking s
  checked 80 "OTSetAsynchronous(s->endpoint)" .setAsynchronous s
  let endpoint := (← perform (.load s)).endpoint
  let installed ← perform (.otInstallNotifier endpoint s)
  throwOSErr "connect.cpp" 82 "OTInstallNotifier(s->endpoint, notifier, s)" installed
  pause
  let _ ← perform (.openTransport .initInetAddress none)
  pause
  perform (.assign s (.sndCall address))
  -- the flag is cleared only here, after four yields of this thread
  perform (.setFinished false)
  perform (.assign s (.halting true))
  let target ← perform (.load s)
  let otConnectStatus ← perform (.otConnect target.endpoint target.sndCall)
  pause
  when (otConnectStatus ≠ kOTNoDataErr) (throwOSErr "connect.cpp" 100 "OTConnectStatus" otConnectStatus)
  pause

/-- What a turn of the loop of T_DATA makes of the answer of OTRcv. -/
def rcvAnswered (s : Ptr) (dataBuf : Bytes) : Int × Bytes × OTFlags → Shim (Bytes ⊕ Unit)
  | (ret, moved, dataFlags) => do
    let dataBuf := overwrite dataBuf moved
    let otRcvResult := toOSErr ret
    if otRcvResult = kOTNoDataErr then
      perform (.assign s (.pushRecvBuf dataBuf))
      return .inr ()
    else
      throwOsErr "connect.cpp" 166 "OTRcvResult" otRcvResult
      pause
      when (dataFlags = .timedOut) (macErrorThrow "Timed out recieving data" [])
      when dataFlags.remark.isSome printf
      pause
      return .inl dataBuf

def turn (s : Ptr) (dataSize : Nat) (dataBuf : Bytes) : Shim (Bytes ⊕ Unit) := do
  let endpoint := (← perform (.load s)).endpoint
  rcvAnswered s dataBuf (← perform (.otRcv endpoint dataSize))

/-- The `for (;;)` of the T_DATA case. One buffer serves every OTRcv, and it is
kept, as long as it was measured before the loop, once no data is left. -/
def drain (s : Ptr) (dataSize : Nat) (dataBuf : Bytes) : Shim Unit :=
  iterate (turn s dataSize) dataBuf

/-- The T_DATA case. It reads only where a `recv` is said to wait. -/
def receiveData (s : Ptr) : Shim Unit := do
  let dataEndpoint := (← perform (.load s)).endpoint
  let dataSize := (← perform (.openTransport .countDataBytes dataEndpoint)).toNat
  let dataBuf := List.replicate dataSize 0
  printf
  let recvHalt ← perform (.recvHalt s)
  when recvHalt (drain s dataSize dataBuf)

/-- The switch on the event code. -/
def handle (s : Ptr) (endpoint : Option EndpointRef) (code : OTEventCode) : Shim Unit :=
  match code with
  | .tConnect => do
    throwOSErr "connect.cpp" 140 "OTRcvConnect(endpoint, call)" (← perform (.openTransport .rcvConnect endpoint))
    let _ ← perform (.openTransport .inetAddressToName none)
    printf
  | .tData | .tExData => receiveData s
  | .tDisconnect => do
    let _ ← perform (.openTransport .rcvDisconnect endpoint)
    macErrorThrow "Disconnected: %s\n" ["discon->reason"]
  | other =>
    match unhandled other with
    | some format => macErrorThrow format []
    | none => return ()

/-- Whatever the event, the flag of connect is set before the event is looked at. -/
def notifier (usrPtr : Ptr) (code : OTEventCode) (res : Int) : Shim Unit := do
  pause
  perform (.setFinished true)
  throwOSErr "connect.cpp" 112 "res" res
  let s := usrPtr
  let endpoint := (← perform (.load s)).endpoint
  handle s endpoint code
  perform (.assign s (.halting false))
  pause

/-- The result comes with the caller's buffer as the call leaves it. -/
def recv (fd : Int) (nbytes : Nat) (_flags : Int) : Shim (Int × Bytes) := do
  let buf := List.replicate nbytes 0
  let s ← openSocketsAt (key fd)
  pause
  let endpoint := (← perform (.load s)).endpoint
  let (ret, moved, _) ← perform (.otRcv endpoint nbytes)
  let buf := overwrite buf moved
  if ret ≠ kOTNoDataErr then
    perform (.assign s (.recvHalt false))
    return (ret, buf)
  else
    printf
    repeatWhile (perform (.recvHalt s)) pause
    let fin := flatten (← perform (.load s)).recvBuf
    let buf := overwrite buf fin
    perform (.assign s .clearRecvBuf)
    printf
    -- `fin.size() >= 0` holds of every size, so -1 is never returned
    return (fin.length, buf)

/-- The end of a refused `send`. -/
def sndBlocked (s : Ptr) : Shim Int := do
  repeatWhile (perform (.sendHalt s)) pause
  let placeholder := flatten (← perform (.load s)).sendBuf
  perform (.assign s .clearSendBuf)
  pause
  return placeholder.length

/-- What a `send` makes of the answer of OTSnd. -/
def sndAnswered (s : Ptr) (ret : Int) : Shim Int := do
  if ret ≠ kOTFlowErr then
    perform (.assign s (.sendHalt false))
    return ret
  else
    printf
    sndBlocked s

def send (fd : Int) (buf : Bytes) (_flags : Int) : Shim Int := do
  let s ← openSocketsAt (key fd)
  pause
  if buf.length = 0 then
    return 0
  else
    perform (.assign s (.sendHalt true))
    let endpoint := (← perform (.load s)).endpoint
    sndAnswered s (← perform (.otSnd endpoint buf))

/-- One of the two waits of select, while `halt` is set. The first word of the set
is taken for the descriptor itself. -/
def waitFor (fds : Option FdSet) (halt : Ptr → Shim Bool) : Shim Unit :=
  match fds with
  | some fds => do
    let s ← openSocketsAt fds.firstWord
    repeatWhile (halt s) pause
  | none => return ()

def select (_nfds : Int) (readfds writefds : Option FdSet) : Shim Int := do
  waitFor readfds fun reads => perform (.recvHalt reads)
  waitFor writefds fun writes => perform (.sendHalt writes)
  return 0

def body : Entry → Shim Value
  | .socket domain type protocol => do return .int (← socket domain type protocol)
  | .connect socket address addressLen => do return .int (← connect socket address addressLen)
  | .connectThread params => do
    connectThread params
    return .int 0
  | .notifier _ usrPtr code res => do
    notifier usrPtr code res
    return .none
  | .recv fd nbytes flags => do
    let (result, buf) ← recv fd nbytes flags
    return .received result buf
  | .send fd buf flags => do return .int (← send fd buf flags)
  | .select nfds readfds writefds => do return .int (← select nfds readfds writefds)

/-- PowerNet as a machine of cooperative threads. -/
@[reducible] def kernel : Kernel signature where
  State := Net
  Input := Input
  Value := Value
  body := body
  exec := exec
  called := called
  spawned := fun thread child entry net => net.record (.spawned thread child entry)
  disposed := fun thread other net => net.record (.disposed thread other)
  exited := fun _ net => net
  returned := fun thread value net => net.record (.returned thread value)
  threw := fun thread net => net.record (.threw thread)
  environment := environment

/-- No sockets yet, and the main thread is one of the threads that may call. -/
def initial (mainThreadId count : Nat) : World kernel := World.initial { mainThreadId } count

/-- `thread` runs alone, with the inputs of its sections. -/
def resuming (thread : ThreadId) (sections : List (List Input)) : List (Action kernel) := World.alone thread sections

/-- `thread` makes a call and then runs alone. -/
def calling (thread : ThreadId) (entry : Entry) (sections : List (List Input)) : List (Action kernel) :=
  .call thread entry :: resuming thread sections

def opening (thread : ThreadId) : List (Action kernel) :=
  calling thread (.socket 2 SOCK_STREAM 0) [[.status noErr, .none], [.none, .none], [.status noErr, .none, .none],
    [.none, .status noErr, .none, .none], [.none, .status noErr, .none], [.none, .none, .none, .none], [.none]]

/-- Thread 1 calls `connect`, and thread 3 issues OTConnect. -/
def requesting : List (Action kernel) :=
  calling 1 (.connect 0 ⟨80, 1⟩ 16) [[.none, .none, .none, .none]] ++
    resuming 3 [[.none, .none],
      [.none, .none, .status noErr, .none, .status noErr, .none, .status noErr, .none, .status noErr, .none,
        .status noErr, .none, .status noErr, .none],
      [.status noErr, .none], [.none, .none, .none, .none, .status kOTNoDataErr, .none], [.none], [.none]]

/-- T_CONNECT is delivered on thread 2, and `connect` returns. -/
def confirming : List (Action kernel) :=
  calling 2 (.notifier 0 0 .tConnect noErr)
    [[.none], [.none, .none, .status noErr, .status noErr, .none], [.none, .none], [.none]] ++
    resuming 1 [[.none, .none, .none, .none], [.none]]

end PowerBoot.PowerNet
