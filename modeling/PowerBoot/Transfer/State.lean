import PowerBoot.Coop.World
import PowerBoot.Transfer.Libssh2
import Mathlib.Logic.Function.Basic

/-! The memory of the SFTP client, and the operations on it. The members of an object
that nothing initializes hold whatever its storage held before. -/

namespace PowerBoot.Transfer
open Coop

/-- The two builds: with `__RETRO__` there are cooperative threads, without it none. -/
inductive Build where
  | retro
  | direct (linux : Bool)
deriving DecidableEq

structure ConnectionOptions where
  addr : String
  port : Nat
  username : String
  password : String
  pubkey : String
  privkey : String

inductive ReadThreadCommand where
  | wait | read | exit
deriving DecidableEq

inductive ReadThreadState where
  | uninitialized | open_ | cleanup | done
deriving DecidableEq

/-- `class SFTP`, without the members that nothing reads again. Its `rc` is kept apart. -/
structure Sftp where
  sock : Int
  sftpPointer : Option Ptr
  sftpHandle : Option Ptr
  channel : Option Ptr
  recvBuffer : Option Ptr
  userauthlist : Option String
  readThreadCommand : ReadThreadCommand := .wait
  readThreadState : ReadThreadState := .uninitialized
  session : Option Ptr := none

/-- What libssh2 keeps for the object: its last error number, and the answers it is going
to give, in order for each function. -/
structure Session where
  errno : Int := LIBSSH2_ERROR_NONE
  script : List Answer := []

/-- The objects with a member `rc`: an SFTP object, or the wrapper of a handle. -/
inductive Owner where
  | sftp (this : Ptr)
  | handle (handle : Ptr)
deriving DecidableEq

/-- Calls of the library, with what the client passes. A path is the bytes of a string,
which end at the first NUL where no length is passed along. -/
inductive Call where
  | init
  | sessionInit
  | sessionSetBlocking (blocking : Int)
  | sessionDisconnect
  | sessionFree
  | exit
  | socket
  | inetAddr (addr : String)
  | connect (sock : Int) (hostaddr port : Nat)
  | shutdown (sock : Int)
  | close (sock : Int)
  | sessionHandshake (sock : Int)
  | hostkeyHash
  | userauthList (username : String) (length : Nat)
  | userauthPublickeyFromfileEx (username publickey privatekey passphrase : String)
  | userauthPassword (username password : String)
  | sftpInit
  | sessionLastError
  | channelOpenSession
  | channelEof (channel : Option Ptr)
  | channelRead (channel buffer : Option Ptr) (length : Nat)
  | sftpLstat (sftp : Option Ptr) (path : Bytes) (attrs : Attributes)
  | sftpMkdir (sftp : Option Ptr) (path : Bytes) (mode : Int)
  | sftpOpenEx (sftp : Option Ptr) (filename : Bytes) (length : Nat) (flags mode openType : Int)
  | sftpRename (sftp : Option Ptr) (sourcefile destfile : Bytes)
  | sftpRmdir (sftp : Option Ptr) (path : Bytes)
  | sftpSetstat (sftp : Option Ptr) (path : Bytes) (attrs : Attributes)
  | sftpShutdown (sftp : Option Ptr)
  | sftpStat (sftp : Option Ptr) (path : Bytes)
  | sftpStatvfs (sftp : Option Ptr) (path : Bytes) (length : Nat)
  | sftpSymlinkEx (sftp : Option Ptr) (path : Bytes) (length : Nat) (target : Bytes) (size : Nat) (linkType : Int)
  | sftpUnlinkEx (sftp : Option Ptr) (filename : Bytes) (length : Nat)
  | sftpRewind (handle : Ptr)
  | sftpSeek (handle : Ptr) (offset : Nat)
  | sftpTell (handle : Ptr)
  | sftpRead (handle : Ptr) (length : Nat)
  | sftpWrite (handle : Ptr) (data : Bytes)
  | sftpClose (handle : Option Ptr)
  | sftpFsetstat (handle : Ptr) (attrs : Attributes)
  | sftpFstat (handle : Ptr)
  | sftpFstatvfs (handle : Ptr)
  | sftpFsync (handle : Ptr)
  | sftpReaddirEx (handle : Ptr) (bufferLength longentryLength : Nat)
  | sftpClosedir (handle : Ptr)

@[reducible] def Call.function : Call → Function
  | .init => .init
  | .sessionInit => .sessionInit
  | .sessionSetBlocking _ => .sessionSetBlocking
  | .sessionDisconnect => .sessionDisconnect
  | .sessionFree => .sessionFree
  | .exit => .exit
  | .socket => .socket
  | .inetAddr _ => .inetAddr
  | .connect .. => .connect
  | .shutdown _ => .shutdown
  | .close _ => .close
  | .sessionHandshake _ => .sessionHandshake
  | .hostkeyHash => .hostkeyHash
  | .userauthList .. => .userauthList
  | .userauthPublickeyFromfileEx .. => .userauthPublickeyFromfileEx
  | .userauthPassword .. => .userauthPassword
  | .sftpInit => .sftpInit
  | .sessionLastError => .sessionLastError
  | .channelOpenSession => .channelOpenSession
  | .channelEof _ => .channelEof
  | .channelRead .. => .channelRead
  | .sftpLstat .. => .sftpLstat
  | .sftpMkdir .. => .sftpMkdir
  | .sftpOpenEx .. => .sftpOpenEx
  | .sftpRename .. => .sftpRename
  | .sftpRmdir .. => .sftpRmdir
  | .sftpSetstat .. => .sftpSetstat
  | .sftpShutdown _ => .sftpShutdown
  | .sftpStat .. => .sftpStat
  | .sftpStatvfs .. => .sftpStatvfs
  | .sftpSymlinkEx .. => .sftpSymlinkEx
  | .sftpUnlinkEx .. => .sftpUnlinkEx
  | .sftpRewind _ => .sftpRewind
  | .sftpSeek .. => .sftpSeek
  | .sftpTell _ => .sftpTell
  | .sftpRead .. => .sftpRead
  | .sftpWrite .. => .sftpWrite
  | .sftpClose _ => .sftpClose
  | .sftpFsetstat .. => .sftpFsetstat
  | .sftpFstat _ => .sftpFstat
  | .sftpFstatvfs _ => .sftpFstatvfs
  | .sftpFsync _ => .sftpFsync
  | .sftpReaddirEx .. => .sftpReaddirEx
  | .sftpClosedir _ => .sftpClosedir

/-- The file that a call opens or removes: the library takes as many bytes as it is told to. -/
def Call.path : Call → Option Bytes
  | .sftpOpenEx _ filename length _ _ _ | .sftpUnlinkEx _ filename length => some (filename.take length)
  | _ => none

/-- `class File`. -/
structure File where
  buffer : Bytes
  longentry : Bytes
  attributes : Attributes
deriving DecidableEq

/-- The operations of an SFTP object, of its file handles and of its directory handles. -/
inductive Operation where
  | lstat (path : Bytes) (attr : Attributes)
  | mkdir (path : Bytes) (mode : Int)
  | openfile (filename : Bytes) (flags mode : Int)
  | opendir (path : Bytes)
  | rename (sourcefile destfile : Bytes)
  | rmdir (path : Bytes)
  | setstat (path : Bytes) (attrs : Attributes)
  | shutdown
  | stat (path : Bytes)
  | statvfs (path : Bytes)
  | symlink (path target : Bytes)
  | readlink (path target : Bytes)
  | realpath (path target : Bytes)
  | unlink (filename : Bytes)
  | fileRead (handle : Ptr)
  | fileRewind (handle : Ptr)
  | fileSeek (handle : Ptr) (offset : Nat)
  | fileTell (handle : Ptr)
  | fileWrite (handle : Ptr) (buf : Bytes)
  | fileClose (handle : Ptr)
  | fileSetstat (handle : Ptr) (attr : Attributes)
  | fileStat (handle : Ptr)
  | fileStatvfs (handle : Ptr)
  | fileSync (handle : Ptr)
  | dirNext (handle : Ptr)
  | dirClose (handle : Ptr)

/-- The entry points of the client. The read thread is started by `connect` alone. -/
inductive Entry where
  | construct (this : Ptr)
  | connect (this : Ptr) (options : ConnectionOptions)
  | readThread (this : Ptr) (options : ConnectionOptions)
  | operate (this : Ptr) (operation : Operation)
  | destroy (this : Ptr)

inductive Value where
  | connected (this : Ptr)
  | none
  | handle (handle : Ptr)
  | attributes (attributes : Attributes)
  | statvfs (vfs : StatVFS)
  | bytes (bytes : Bytes)
  | offset (offset : Nat)
  | file (file : Option File)

inductive Event where
  | called (thread : ThreadId) (entry : Entry)
  | spawned (thread child : ThreadId) (entry : Entry)
  | returned (thread : ThreadId) (value : Value)
  | threw (thread : ThreadId)
  | disposed (thread other : ThreadId)
  | exited (thread : ThreadId)
  | library (thread : ThreadId) (this : Ptr) (call : Call) (answer : Answer)
  | waited (thread : ThreadId) (this : Ptr)
  | reported (thread : ThreadId) (format : String) (arguments : List String)
  | noMessage (thread : ThreadId)

inductive Assign where
  | initializers
  | session (value : Option Ptr)
  | sock (value : Int)
  | sftpPointer (value : Option Ptr)
  | channel (value : Option Ptr)
  | userauthlist (value : Option String)
  | readThreadState (value : ReadThreadState)

def Assign.apply (member : Assign) (sftp : Sftp) : Sftp :=
  match member with
  | .initializers => { sftp with readThreadCommand := .wait, readThreadState := .uninitialized, session := none }
  | .session value => { sftp with session := value }
  | .sock value => { sftp with sock := value }
  | .sftpPointer value => { sftp with sftpPointer := value }
  | .channel value => { sftp with channel := value }
  | .userauthlist value => { sftp with userauthlist := value }
  | .readThreadState value => { sftp with readThreadState := value }

/-- What `select` does next. -/
inductive Select where
  | halts
  | returns (rc : Int)
  | throws

inductive Op where
  | mainThreadId
  | readThreadId
  | newThread
  | member (this : Ptr)
  | assign (this : Ptr) (member : Assign)
  | rc (owner : Owner)
  | setRc (owner : Owner) (value : Int)
  | library (this : Ptr) (call : Call)
  | sessionLastErrno (this : Ptr)
  | memory (length : Nat)
  | dir
  | select (nfds : Int) (readfds writefds : Option Int)
  | waited (this : Ptr)
  | report (format : String) (arguments : List String)
  | noMessage

@[reducible] def Op.Reply : Op → Type
  | .mainThreadId => ThreadId
  | .readThreadId => Option ThreadId
  | .newThread | .rc _ | .sessionLastErrno _ => Int
  | .member _ => Sftp
  | .library _ call => call.function.Result
  | .memory _ => Bytes
  | .dir => BitVec 32
  | .select .. => Select
  | .assign .. | .setRc .. | .waited _ | .report .. | .noMessage => Unit

@[reducible] def signature : Signature := { Op, Reply := Op.Reply, Entry }

abbrev Program := Code signature

/-- The choices of the library, of the system and of the memory that nothing set. -/
inductive Input where
  | none
  | answer (answer : Answer)
  | status (err : Int)
  | memory (bytes : Bytes)
  | dir (dir : BitVec 32)
  | select (select : Select)
  | command (this : Ptr) (command : ReadThreadCommand)

instance : Inhabited Input := ⟨.none⟩

/-- The variable `read_thread_id` is none where it is kNoThreadID. -/
structure Client where
  mainThreadId : ThreadId
  readThreadId : Option ThreadId := none
  sftp : Ptr → Sftp
  rc : Owner → Int
  session : Ptr → Session
  log : List Event := []

namespace Client

def record (event : Event) (client : Client) : Client := { client with log := client.log ++ [event] }

def update (this : Ptr) (change : Sftp → Sftp) (client : Client) : Client :=
  { client with sftp := Function.update client.sftp this (change (client.sftp this)) }

/-- The answer to a call, and the script that is left: the next one of the script for that
function, or any answer once there is none. -/
def answer (this : Ptr) (function : Function) (input : Input) (client : Client) : Option (Answer × List Answer) :=
  match nextAnswer function (client.session this).script with
  | some found => some found
  | none => match input with
    | .answer answer => some (answer, (client.session this).script)
    | _ => none

/-- The client after a call of the library. -/
def answered (thread : ThreadId) (this : Ptr) (call : Call) (answer : Answer) (script : List Answer)
    (client : Client) : Client :=
  { client with session := Function.update client.session this { errno := answer.errno, script } }.record
    (.library thread this call answer)

end Client

/-- What an operation does when `thread` executes it. -/
def exec (thread : ThreadId) : (o : Op) → Input → Client → Option (o.Reply × Client)
  | .mainThreadId, _, client => some (client.mainThreadId, client)
  | .readThreadId, _, client => some (client.readThreadId, client)
  -- NewThread stores kNoThreadID where it makes no thread, and else the name that `spawned` stores
  | .newThread, .status err, client => if err ≤ 0 then some (err, { client with readThreadId := none }) else none
  | .member this, _, client => some (client.sftp this, client)
  | .assign this member, _, client => some ((), client.update this member.apply)
  | .rc owner, _, client => some (client.rc owner, client)
  | .setRc owner value, _, client => some ((), { client with rc := Function.update client.rc owner value })
  | .library this call, input, client => do
    let (answer, script) ← client.answer this call.function input
    let result ← answer.for call.function
    return (result, client.answered thread this call answer script)
  | .sessionLastErrno this, _, client => some ((client.session this).errno, client)
  | .memory length, .memory bytes, client => if bytes.length = length then some (bytes, client) else none
  | .dir, .dir dir, client => some (dir, client)
  | .select .., .select select, client => some (select, client)
  | .waited this, _, client => some ((), client.record (.waited thread this))
  | .report format arguments, _, client => some ((), client.record (.reported thread format arguments))
  | .noMessage, _, client => some ((), client.record (.noMessage thread))
  | _, _, _ => none

/-- Calls that may be made from outside. -/
def called (thread : ThreadId) (entry : Entry) (client : Client) : Option Client :=
  match entry with
  | .readThread .. => none
  | _ => some (client.record (.called thread entry))

/-- NewThread stores the name of the thread it made in `read_thread_id`. -/
def spawned (thread child : ThreadId) (entry : Entry) (client : Client) : Client :=
  { client with readThreadId := some child }.record (.spawned thread child entry)

/-- The command of the read thread is a public member. -/
def environment : Input → Client → Option Client
  | .command this command, client => some (client.update this ({ · with readThreadCommand := command }))
  | _, _ => none

end PowerBoot.Transfer
