import PowerBoot.Coop.Outcome
import PowerBoot.Memory.Overlay
import PowerBoot.Transfer.State

/-! The functions of the SFTP client, statement by statement. With cooperative threads
every printf is a yield, because the console gives up the processor after each write. -/

namespace PowerBoot.Transfer
open Coop Code Memory

abbrev perform (o : Op) : Program o.Reply := Code.call (S := signature) o

abbrev library (this : Ptr) (call : Call) : Program call.function.Result := perform (.library this call)

variable (build : Build)

/-- YieldToAnyThread, which is nothing in the build without threads. -/
def yieldToAnyThread : Program Unit :=
  match build with
  | .retro => pause
  | .direct _ => return ()

def printf : Program Unit := yieldToAnyThread build

/-- A call that goes to the network. The socket layer gives way to the other threads while
it waits there, before and after the call has its effect. -/
def network (this : Ptr) (call : Call) : Program call.function.Result := do
  yieldToAnyThread build
  let result ← library this call
  yieldToAnyThread build
  return result

/-- DisposeThread, which finds no thread where the name is kNoThreadID and then does nothing. -/
def disposeThread (name : Option ThreadId) : Program Unit :=
  match name with
  | some thread => stop thread
  | none => return ()

/-- What ends an error: a thread is disposed of, or the program exits. -/
def leave (dispose : Program Unit) : Program Unit :=
  match build with
  | .retro => do
    dispose
    pause
  | .direct _ => .exit

def errorThrow (format : String) (arguments : List String) : Program Unit := do
  perform (.report format arguments)
  printf build
  leave build (do stop (← perform .mainThreadId))

def readErrorThrow (format : String) (arguments : List String) : Program Unit := do
  perform (.report format arguments)
  printf build
  leave build (do disposeThread (← perform .readThreadId))

/-- `error_msg`, whose result is empty for the number 1. -/
def errorMsg (this : Ptr) (err : Int) : Program (Option String) :=
  if err = 1 then return none
  else do
    let st ← library this .sessionLastError
    return some (st ++ " (" ++ toString err ++ ")")

/-- `error_msg(err)->c_str()`. Nothing says what that is for an empty optional. -/
def message (this : Ptr) (err : Int) : Program String := do
  match ← errorMsg this err with
  | some text => return text
  | none =>
    perform .noMessage
    return ""

/-- `select` gives way for as long as it likes, and PowerNet's throws on an unknown socket. -/
def select (nfds : Int) (readfds writefds : Option Int) : Program Int :=
  iterate (fun _ => do
    match ← perform (.select nfds readfds writefds) with
    | .halts =>
      yieldToAnyThread build
      return .inl ()
    | .returns rc => return .inr rc
    | .throws => .throw) ()

/-- Nothing sets `dir` before it is tested. -/
def wait (this : Ptr) : Program Int := do
  perform (.waited this)
  let dir ← perform .dir
  let sock := (← perform (.member this)).sock
  let readfd := if dir &&& LIBSSH2_SESSION_BLOCK_INBOUND ≠ 0 then some sock else none
  let writefd := if dir &&& LIBSSH2_SESSION_BLOCK_OUTBOUND ≠ 0 then some sock else none
  select build (sock + 1) readfd writefd

/-- The constructor. The result of libssh2_init is kept in `rc`. -/
def construct (this : Ptr) : Program Unit := do
  perform (.assign this .initializers)
  let rc ← library this .init
  perform (.setRc (.sftp this) rc)
  when (rc ≠ 0) (errorThrow build "libssh2 initialization failed (%s)" [toString rc])
  let session ← library this .sessionInit
  perform (.assign this (.session session))
  when session.isNone (do
    let _ ← message this (← perform (.rc (.sftp this)))
    errorThrow build "Could not initialize SSH session:" [])
  library this (.sessionSetBlocking 0)

/-- The destructor. Nothing sets `sftp_handle`, and only Linux shuts the socket down first. -/
def destroy (this : Ptr) : Program Unit := do
  let _ ← network build this (.sftpClose (← perform (.member this)).sftpHandle)
  let _ ← network build this (.sftpShutdown (← perform (.member this)).sftpPointer)
  when (← perform (.member this)).session.isSome (do
    repeatWhile (do return (← network build this .sessionDisconnect) = LIBSSH2_ERROR_EAGAIN) (return ())
    let _ ← library this .sessionFree)
  let sock := (← perform (.member this)).sock
  when (sock ≠ LIBSSH2_INVALID_SOCKET) (do
    when (build = .direct true) (do let _ ← network build this (.shutdown sock))
    let _ ← network build this (.close sock))
  library this .exit

/-- The loop around libssh2_session_handshake. -/
def handshake (this : Ptr) : Program Int :=
  iterate (fun _ => do
    let sock := (← perform (.member this)).sock
    let rc ← network build this (.sessionHandshake sock)
    if rc = LIBSSH2_ERROR_EAGAIN then
      yieldToAnyThread build
      return .inl ()
    else return .inr rc) ()

/-- The loop around libssh2_userauth_list. -/
def listMethods (this : Ptr) (options : ConnectionOptions) : Program Unit :=
  repeatWhile (do return (← perform (.member this)).userauthlist.isNone) (do
    let methods ← network build this (.userauthList options.username options.username.utf8ByteSize)
    perform (.assign this (.userauthlist methods))
    let _ ← wait build this)

/-- Authentication with a key, where it is offered. -/
def tryPublickey (this : Ptr) (options : ConnectionOptions) (rc : Int) : Program Bool := do
  if advertises (← perform (.member this)).userauthlist "publickey" then
    let result ← network build this
      (.userauthPublickeyFromfileEx options.username options.pubkey options.privkey options.password)
    if result ≥ 0 then return true
    else
      let _ ← message this rc
      printf build
      return false
  else return false

/-- Authentication with a password, where it is offered. -/
def tryPassword (this : Ptr) (options : ConnectionOptions) (rc : Int) : Program Bool := do
  if advertises (← perform (.member this)).userauthlist "password" then
    let result ← network build this (.userauthPassword options.username options.password)
    if result ≥ 0 then return true
    else
      let _ ← message this rc
      printf build
      return false
  else return false

/-- Both branches on `userauthlist`, up to the label success and its printf. The list is looked at
again after each yield. -/
def authenticate (this : Ptr) (options : ConnectionOptions) (rc : Int) : Program Unit := do
  match (← perform (.member this)).userauthlist with
  | some _ =>
    printf build
    if ← tryPublickey build this options rc then printf build
    else if ← tryPassword build this options rc then printf build
    else
      readErrorThrow build "failed to connect" []
      printf build
  | none =>
    let msg ← message this 0
    readErrorThrow build "Failure getting autentication methods: %s" [msg]

/-- The loop around libssh2_sftp_init. -/
def initSftp (this : Ptr) : Program Unit :=
  iterate (fun _ => do
    let pointer ← network build this .sftpInit
    perform (.assign this (.sftpPointer pointer))
    when pointer.isNone (do
      let rc ← perform (.sessionLastErrno this)
      if rc = LIBSSH2_ERROR_EAGAIN then
        let _ ← wait build this
      else
        let msg ← message this 0
        readErrorThrow build "Unable to init SFTP session: %s\n" [msg])
    if (← perform (.member this)).sftpPointer.isNone then return .inl () else return .inr ()) ()

/-- The part of `read_thread` up to the state Open. -/
def setUp (this : Ptr) (options : ConnectionOptions) : Program Unit := do
  let sock ← network build this .socket
  perform (.assign this (.sock sock))
  when (sock = LIBSSH2_INVALID_SOCKET) (readErrorThrow build "failed to create socket." [])
  let hostaddr ← library this (.inetAddr options.addr)
  let sock := (← perform (.member this)).sock
  let failed ← network build this (.connect sock hostaddr options.port)
  when (failed ≠ 0) (readErrorThrow build "failed to connect." [])
  let rc ← handshake build this
  when (rc ≠ 0) (do
    let msg ← message this 0
    readErrorThrow build "\nFailure establishing SSH session: %s" [msg])
  let _ ← library this .hostkeyHash
  listMethods build this options
  authenticate build this options rc
  initSftp build this
  let channel ← network build this .channelOpenSession
  perform (.assign this (.channel channel))
  perform (.assign this (.readThreadState .open_))

/-- The rest of `read_thread`: read until failure, another command or remote EOF. -/
def serve (this : Ptr) : Program Unit := do
  repeatWhile (do
    let sftp ← perform (.member this)
    if sftp.readThreadCommand = .read ∧ sftp.readThreadState = .open_ then
      return (← library this (.channelEof sftp.channel)) = 0
    else return false) (do
    let sftp ← perform (.member this)
    let rc ← network build this (.channelRead sftp.channel sftp.recvBuffer (1024 * 4))
    when (rc ≤ 0) (readErrorThrow build "channel read error\n" [])
    yieldToAnyThread build)
  readErrorThrow build "Disconnected by server.\n" []

def readThread (this : Ptr) (options : ConnectionOptions) : Program Unit := do
  if (← perform (.member this)).readThreadCommand = .exit then return ()
  else
    setUp build this options
    serve build this

/-- `SFTP::connect`. NewThread makes no thread where its result is negative. -/
def connect (this : Ptr) (options : ConnectionOptions) : Program Unit := do
  match build with
  | .retro =>
    let err ← perform .newThread
    if err < 0 then printf build
    else let _ ← start (S := signature) (Entry.readThread this options)
  | .direct _ => readThread build this options
  repeatWhile (do return (← perform (.member this)).readThreadState ≠ .open_) (yieldToAnyThread build)

/-- The macro RC_ERR_HANDLE. `rc` is a member of the object whose method this is, and `cmd`
may write to the caller's memory. -/
def rcErrHandle {Memory : Type} (funcname : String) (this : Ptr) (rc : Owner)
    (cmd : Memory → Program (Int × Memory)) (memory : Memory) : Program Memory := do
  perform (.setRc rc LIBSSH2_ERROR_EAGAIN)
  let memory ← iterate (fun memory => do
    if (← perform (.rc rc)) = LIBSSH2_ERROR_EAGAIN then
      let (result, memory) ← cmd memory
      perform (.setRc rc result)
      when ((← perform (.rc rc)) = LIBSSH2_ERROR_EAGAIN) (do let _ ← wait build this)
      return .inl memory
    else return .inr memory) memory
  when ((← perform (.rc rc)) < 0) (do
    let msg ← message this (← perform (.rc rc))
    errorThrow build ("[" ++ funcname ++ "] %s") [msg])
  return memory

/-- RC_ERR_HANDLE around a call that only returns a code. -/
def handled (funcname : String) (this : Ptr) (rc : Owner) (cmd : Program Int) : Program Unit :=
  rcErrHandle build funcname this rc (fun _ => do return (← cmd, ())) ()

/-- RC_ERR_HANDLE around a call that fills in a structure. -/
def filled {Data : Type} (funcname : String) (this : Ptr) (rc : Owner) (cmd : Program (Filled Data)) (data : Data) :
    Program Data :=
  rcErrHandle build funcname this rc (fun _ => do
    let filled ← cmd
    return (filled.rc, filled.data)) data

/-- `path.c_str()`, read up to its NUL. -/
def cString (path : Bytes) : Bytes := path.takeWhile (· ≠ 0)

/-- The current value of `sftp_pointer`. -/
def sftpPointer (this : Ptr) : Program (Option Ptr) := do return (← perform (.member this)).sftpPointer

def lstat (this : Ptr) (path : Bytes) (attr : Attributes) : Program Attributes :=
  filled build "libssh2_sftp_lstat" this (.sftp this)
    (do network build this (.sftpLstat (← sftpPointer this) (cString path) attr)) attr

def mkdir (this : Ptr) (path : Bytes) (mode : Int) : Program Unit :=
  handled build "libssh2_sftp_mkdir" this (.sftp this)
    (do network build this (.sftpMkdir (← sftpPointer this) (cString path) mode))

/-- The loop around libssh2_sftp_open_ex, the same for files and directories. -/
def openEx (this : Ptr) (filename : Bytes) (flags mode openType : Int) : Program Ptr :=
  iterate (fun _ => do
    match ← network build this
        (.sftpOpenEx (← sftpPointer this) filename filename.length flags mode openType) with
    | some handle => return .inr handle
    | none =>
      if (← perform (.sessionLastErrno this)) = LIBSSH2_ERROR_EAGAIN then
        let _ ← wait build this
      else
        let msg ← message this (← perform (.rc (.sftp this)))
        errorThrow build "Unable to open directory: %s\n" [msg]
      return .inl ()) ()

def openfile (this : Ptr) (filename : Bytes) (flags mode : Int) : Program Ptr :=
  openEx build this filename flags mode LIBSSH2_SFTP_OPENFILE

def opendir (this : Ptr) (path : Bytes) : Program Ptr := openEx build this path 0 0 LIBSSH2_SFTP_OPENDIR

def rename (this : Ptr) (sourcefile destfile : Bytes) : Program Unit :=
  handled build "libssh2_sftp_rename" this (.sftp this)
    (do network build this (.sftpRename (← sftpPointer this) (cString sourcefile) (cString destfile)))

def rmdir (this : Ptr) (path : Bytes) : Program Unit :=
  handled build "libssh2_sftp_rmdir" this (.sftp this)
    (do network build this (.sftpRmdir (← sftpPointer this) (cString path)))

def setstat (this : Ptr) (path : Bytes) (attrs : Attributes) : Program Unit :=
  handled build "libssh2_sftp_setstat" this (.sftp this)
    (do network build this (.sftpSetstat (← sftpPointer this) (cString path) attrs))

def shutdown (this : Ptr) : Program Unit :=
  handled build "libssh2_sftp_shutdown" this (.sftp this)
    (do network build this (.sftpShutdown (← sftpPointer this)))

def stat (this : Ptr) (path : Bytes) : Program Attributes :=
  filled build "libssh2_sftp_stat" this (.sftp this)
    (do network build this (.sftpStat (← sftpPointer this) (cString path))) {}

def statvfs (this : Ptr) (path : Bytes) : Program StatVFS :=
  filled build "libssh2_sftp_statvfs" this (.sftp this)
    (do network build this (.sftpStatvfs (← sftpPointer this) path path.length)) {}

/-- The calls of libssh2_sftp_symlink_ex, which differ in the type of link and in the name
that an error shows. -/
def symlinkEx (funcname : String) (linkType : Int) (this : Ptr) (path target : Bytes) : Program Unit :=
  handled build funcname this (.sftp this)
    (do network build this (.sftpSymlinkEx (← sftpPointer this) path path.length target target.length linkType))

def symlink (this : Ptr) (path target : Bytes) : Program Unit :=
  symlinkEx build "libssh2_sftp_symlink" LIBSSH2_SFTP_SYMLINK this path target

def readlink (this : Ptr) (path target : Bytes) : Program Unit :=
  symlinkEx build "libssh2_sftp_read_link" LIBSSH2_SFTP_READLINK this path target

def realpath (this : Ptr) (path target : Bytes) : Program Unit :=
  symlinkEx build "libssh2_sftp_symlink" LIBSSH2_SFTP_REALPATH this path target

def unlink (this : Ptr) (filename : Bytes) : Program Unit :=
  handled build "libssh2_sftp_unlink" this (.sftp this)
    (do network build this (.sftpUnlinkEx (← sftpPointer this) filename filename.length))

def fileStat (this handle : Ptr) : Program Attributes :=
  filled build "file/libssh2_sftp_fstat" this (.handle handle) (network build this (.sftpFstat handle)) {}

/-- The conversion of the size of a file to a size_t. -/
def sizeT (size : Nat) : Nat :=
  match build with
  | .retro => size % 2 ^ 32
  | .direct _ => size % 2 ^ 64

/-- One call reads into a buffer as large as the file, and all of the buffer is returned. -/
def fileRead (this handle : Ptr) : Program Bytes := do
  let filesize := sizeT build (← fileStat build this handle).filesize
  let buffer ← perform (.memory filesize)
  let buffer ← rcErrHandle build "libssh2_sftp_read" this (.handle handle) (fun buffer => do
    let read ← network build this (.sftpRead handle filesize)
    return (toInt read.rc, overwrite buffer read.data)) buffer
  return buffer.take filesize

def fileRewind (this handle : Ptr) : Program Unit := library this (.sftpRewind handle)

def fileSeek (this handle : Ptr) (offset : Nat) : Program Unit := library this (.sftpSeek handle offset)

def fileTell (this handle : Ptr) : Program Nat := library this (.sftpTell handle)

def fileWrite (this handle : Ptr) (buf : Bytes) : Program Unit :=
  handled build "libssh2_sftp_write" this (.handle handle)
    (do return toInt (← network build this (.sftpWrite handle buf)))

def fileClose (this handle : Ptr) : Program Unit :=
  handled build "libssh2_sftp_close" this (.handle handle) (network build this (.sftpClose (some handle)))

def fileSetstat (this handle : Ptr) (attr : Attributes) : Program Unit :=
  handled build "libssh2_sftp_fsetstat" this (.handle handle) (network build this (.sftpFsetstat handle attr))

def fileStatvfs (this handle : Ptr) : Program StatVFS :=
  filled build "libssh2_sftp_fstatvfs" this (.handle handle) (network build this (.sftpFstatvfs handle)) {}

def fileSync (this handle : Ptr) : Program Unit :=
  handled build "libssh2_sftp_fsync" this (.handle handle) (network build this (.sftpFsync handle))

/-- The local variables of `next` that the library writes to. -/
structure Buffers where
  buffer : Bytes
  longentry : Bytes
  attrs : Attributes

/-- libssh2_sftp_readdir_ex. -/
def readdirEx (this handle : Ptr) (buffers : Buffers) : Program (Int × Buffers) := do
  let entry ← network build this (.sftpReaddirEx handle 512 512)
  return (entry.rc, {
    buffer := overwrite buffers.buffer entry.buffer
    longentry := overwrite buffers.longentry entry.longentry
    attrs := entry.attrs })

/-- The buffers are on the stack, and what they held stays behind the bytes stored. -/
def next (this handle : Ptr) : Program (Option File) := do
  let buffer ← perform (.memory 512)
  let longentry ← perform (.memory 512)
  perform (.setRc (.handle handle) LIBSSH2_ERROR_EAGAIN)
  let buffers ← rcErrHandle build "libssh2_sftp_readdir_ex" this (.handle handle) (readdirEx build this handle)
    { buffer, longentry, attrs := {} }
  if (← perform (.rc (.handle handle))) = 0 then return none
  else
    return some {
      buffer := buffers.buffer.take 512
      longentry := buffers.longentry.take 512
      attributes := buffers.attrs }

def dirClose (this handle : Ptr) : Program Unit :=
  handled build "libssh2_sftp_closedir" this (.handle handle) (network build this (.sftpClosedir handle))

/-- A method of the object or of one of its handles, with what it returns. -/
def operate (this : Ptr) : Operation → Program Value
  | .lstat path attr => do return .attributes (← lstat build this path attr)
  | .mkdir path mode => do return (fun _ => .none) (← mkdir build this path mode)
  | .openfile filename flags mode => do return .handle (← openfile build this filename flags mode)
  | .opendir path => do return .handle (← opendir build this path)
  | .rename sourcefile destfile => do return (fun _ => .none) (← rename build this sourcefile destfile)
  | .rmdir path => do return (fun _ => .none) (← rmdir build this path)
  | .setstat path attrs => do return (fun _ => .none) (← setstat build this path attrs)
  | .shutdown => do return (fun _ => .none) (← shutdown build this)
  | .stat path => do return .attributes (← stat build this path)
  | .statvfs path => do return .statvfs (← statvfs build this path)
  | .symlink path target => do return (fun _ => .none) (← symlink build this path target)
  | .readlink path target => do return (fun _ => .none) (← readlink build this path target)
  | .realpath path target => do return (fun _ => .none) (← realpath build this path target)
  | .unlink filename => do return (fun _ => .none) (← unlink build this filename)
  | .fileRead handle => do return .bytes (← fileRead build this handle)
  | .fileRewind handle => do return (fun _ => .none) (← fileRewind this handle)
  | .fileSeek handle offset => do return (fun _ => .none) (← fileSeek this handle offset)
  | .fileTell handle => do return .offset (← fileTell this handle)
  | .fileWrite handle buf => do return (fun _ => .none) (← fileWrite build this handle buf)
  | .fileClose handle => do return (fun _ => .none) (← fileClose build this handle)
  | .fileSetstat handle attr => do return (fun _ => .none) (← fileSetstat build this handle attr)
  | .fileStat handle => do return .attributes (← fileStat build this handle)
  | .fileStatvfs handle => do return .statvfs (← fileStatvfs build this handle)
  | .fileSync handle => do return (fun _ => .none) (← fileSync build this handle)
  | .dirNext handle => do return .file (← next build this handle)
  | .dirClose handle => do return (fun _ => .none) (← dirClose build this handle)

def body : Entry → Program Value
  | .construct this => do return (fun _ => .none) (← construct build this)
  | .connect this options => do return (fun _ => .connected this) (← connect build this options)
  | .readThread this options => do return (fun _ => .none) (← readThread build this options)
  | .operate this operation => operate build this operation
  | .destroy this => do return (fun _ => .none) (← destroy build this)

/-- The SFTP client as a machine of cooperative threads. -/
@[reducible] def kernel : Kernel signature where
  State := Client
  Input := Input
  Value := Value
  body := body build
  exec := exec
  called := called
  spawned := spawned
  disposed := fun thread other client => client.record (.disposed thread other)
  exited := fun thread client => client.record (.exited thread)
  returned := fun thread value client => client.record (.returned thread value)
  threw := fun thread client => client.record (.threw thread)
  environment := environment

/-- A call whose thread then runs alone, with the inputs of each of its sections. -/
def calling (build : Build) (thread : ThreadId) (entry : Entry) (sections : List (List Input)) :
    List (Action (kernel build)) :=
  .call thread entry :: World.alone thread sections

/-- Sections of these lengths, in which no step chooses anything. -/
def steps (lengths : List Nat) : List (List Input) := lengths.map fun length => List.replicate length .none

end PowerBoot.Transfer
