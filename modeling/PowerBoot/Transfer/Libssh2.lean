import Mathlib.Algebra.Group.Int.Defs
import Mathlib.Algebra.Group.Nat.Defs
import Mathlib.Data.List.Infix

/-! What the SFTP client uses of libssh2 and of the socket layer. Both are outside of
this machine: a session answers each function from a script, in order, and freely once
the script has no answer for it. -/

namespace PowerBoot.Transfer

abbrev Bytes := List UInt8

/-- A pointer that is not NULL; where NULL is possible the type is `Option Ptr`. -/
abbrev Ptr := Nat

def LIBSSH2_ERROR_NONE : Int := 0
def LIBSSH2_ERROR_EAGAIN : Int := -37
def LIBSSH2_INVALID_SOCKET : Int := -1

def LIBSSH2_SESSION_BLOCK_INBOUND : BitVec 32 := 1
def LIBSSH2_SESSION_BLOCK_OUTBOUND : BitVec 32 := 2

def LIBSSH2_SFTP_OPENFILE : Int := 0
def LIBSSH2_SFTP_OPENDIR : Int := 1

def LIBSSH2_SFTP_SYMLINK : Int := 0
def LIBSSH2_SFTP_READLINK : Int := 1
def LIBSSH2_SFTP_REALPATH : Int := 2

/-- LIBSSH2_SFTP_ATTRIBUTES. -/
structure Attributes where
  flags : Nat := 0
  filesize : Nat := 0
  uid : Nat := 0
  gid : Nat := 0
  permissions : Nat := 0
  atime : Nat := 0
  mtime : Nat := 0
deriving DecidableEq

/-- LIBSSH2_SFTP_STATVFS. -/
structure StatVFS where
  bsize : Nat := 0
  frsize : Nat := 0
  blocks : Nat := 0
  bfree : Nat := 0
  bavail : Nat := 0
  files : Nat := 0
  ffree : Nat := 0
  favail : Nat := 0
  fsid : Nat := 0
  flag : Nat := 0
  namemax : Nat := 0
deriving DecidableEq

inductive Function where
  | init | sessionInit | sessionSetBlocking | sessionDisconnect | sessionFree | exit
  | socket | inetAddr | connect | shutdown | close
  | sessionHandshake | hostkeyHash | userauthList | userauthPublickeyFromfileEx | userauthPassword
  | sftpInit | sessionLastError | channelOpenSession | channelEof | channelRead
  | sftpLstat | sftpMkdir | sftpOpenEx | sftpRename | sftpRmdir | sftpSetstat | sftpShutdown | sftpStat
  | sftpStatvfs | sftpSymlinkEx | sftpUnlinkEx
  | sftpRewind | sftpSeek | sftpTell | sftpRead | sftpWrite | sftpClose | sftpFsetstat | sftpFstat
  | sftpFstatvfs | sftpFsync | sftpReaddirEx | sftpClosedir
deriving DecidableEq

/-- What libssh2_sftp_readdir_ex returns, and what it stores at the start of the two
buffers and in the attributes. -/
structure Readdir where
  rc : Int
  buffer : Bytes := []
  longentry : Bytes := []
  attrs : Attributes := {}
deriving DecidableEq

/-- What a call returns that also fills in a structure or a buffer. -/
structure Filled (Data : Type) where
  rc : Int
  data : Data

@[reducible] def Function.Result : Function → Type
  | .sessionSetBlocking | .exit | .sftpRewind | .sftpSeek => Unit
  | .inetAddr | .sftpTell => Nat
  | .userauthList => Option String
  | .sessionLastError => String
  | .sessionInit | .hostkeyHash | .sftpInit | .channelOpenSession | .sftpOpenEx => Option Ptr
  | .sftpReaddirEx => Readdir
  | .sftpLstat | .sftpStat | .sftpFstat => Filled Attributes
  | .sftpStatvfs | .sftpFstatvfs => Filled StatVFS
  | .sftpRead => Filled Bytes
  | .init | .sessionDisconnect | .sessionFree | .socket | .connect | .shutdown | .close
  | .sessionHandshake | .userauthPublickeyFromfileEx | .userauthPassword | .channelEof | .channelRead
  | .sftpMkdir | .sftpRename | .sftpRmdir | .sftpSetstat | .sftpShutdown | .sftpSymlinkEx | .sftpUnlinkEx
  | .sftpWrite | .sftpClose | .sftpFsetstat | .sftpFsync | .sftpClosedir => Int

/-- The answer to a call, and the error number that the session holds after it. -/
structure Answer where
  function : Function
  result : function.Result
  errno : Int := LIBSSH2_ERROR_NONE

/-- The conversion of the ssize_t that libssh2_sftp_read and libssh2_sftp_write return to
the int that keeps it. -/
def toInt (size : Int) : Int := size.bmod (2 ^ 32)

/-- The answer is taken for LIBSSH2_ERROR_EAGAIN: the code that is kept, or NULL with that
error number. -/
def Answer.again : Answer → Bool
  | ⟨.sessionDisconnect, rc, _⟩ | ⟨.sessionHandshake, rc, _⟩ | ⟨.userauthPublickeyFromfileEx, rc, _⟩
  | ⟨.userauthPassword, rc, _⟩ | ⟨.channelRead, rc, _⟩ | ⟨.sftpMkdir, rc, _⟩ | ⟨.sftpRename, rc, _⟩
  | ⟨.sftpRmdir, rc, _⟩ | ⟨.sftpSetstat, rc, _⟩ | ⟨.sftpShutdown, rc, _⟩ | ⟨.sftpSymlinkEx, rc, _⟩
  | ⟨.sftpUnlinkEx, rc, _⟩ | ⟨.sftpClose, rc, _⟩ | ⟨.sftpFsetstat, rc, _⟩ | ⟨.sftpFsync, rc, _⟩
  | ⟨.sftpClosedir, rc, _⟩ => rc = LIBSSH2_ERROR_EAGAIN
  | ⟨.sftpLstat, filled, _⟩ | ⟨.sftpStat, filled, _⟩ | ⟨.sftpFstat, filled, _⟩ => filled.rc = LIBSSH2_ERROR_EAGAIN
  | ⟨.sftpStatvfs, filled, _⟩ | ⟨.sftpFstatvfs, filled, _⟩ => filled.rc = LIBSSH2_ERROR_EAGAIN
  | ⟨.sftpRead, filled, _⟩ => toInt filled.rc = LIBSSH2_ERROR_EAGAIN
  | ⟨.sftpWrite, rc, _⟩ => toInt rc = LIBSSH2_ERROR_EAGAIN
  | ⟨.sftpReaddirEx, entry, _⟩ => entry.rc = LIBSSH2_ERROR_EAGAIN
  | ⟨.userauthList, methods, errno⟩ => methods = none ∧ errno = LIBSSH2_ERROR_EAGAIN
  | ⟨.sftpInit, pointer, errno⟩ | ⟨.channelOpenSession, pointer, errno⟩ | ⟨.sftpOpenEx, pointer, errno⟩ =>
    pointer = none ∧ errno = LIBSSH2_ERROR_EAGAIN
  | _ => false

/-- The code that is kept of an answer of the functions that the SFTP operations call in a
loop. A ssize_t is converted. -/
def Answer.code : Answer → Option Int
  | ⟨.sftpMkdir, rc, _⟩ | ⟨.sftpRename, rc, _⟩ | ⟨.sftpRmdir, rc, _⟩ | ⟨.sftpSetstat, rc, _⟩ | ⟨.sftpShutdown, rc, _⟩
  | ⟨.sftpSymlinkEx, rc, _⟩ | ⟨.sftpUnlinkEx, rc, _⟩ | ⟨.sftpClose, rc, _⟩ | ⟨.sftpFsetstat, rc, _⟩
  | ⟨.sftpFsync, rc, _⟩ | ⟨.sftpClosedir, rc, _⟩ => some rc
  | ⟨.sftpLstat, filled, _⟩ | ⟨.sftpStat, filled, _⟩ | ⟨.sftpFstat, filled, _⟩ => some filled.rc
  | ⟨.sftpStatvfs, filled, _⟩ | ⟨.sftpFstatvfs, filled, _⟩ => some filled.rc
  | ⟨.sftpRead, filled, _⟩ => some (toInt filled.rc)
  | ⟨.sftpWrite, rc, _⟩ => some (toInt rc)
  | ⟨.sftpReaddirEx, entry, _⟩ => some entry.rc
  | _ => none

/-- The answer is taken for a failure: the code that is kept is negative, or there is no handle. -/
def Answer.fails (answer : Answer) : Bool :=
  match answer.code, answer with
  | some rc, _ => rc < 0
  | none, ⟨.sftpOpenEx, handle, _⟩ => handle.isNone
  | none, _ => false

/-- The library answers LIBSSH2_ERROR_EAGAIN, in what it returns itself. -/
def Answer.eagain : Answer → Bool
  | ⟨.sftpRead, filled, _⟩ => filled.rc = LIBSSH2_ERROR_EAGAIN
  | ⟨.sftpWrite, rc, _⟩ => rc = LIBSSH2_ERROR_EAGAIN
  | answer => answer.again

/-- The library answers with a failure: what it returns is negative, or no handle. -/
def Answer.failed : Answer → Bool
  | ⟨.sftpRead, filled, _⟩ => filled.rc < 0
  | ⟨.sftpWrite, rc, _⟩ => rc < 0
  | answer => answer.fails

/-- As an int, the number is negative where it was, and EAGAIN only where it was. -/
def FitsInt (size : Int) : Prop :=
  (toInt size < 0 ↔ size < 0) ∧ (toInt size = LIBSSH2_ERROR_EAGAIN → size = LIBSSH2_ERROR_EAGAIN)

/-- What the library returned means the same once it is kept as an int. -/
def Answer.Fits : Answer → Prop
  | ⟨.sftpRead, filled, _⟩ => FitsInt filled.rc
  | ⟨.sftpWrite, rc, _⟩ => FitsInt rc
  | _ => True

theorem toInt_eagain : toInt LIBSSH2_ERROR_EAGAIN = LIBSSH2_ERROR_EAGAIN := by decide

theorem Answer.again_of_eagain {answer : Answer} (eagain : answer.eagain = true) : answer.again = true := by
  obtain ⟨function, result, errno⟩ := answer
  cases function with
  | sftpRead | sftpWrite =>
    have same := of_decide_eq_true eagain
    exact decide_eq_true (by rw [same, toInt_eagain])
  | _ => exact eagain

/-- An answer that is not EAGAIN means the same as an int if it is not taken for EAGAIN, and for a
failure only if it is one. -/
theorem Answer.fits_iff {answer : Answer} (definitive : answer.eagain = false) :
    answer.Fits ↔ answer.again = false ∧ answer.fails = answer.failed := by
  have number (size : Int) (other : size ≠ LIBSSH2_ERROR_EAGAIN) : FitsInt size ↔
      decide (toInt size = LIBSSH2_ERROR_EAGAIN) = false ∧ decide (toInt size < 0) = decide (size < 0) := by
    rw [FitsInt, decide_eq_false_iff_not, decide_eq_decide, and_comm]
    exact and_congr_left fun _ => ⟨fun only same => other (only same), fun never same => (never same).elim⟩
  obtain ⟨function, result, errno⟩ := answer
  cases function with
  | sftpRead | sftpWrite => exact number _ (of_decide_eq_false definitive)
  | _ => exact ⟨fun _ => ⟨definitive, rfl⟩, fun _ => trivial⟩

example : ¬ FitsInt (2 ^ 31) ∧ ¬ FitsInt (2 ^ 32 - 37) := by unfold FitsInt toInt; decide

/-- What the library stored in buffers that the caller passed to it. -/
def Answer.stored : Answer → Bytes
  | ⟨.sftpRead, filled, _⟩ => filled.data
  | ⟨.sftpReaddirEx, entry, _⟩ => entry.buffer ++ entry.longentry
  | _ => []

theorem Answer.again_iff {answer : Answer} {rc : Int} (given : answer.code = some rc) :
    answer.again = true ↔ rc = LIBSSH2_ERROR_EAGAIN := by
  obtain ⟨function, result, errno⟩ := answer
  cases function <;> cases given <;> simp [Answer.again]

/-- The first answer for a function, and the script without it. -/
def nextAnswer (function : Function) : List Answer → Option (Answer × List Answer)
  | [] => none
  | answer :: script =>
    if answer.function = function then some (answer, script)
    else (nextAnswer function script).map fun (found, left) => (found, answer :: left)

/-- The result, where the answer is one for this function. -/
def Answer.for (function : Function) (answer : Answer) : Option function.Result :=
  if same : answer.function = function then some (same ▸ answer.result) else none

theorem Answer.for_iff {function : Function} {answer : Answer} {result : function.Result} :
    answer.for function = some result ↔ answer = ⟨function, result, answer.errno⟩ := by
  obtain ⟨found, value, errno⟩ := answer
  simp only [Answer.for]
  constructor
  · intro given
    split at given
    next same =>
      subst same
      cases given
      rfl
    · cases given
  · intro given
    cases given
    rw [dif_pos rfl]

theorem nextAnswer_some {function : Function} {script left : List Answer} {answer : Answer}
    (found : nextAnswer function script = some (answer, left)) : answer.function = function ∧
      ∃ before after, script = before ++ answer :: after ∧ left = before ++ after ∧
        ∀ other ∈ before, other.function ≠ function := by
  induction script generalizing left with
  | nil => cases found
  | cons head script ih =>
    rw [nextAnswer] at found
    split at found
    next same =>
      cases found
      exact ⟨same, [], script, rfl, rfl, nofun⟩
    next different =>
      obtain ⟨⟨_, rest⟩, later, same⟩ := Option.map_eq_some_iff.mp found
      cases same
      obtain ⟨same, before, after, rfl, rfl, others⟩ := ih later
      refine ⟨same, head :: before, after, rfl, rfl, fun other member => ?_⟩
      rcases List.mem_cons.mp member with rfl | member
      · exact different
      · exact others other member

theorem nextAnswer_append {function : Function} {before after : List Answer} {answer : Answer}
    (others : ∀ other ∈ before, other.function ≠ function) (same : answer.function = function) :
    nextAnswer function (before ++ answer :: after) = some (answer, before ++ after) := by
  induction before with
  | nil => simp [nextAnswer, same]
  | cons head before ih =>
    have later := ih fun other member => others other (List.mem_cons_of_mem _ member)
    simp [nextAnswer, others head (List.mem_cons_self ..), later]

theorem nextAnswer_cons {function : Function} {result : function.Result} {errno : Int} {script : List Answer} :
    nextAnswer function (⟨function, result, errno⟩ :: script) = some (⟨function, result, errno⟩, script) := by
  simp [nextAnswer]

/-- `strstr(text, needle) != NULL`. -/
def strstr (text needle : String) : Bool := decide (needle.toList <:+: text.toList)

/-- The same in a list of methods that may be NULL. There it is undefined, and nothing is found here. -/
def advertises (methods : Option String) (method : String) : Bool := methods.any (strstr · method)

@[simp] theorem advertises_some {methods method : String} : advertises (some methods) method = strstr methods method :=
  rfl

end PowerBoot.Transfer
