import PowerBoot.Transfer.Attempts

/-! The retry law: every operation makes its calls exactly as often as the session answers
EAGAIN, and ends as it would without those answers. -/

namespace PowerBoot.Transfer
open Coop Code Memory

variable {build : Build} {thread : ThreadId} {this : Ptr} {client last : Client} {α Memory : Type} {call : Call}

/-- The call that an operation repeats. Reading a file repeats two, and the others that
have none do not repeat theirs. -/
def Operation.request (pointer : Option Ptr) : Operation → Option Call
  | .lstat path attr => some (.sftpLstat pointer (cString path) attr)
  | .mkdir path mode => some (.sftpMkdir pointer (cString path) mode)
  | .openfile filename flags mode =>
      some (.sftpOpenEx pointer filename filename.length flags mode LIBSSH2_SFTP_OPENFILE)
  | .opendir path => some (.sftpOpenEx pointer path path.length 0 0 LIBSSH2_SFTP_OPENDIR)
  | .rename sourcefile destfile => some (.sftpRename pointer (cString sourcefile) (cString destfile))
  | .rmdir path => some (.sftpRmdir pointer (cString path))
  | .setstat path attrs => some (.sftpSetstat pointer (cString path) attrs)
  | .shutdown => some (.sftpShutdown pointer)
  | .stat path => some (.sftpStat pointer (cString path))
  | .statvfs path => some (.sftpStatvfs pointer path path.length)
  | .symlink path target => some (.sftpSymlinkEx pointer path path.length target target.length LIBSSH2_SFTP_SYMLINK)
  | .readlink path target => some (.sftpSymlinkEx pointer path path.length target target.length LIBSSH2_SFTP_READLINK)
  | .realpath path target => some (.sftpSymlinkEx pointer path path.length target target.length LIBSSH2_SFTP_REALPATH)
  | .unlink filename => some (.sftpUnlinkEx pointer filename filename.length)
  | .fileWrite handle buf => some (.sftpWrite handle buf)
  | .fileClose handle => some (.sftpClose (some handle))
  | .fileSetstat handle attr => some (.sftpFsetstat handle attr)
  | .fileStat handle => some (.sftpFstat handle)
  | .fileStatvfs handle => some (.sftpFstatvfs handle)
  | .fileSync handle => some (.sftpFsync handle)
  | .dirNext handle => some (.sftpReaddirEx handle 512 512)
  | .dirClose handle => some (.sftpClosedir handle)
  | .fileRead _ | .fileRewind _ | .fileSeek .. | .fileTell _ => none

/-- The operations with a loop of their own. -/
def Operation.opens : Operation → Bool
  | .openfile .. | .opendir _ => true
  | _ => false

/-- What the library says to a call that is tried again. -/
abbrev Said (call : Call) : Type := Attempt call Answer.eagain

/-- The same as the code sees it, where it does not take the definitive answer for EAGAIN. -/
def Said.kept (said : Said call) (definitive : said.answer.again = false) : Attempt call where
  agains := said.agains
  result := said.result
  errno := said.errno
  again := fun reply member => Answer.again_of_eagain (said.again reply member)
  blank := said.blank
  definitive

/-- What the library says to an operation that repeats its calls. -/
inductive Exchange (build : Build) (pointer : Option Ptr) : Operation → Type where
  | one {operation : Operation} {call : Call} (calls : operation.request pointer = some call) (said : Said call) :
      Exchange build pointer operation
  | stat {handle : Ptr} (size : Said (.sftpFstat handle)) (fails : size.answer.failed = true) :
      Exchange build pointer (.fileRead handle)
  | read {handle : Ptr} (size : Said (.sftpFstat handle)) (succeeds : size.answer.failed = false)
      (data : Said (.sftpRead handle (sizeT build (size.result : Filled Attributes).data.filesize))) :
      Exchange build pointer (.fileRead handle)

namespace Exchange
variable {build : Build} {pointer : Option Ptr} {operation : Operation}

def answers : Exchange build pointer operation → List Answer
  | .one _ said => said.answers
  | .stat size _ => size.answers
  | .read size _ data => size.answers ++ data.answers

def alone : Exchange build pointer operation → Exchange build pointer operation
  | .one calls said => .one calls said.alone
  | .stat size fails => .stat size.alone fails
  | .read size succeeds data => .read size.alone succeeds data.alone

def events (thread : ThreadId) (this : Ptr) : Exchange build pointer operation → List Event
  | .one _ said => said.events thread this
  | .stat size _ => size.events thread this
  | .read size _ data => size.events thread this ++ data.events thread this

/-- The last definitive answer. -/
def answer : Exchange build pointer operation → Answer
  | .one _ said => said.answer
  | .stat size _ => size.answer
  | .read _ _ data => data.answer

theorem definitive (exchange : Exchange build pointer operation) : exchange.answer.eagain = false := by
  cases exchange with
  | one _ said => exact said.definitive
  | stat size => exact size.definitive
  | read _ _ data => exact data.definitive

end Exchange

/-- The client with another script. -/
def Client.scripted (this : Ptr) (script : List Answer) (client : Client) : Client :=
  { client with session := Function.update client.session this { client.session this with script } }

/-- The operation makes each call once more than the library answers EAGAIN, with one wait
in between. Then it ends in error_throw where the last answer is a failure, and else it
returns what it returns without the answers EAGAIN. -/
structure Obeys (build : Build) (thread : ThreadId) (this : Ptr) (client : Client) {operation : Operation}
    (exchange : Exchange build (client.sftp this).sftpPointer operation) (more : List Answer) : Prop where
  ends : ∃ result last, EndsIn build thread (operate build this operation) client result last
  calls : ∀ result last, EndsIn build thread (operate build this operation) client result last →
    ∃ after, last.log = client.log ++ exchange.events thread this ++ after ∧
      if exchange.answer.failed then result = none ∧ ∃ answer format arguments,
        after = [.library thread this .sessionLastError answer, .reported thread format arguments]
      else (∃ value, result = some value) ∧ after = []
  values : ∀ value, (∃ last, EndsIn build thread (operate build this operation) client (some value) last) ↔
    ∃ last, EndsIn build thread (operate build this operation) (client.scripted this (exchange.alone.answers ++ more))
      (some value) last

/-- From `client` the code makes these calls and then stops, or returns one of the values. -/
def Settles (build : Build) (thread : ThreadId) (this : Ptr) (code : Program Value) (events : List Event)
    (fails : Bool) (values : Value → Prop) (client : Client) : Prop :=
  ∃ after format err, after.log = client.log ++ events ∧ ∀ result last, EndsIn build thread code client result last ↔
    if fails then result = none ∧ Failed thread this format err after last
    else (∃ value, values value ∧ result = some value) ∧ last = after

/-- Whatever the session answers, the code makes one call until it is answered definitively.
A loop that opens must not fail where `rc` is 1. -/
def Repeats (build : Build) (thread : ThreadId) (this : Ptr) (code : Program Value) (opens : Bool) (call : Call)
    (client : Client) : Prop :=
  ∃ values : call.function.Result → Value → Prop, (∀ result, ∃ value, values result value) ∧
    ∀ (attempt : Attempt call) (more : List Answer) (now : Client), now.sftp = client.sftp →
      (build = .retro → now.mainThreadId = thread) → (now.session this).script = attempt.answers ++ more →
      (opens = true → attempt.answer.fails = true → now.rc (.sftp this) ≠ 1) →
      Settles build thread this code (attempt.events thread this) attempt.answer.fails (values attempt.result) now

section repeats
variable {rc : Owner} {funcname : String}

private theorem rcErrHandle_repeats {cmd : Memory → Program (Int × Memory)}
    {read : call.function.Result → Memory → Int × Memory} {memory : Memory} {give : Memory → Value}
    (makes : Makes build thread this cmd call read client) (reads : Reads read) :
    Repeats build thread this ((rcErrHandle build funcname this rc cmd memory).bind fun memory => .pure (give memory))
      false call client := by
  refine ⟨fun result value => value = give (read result memory).2, fun result => ⟨_, rfl⟩, ?_⟩
  intro attempt more now same main scripted _
  let code := (read attempt.result memory).1
  refine ⟨now.settled thread this rc attempt more code, "[" ++ funcname ++ "] %s", code, rfl, fun result last => ?_⟩
  have makes : Makes build thread this cmd call read now := fun memory _ _ _ _ _ equal =>
    makes memory (equal.trans same)
  rw [rcErrHandle_attempt reads makes (fun _ => main) scripted (reads.code _ _ memory), pure_ends]
  simp only [exists_eq_left]
  rfl

private theorem handled_repeats {cmd : Program Int} {code : call.function.Result → Int} {value : Value}
    (sends : Sends build thread this call code cmd client)
    (given : ∀ value errno, (Answer.mk call.function value errno).code = some (code value)) :
    Repeats build thread this ((handled build funcname this rc cmd).bind fun _ => .pure value) false call client := by
  have makes : Makes build thread this (fun _ => do return (← cmd, ())) call (fun value _ => (code value, ())) client :=
    fun _ => sends.map
  exact rcErrHandle_repeats makes ⟨fun value errno _ => given value errno, fun _ _ _ _ _ => rfl⟩

private theorem filled_repeats {Data : Type} {cmd : Program (Filled Data)} {take : call.function.Result → Filled Data}
    {data : Data} {give : Data → Value} (sends : Sends build thread this call take cmd client)
    (given : ∀ value errno, (Answer.mk call.function value errno).code = some (take value).rc) :
    Repeats build thread this ((filled build funcname this rc cmd data).bind fun data => .pure (give data)) false call
      client := by
  have makes : Makes build thread this (fun _ => do
      let filled ← cmd
      return (filled.rc, filled.data)) call (fun value _ => ((take value).rc, (take value).data)) client :=
    fun _ => sends.map
  exact rcErrHandle_repeats makes ⟨fun value errno _ => given value errno, fun _ _ _ _ _ => rfl⟩

private theorem openEx_repeats {filename : Bytes} {flags mode openType : Int} :
    Repeats build thread this ((openEx build this filename flags mode openType).bind fun handle =>
      .pure (.handle handle))
      true (.sftpOpenEx (client.sftp this).sftpPointer filename filename.length flags mode openType) client := by
  refine ⟨fun result value => value = match (result : Option Ptr) with
    | some handle => .handle handle
    | none => .none, fun result => ⟨_, rfl⟩, ?_⟩
  intro attempt more now same main scripted quiet
  refine ⟨now.attempted thread this attempt more, openFailed, now.rc (.sftp this), rfl, fun result last => ?_⟩
  rw [openEx_attempt main (by rw [same]) scripted]
  obtain ⟨agains, handle, errno, each, blank, definitive⟩ := attempt
  cases handle with
  | some handle =>
    simp only [pure_ends, exists_eq_left]
    rfl
  | none =>
    have named : (now.attempted thread this ⟨agains, none, errno, each, blank, definitive⟩ more).rc (.sftp this) ≠ 1 :=
      quiet rfl rfl
    simp only [OpenFailed, if_neg named]
    rfl

private theorem memory_attempt {length : Nat} {rest : Bytes → Program α} {result : Option α} {fails : Bool}
    {stops : Prop} {goes : Bytes → Prop} (found : ∀ bytes, EndsIn build thread (rest bytes) client result last ↔
      if fails then stops else goes bytes) :
    EndsIn build thread ((perform (.memory length)).bind rest) client result last ↔
      if fails then stops else ∃ bytes : Bytes, bytes.length = length ∧ goes bytes := by
  rw [memory_then]
  cases fails with
  | true =>
    simp only [if_true] at found ⊢
    constructor
    · rintro ⟨bytes, _, ends⟩
      exact (found bytes).mp ends
    · exact fun ends => ⟨List.replicate length 0, List.length_replicate, (found _).mpr ends⟩
  | false =>
    simp only [Bool.false_eq_true, if_false] at found ⊢
    simp only [found]

/-- What `next` makes of the answer to its last call. -/
def Readdir.file (entry : Readdir) (buffers : Buffers) : Option File :=
  if entry.rc = 0 then none
  else some {
    buffer := (buffers.read entry).buffer.take 512
    longentry := (buffers.read entry).longentry.take 512
    attributes := (buffers.read entry).attrs }

private theorem readdirEx_reads {handle : Ptr} : @Reads Buffers (.sftpReaddirEx handle 512 512)
    (fun entry buffers => ((entry : Readdir).rc, buffers.read entry)) := by
  refine ⟨fun _ _ _ => rfl, fun entry errno blank final buffers => ?_⟩
  obtain ⟨buffer, longentry⟩ := List.append_eq_nil_iff.mp
    (show (entry : Readdir).buffer ++ entry.longentry = [] from blank)
  simp only [Buffers.read, buffer, longentry, overwrite_nil]

theorem next_attempt {handle : Ptr} {attempt : Attempt (.sftpReaddirEx handle 512 512)} {more : List Answer}
    {rest : Option File → Program α} {result : Option α} {after : Client}
    (main : build = .retro → client.mainThreadId = thread)
    (scripted : (client.session this).script = attempt.answers ++ more)
    (then_ : after = client.settled thread this (.handle handle) attempt more (attempt.result : Readdir).rc) :
    EndsIn build thread ((next build this handle).bind rest) client result last ↔
      if attempt.answer.fails then
        result = none ∧ Failed thread this "[libssh2_sftp_readdir_ex] %s" (attempt.result : Readdir).rc after last
      else ∃ buffers : Buffers, buffers.buffer.length = 512 ∧ buffers.longentry.length = 512 ∧
        EndsIn build thread (rest (Readdir.file attempt.result buffers)) after result last := by
  have kept : (client.keepRc (.handle handle) LIBSSH2_ERROR_EAGAIN).settled thread this (.handle handle) attempt more
      (attempt.result : Readdir).rc = after := by
    simp [then_, Client.settled, Client.attempted, Client.keepRc]
  have found (buffers : Buffers) :
      EndsIn build thread ((perform (.setRc (.handle handle) LIBSSH2_ERROR_EAGAIN)).bind fun _ =>
        (rcErrHandle build "libssh2_sftp_readdir_ex" this (.handle handle) (readdirEx build this handle) buffers).bind
          fun buffers => (perform (.rc (.handle handle))).bind fun rc =>
            (if rc = 0 then Code.pure none
            else Code.pure (some {
              buffer := buffers.buffer.take 512
              longentry := buffers.longentry.take 512
              attributes := buffers.attrs })).bind rest) client result last ↔
      if attempt.answer.fails then
        result = none ∧ Failed thread this "[libssh2_sftp_readdir_ex] %s" (attempt.result : Readdir).rc after last
      else EndsIn build thread (rest (Readdir.file attempt.result buffers)) after result last := by
    rw [setRc_then, rcErrHandle_attempt readdirEx_reads readdirEx_makes (fun _ => by exact main)
      (by simpa using scripted) rfl, kept]
    split
    · rfl
    · rw [rc_then, then_, Client.keepRc_same, Readdir.file]
      split <;> rfl
  simp only [next, bind_eq, bind_assoc]
  refine (memory_attempt fun buffer => memory_attempt fun longentry => found ⟨buffer, longentry, {}⟩).trans ?_
  split
  · rfl
  · constructor
    · rintro ⟨buffer, size, longentry, long, ends⟩
      exact ⟨_, size, long, ends⟩
    · rintro ⟨⟨buffer, longentry, attrs⟩, size, long, ends⟩
      exact ⟨buffer, size, longentry, long, ends⟩

private theorem next_repeats {handle : Ptr} :
    Repeats build thread this ((next build this handle).bind fun file => .pure (.file file)) false
      (.sftpReaddirEx handle 512 512) client := by
  refine ⟨fun entry value => ∃ buffers : Buffers, buffers.buffer.length = 512 ∧ buffers.longentry.length = 512 ∧
    value = .file (Readdir.file entry buffers), fun entry => ?_, ?_⟩
  · let blank : Bytes := List.replicate 512 0
    exact ⟨_, ⟨blank, blank, {}⟩, List.length_replicate, List.length_replicate, rfl⟩
  intro attempt more now same main scripted _
  let entry : Readdir := attempt.result
  refine ⟨now.settled thread this (.handle handle) attempt more entry.rc, "[libssh2_sftp_readdir_ex] %s", entry.rc, rfl,
    fun result last => ?_⟩
  rw [next_attempt main scripted rfl]
  split
  · rfl
  · simp only [pure_ends]
    constructor
    · rintro ⟨buffers, size, long, rfl, rfl⟩
      exact ⟨⟨_, ⟨buffers, size, long, rfl⟩, rfl⟩, rfl⟩
    · rintro ⟨⟨_, ⟨buffers, size, long, rfl⟩, rfl⟩, rfl⟩
      exact ⟨buffers, size, long, rfl, rfl⟩

private theorem request_repeats {operation : Operation}
    (requests : operation.request (client.sftp this).sftpPointer = some call) :
    Repeats build thread this (operate build this operation) operation.opens call client := by
  cases operation with
  | fileRead | fileRewind | fileSeek | fileTell => cases requests
  | openfile | opendir => 
    cases requests
    exact openEx_repeats
  | lstat | stat | statvfs | fileStat | fileStatvfs =>
    cases requests
    refine filled_repeats ?_ (fun _ _ => rfl)
    first
    | exact network_sends
    | exact network_sends.pointed
  | fileWrite =>
    cases requests
    exact handled_repeats network_sends.map fun _ _ => rfl
  | dirNext handle =>
    cases requests
    exact next_repeats
  | _ => 
    cases requests
    refine handled_repeats ?_ (fun _ _ => rfl)
    first
    | exact network_sends
    | exact network_sends.pointed

end repeats

section fileRead
variable {handle : Ptr} {size : Attempt (.sftpFstat handle)} {more : List Answer}

theorem fileStat_attempt {rest : Attributes → Program α} {result : Option α}
    (main : size.answer.fails = true → build = .retro → client.mainThreadId = thread)
    (scripted : (client.session this).script = size.answers ++ more) :
    EndsIn build thread ((fileStat build this handle).bind rest) client result last ↔
      if size.answer.fails then
        result = none ∧ Failed thread this "[file/libssh2_sftp_fstat] %s" (size.result : Filled Attributes).rc
          (client.settled thread this (.handle handle) size more (size.result : Filled Attributes).rc) last
      else EndsIn build thread (rest (size.result : Filled Attributes).data)
        (client.settled thread this (.handle handle) size more (size.result : Filled Attributes).rc) result last := by
  have makes : Makes build thread this (fun _ => do
      let filled ← network build this (.sftpFstat handle)
      return (filled.rc, filled.data)) (.sftpFstat handle)
      (fun filled (_ : Attributes) => ((filled : Filled Attributes).rc, filled.data)) client :=
    fun _ => network_sends.map
  exact rcErrHandle_attempt ⟨fun _ _ _ => rfl, fun _ _ _ _ _ => rfl⟩ makes main scripted rfl

private theorem fileRead_attempt
    {data : Attempt (.sftpRead handle (sizeT build (size.result : Filled Attributes).data.filesize))}
    {rest : Bytes → Program α} {result : Option α} {between after : Client} (succeeds : size.answer.fails = false)
    (main : build = .retro → client.mainThreadId = thread)
    (scripted : (client.session this).script = size.answers ++ (data.answers ++ more))
    (first : between = client.settled thread this (.handle handle) size (data.answers ++ more)
      (size.result : Filled Attributes).rc)
    (second : after = between.settled thread this (.handle handle) data more (toInt (data.result : Filled Bytes).rc)) :
    EndsIn build thread ((fileRead build this handle).bind rest) client result last ↔
      if data.answer.fails then
        result = none ∧ Failed thread this "[libssh2_sftp_read] %s" (toInt (data.result : Filled Bytes).rc) after last
      else ∃ buffer : Bytes, buffer.length = sizeT build (size.result : Filled Attributes).data.filesize ∧
        EndsIn build thread (rest ((overwrite buffer (data.result : Filled Bytes).data).take
          (sizeT build (size.result : Filled Attributes).data.filesize))) after result last := by
  let filesize := sizeT build (size.result : Filled Attributes).data.filesize
  have makes : Makes build thread this (fun buffer => do
      let read ← network build this (.sftpRead handle filesize)
      return (toInt read.rc, overwrite buffer read.data)) (.sftpRead handle filesize)
      (fun read buffer => (toInt (read : Filled Bytes).rc, overwrite buffer read.data)) between :=
    fun _ => network_sends.map
  have reads : @Reads Bytes (.sftpRead handle filesize)
      (fun read buffer => (toInt (read : Filled Bytes).rc, overwrite buffer read.data)) := by
    refine ⟨fun _ _ _ => rfl, fun read errno blank final buffer => ?_⟩
    have nothing : (read : Filled Bytes).data = [] := blank
    simp only [nothing, overwrite_nil]
  have left : (between.session this).script = data.answers ++ more := by
    rw [first, Client.keepRc_session, Client.attempted_session]
  have main_ : build = .retro → between.mainThreadId = thread := by rwa [first]
  have found (buffer : Bytes) := @rcErrHandle_attempt build thread this between last α Bytes _ (.handle handle)
    "libssh2_sftp_read" _ buffer _ (fun buffer => rest (buffer.take filesize)) result data more _ reads makes
    (fun _ => main_) left rfl
  rw [← second] at found
  simp only [fileRead, bind_eq, bind_assoc]
  rw [fileStat_attempt (fun _ => main) scripted, succeeds, ← first]
  simp only [Bool.false_eq_true, if_false]
  exact memory_attempt found

private theorem fileRead_settles
    {data : Attempt (.sftpRead handle (sizeT build (size.result : Filled Attributes).data.filesize))}
    (succeeds : size.answer.fails = false) (main : build = .retro → client.mainThreadId = thread)
    (scripted : (client.session this).script = size.answers ++ (data.answers ++ more)) :
    Settles build thread this ((fileRead build this handle).bind fun bytes => .pure (.bytes bytes))
      (size.events thread this ++ data.events thread this) data.answer.fails
      (fun value => ∃ buffer : Bytes, buffer.length = sizeT build (size.result : Filled Attributes).data.filesize ∧
        value = .bytes ((overwrite buffer (data.result : Filled Bytes).data).take
          (sizeT build (size.result : Filled Attributes).data.filesize))) client := by
  let between := client.settled thread this (.handle handle) size (data.answers ++ more)
    (size.result : Filled Attributes).rc
  let code := toInt (data.result : Filled Bytes).rc
  refine ⟨between.settled thread this (.handle handle) data more code, "[libssh2_sftp_read] %s", code, ?_,
    fun result last => ?_⟩
  · exact List.append_assoc ..
  · rw [fileRead_attempt succeeds main scripted rfl rfl]
    split
    · rfl
    · simp only [pure_ends]
      constructor
      · rintro ⟨buffer, length, rfl, rfl⟩
        exact ⟨⟨_, ⟨buffer, length, rfl⟩, rfl⟩, rfl⟩
      · rintro ⟨⟨_, ⟨buffer, length, rfl⟩, rfl⟩, rfl⟩
        exact ⟨buffer, length, rfl, rfl⟩

private theorem fileStat_settles (fails : size.answer.fails = true)
    (main : build = .retro → client.mainThreadId = thread)
    (scripted : (client.session this).script = size.answers ++ more) (values : Value → Prop) :
    Settles build thread this ((fileRead build this handle).bind fun bytes => .pure (.bytes bytes))
      (size.events thread this) true values client := by
  let code := (size.result : Filled Attributes).rc
  refine ⟨client.settled thread this (.handle handle) size more code, "[file/libssh2_sftp_fstat] %s", code, rfl,
    fun result last => ?_⟩
  simp only [fileRead, bind_eq, bind_assoc]
  rw [fileStat_attempt (fun _ => main) scripted, fails]
  rfl

end fileRead

section obeys
variable {operation : Operation} {exchange : Exchange build (client.sftp this).sftpPointer operation}
  {more : List Answer}

private theorem obeys_of_settles {values : Value → Prop} (some_ : ∃ value, values value)
    (settles : Settles build thread this (operate build this operation) (exchange.events thread this)
      exchange.answer.failed values client)
    (alone : Settles build thread this (operate build this operation) (exchange.alone.events thread this)
      exchange.answer.failed values (client.scripted this (exchange.alone.answers ++ more))) :
    Obeys build thread this client exchange more := by
  obtain ⟨after, format, err, log, ends⟩ := settles
  obtain ⟨then_, _, _, _, finishes⟩ := alone
  refine ⟨?_, fun result last finished => ?_, fun value => ?_⟩
  · cases fails : exchange.answer.failed with
    | true =>
      obtain ⟨last, failed⟩ := @failed_exists thread this after format err
      exact ⟨none, last, (ends _ _).mpr (by rw [if_pos fails]; exact ⟨rfl, failed⟩)⟩
    | false =>
      obtain ⟨value, given⟩ := some_
      exact ⟨some value, after, (ends _ _).mpr (by simp [fails, given])⟩
  · have outcome := (ends _ _).mp finished
    cases fails : exchange.answer.failed with
    | true =>
      obtain ⟨rfl, failed⟩ : result = none ∧ Failed thread this format err after last := by simpa [fails] using outcome
      obtain ⟨answer, arguments, grown⟩ := failed.log
      exact ⟨_, by rw [grown, log], rfl, answer, format, arguments, rfl⟩
    | false =>
      obtain ⟨⟨value, _, rfl⟩, rfl⟩ : (∃ value, values value ∧ result = some value) ∧ last = after := by
        simpa [fails] using outcome
      exact ⟨[], by rw [log, List.append_nil], ⟨value, rfl⟩, rfl⟩
  · simp only [ends, finishes]
    cases exchange.answer.failed <;> simp

/-- Where the last answer is not taken for EAGAIN, the operation settles as that answer is kept. -/
private theorem operation_settles (main : build = .retro → client.mainThreadId = thread)
    (scripted : (client.session this).script = exchange.answers ++ more) (definitive : exchange.answer.again = false)
    (quiet : ¬ (operation.opens = true ∧ exchange.answer.fails = true ∧ client.rc (.sftp this) = 1)) :
    ∃ values : Value → Prop, (∃ value, values value) ∧
      Settles build thread this (operate build this operation) (exchange.events thread this) exchange.answer.fails
        values client ∧
      Settles build thread this (operate build this operation) (exchange.alone.events thread this)
        exchange.answer.fails values (client.scripted this (exchange.alone.answers ++ more)) := by
  have left : ((client.scripted this (exchange.alone.answers ++ more)).session this).script =
      exchange.alone.answers ++ more := by
    simp [Client.scripted]
  cases exchange with
  | one requests said =>
    obtain ⟨values, some_, settles⟩ := @request_repeats build thread this client _ operation requests
    refine ⟨values said.result, some_ said.result, ?_, ?_⟩
    · exact settles (said.kept definitive) more client rfl main scripted fun opens fails one =>
        quiet ⟨opens, fails, one⟩
    · exact settles (Said.kept said.alone definitive) more _ rfl main left fun opens fails one =>
        quiet ⟨opens, fails, one⟩
  | @stat handle size fails =>
    refine ⟨(· = .none), ⟨.none, rfl⟩, ?_, ?_⟩
    · have settles := @fileStat_settles build thread this client handle (size.kept definitive) more fails main scripted
        (· = .none)
      rwa [← show size.answer.fails = true from fails] at settles
    · have settles := @fileStat_settles build thread this (client.scripted this _) handle
        (Said.kept size.alone definitive) more fails main left (· = .none)
      rwa [← show size.answer.fails = true from fails] at settles
  | read size succeeds data =>
    have scripted : (client.session this).script = size.answers ++ (data.answers ++ more) := by
      rw [scripted, Exchange.answers, List.append_assoc]
    refine ⟨_, ?_, @fileRead_settles build thread this client _ (size.kept size.definitive) more (data.kept definitive)
      succeeds main scripted, ?_⟩
    · exact ⟨_, List.replicate _ 0, List.length_replicate, rfl⟩
    · have left := left.trans (List.append_assoc size.alone.answers data.alone.answers more)
      exact @fileRead_settles build thread this (client.scripted this _) _ (Said.kept size.alone size.definitive) more
        (Said.kept data.alone definitive) succeeds main left

private theorem obeys_of_fits (main : build = .retro → client.mainThreadId = thread)
    (scripted : (client.session this).script = exchange.answers ++ more) (fits : exchange.answer.Fits)
    (quiet : ¬ (operation.opens = true ∧ exchange.answer.failed = true ∧ client.rc (.sftp this) = 1)) :
    Obeys build thread this client exchange more := by
  obtain ⟨definitive, same⟩ := (Answer.fits_iff exchange.definitive).mp fits
  obtain ⟨values, some_, settles, alone⟩ := operation_settles main scripted definitive (by rwa [same])
  rw [same] at settles alone
  exact obeys_of_settles some_ settles alone

section misread

theorem Attempt.waits {eagain : Answer → Bool} (attempt : Attempt call eagain) :
    (attempt.agains ++ [(attempt.result, attempt.errno)]).flatMap
      (fun reply => [.library thread this call ⟨call.function, reply.1, reply.2⟩, .waited thread this]) =
        attempt.events thread this ++ [.waited thread this] := by
  simp [Attempt.events, Attempt.answer]

theorem Said.each (said : Said call) (misread : said.answer.again = true) :
    ∀ reply ∈ said.agains ++ [(said.result, said.errno)], (Answer.mk call.function reply.1 reply.2).again = true := by
  intro reply member
  rcases List.mem_append.mp member with earlier | rest
  · exact Answer.again_of_eagain (said.again reply earlier)
  · cases List.mem_singleton.mp rest
    exact misread

private theorem misread_write {handle : Ptr} {buf : Bytes} {said : Said (.sftpWrite handle buf)} {result : Option Value}
    (scripted : (client.session this).script = said.answers ++ more) (misread : said.answer.again = true)
    (ends : EndsIn build thread (operate build this (.fileWrite handle buf)) client result last) :
    ∃ after, last.log = client.log ++ said.events thread this ++ .waited thread this :: after := by
  let cmd : Program Int := do return toInt (← network build this (.sftpWrite handle buf))
  have sends : Sends build thread this (.sftpWrite handle buf) (fun (rc : Int) => toInt rc) cmd client :=
    network_sends.map
  have makes : Makes build thread this (fun _ => do return (← cmd, ())) (.sftpWrite handle buf)
      (fun (rc : Int) _ => (toInt rc, ())) client := fun _ => sends.map
  obtain ⟨after, grown⟩ := rcErrHandle_waits (fun _ _ _ => rfl) makes (said.each misread)
    (by simpa [Attempt.answers, Attempt.answer] using scripted) ends
  exact ⟨after, by rw [grown, Attempt.waits]; simp⟩

private theorem misread_read {handle : Ptr} {size : Said (.sftpFstat handle)} {result : Option Value}
    {data : Said (.sftpRead handle (sizeT build (size.result : Filled Attributes).data.filesize))}
    (succeeds : size.answer.failed = false) (main : build = .retro → client.mainThreadId = thread)
    (scripted : (client.session this).script = size.answers ++ data.answers ++ more)
    (misread : data.answer.again = true)
    (ends : EndsIn build thread (operate build this (.fileRead handle)) client result last) :
    ∃ after, last.log = client.log ++ (size.events thread this ++ data.events thread this) ++
      .waited thread this :: after := by
  let filesize := sizeT build (size.result : Filled Attributes).data.filesize
  let between := client.settled thread this (.handle handle) (size.kept size.definitive) (data.answers ++ more)
    (size.result : Filled Attributes).rc
  have makes : Makes build thread this (fun buffer => do
      let read ← network build this (.sftpRead handle filesize)
      return (toInt read.rc, overwrite buffer read.data)) (.sftpRead handle filesize)
      (fun read buffer => (toInt (read : Filled Bytes).rc, overwrite buffer read.data)) between :=
    fun _ => network_sends.map
  have ends : EndsIn build thread ((fileRead build this handle).bind fun bytes => .pure (.bytes bytes)) client result
    last := ends
  have scripted : (client.session this).script = size.answers ++ (data.answers ++ more) := by
    rw [scripted, List.append_assoc]
  have stat : (size.kept size.definitive).answer.fails = false := succeeds
  simp only [fileRead, bind_eq, bind_assoc] at ends
  rw [@fileStat_attempt build thread this client last _ _ (size.kept size.definitive) _ _ _ (fun _ => main) scripted,
    stat] at ends
  simp only [Bool.false_eq_true, if_false] at ends
  obtain ⟨buffer, _, ends⟩ := memory_then.mp ends
  obtain ⟨after, grown⟩ := @rcErrHandle_waits build thread this between last _ _ _ _ _ _ _ _ _ result
    (data.agains ++ [(data.result, data.errno)]) more (fun _ _ _ => rfl) makes (data.each misread)
    (by simp [between, Attempt.answers, Attempt.answer]) ends
  exact ⟨after, by
    rw [grown, Attempt.waits]
    simp [between, Client.keepRc, Client.attempted, Said.kept, Attempt.events, Attempt.answer]⟩

end misread

/-- A number that is taken for EAGAIN is waited for. -/
private theorem misread_waits {result : Option Value}
    (main : build = .retro → client.mainThreadId = thread)
    (scripted : (client.session this).script = exchange.answers ++ more) (misread : exchange.answer.again = true)
    (ends : EndsIn build thread (operate build this operation) client result last) :
    ∃ after, last.log = client.log ++ exchange.events thread this ++ .waited thread this :: after := by
  cases exchange with
  | stat size => exact (Bool.false_ne_true (size.definitive.symm.trans misread)).elim
  | one requests said =>
    cases operation with
    | fileRead | fileRewind | fileSeek | fileTell => cases requests
    | fileWrite handle buf =>
      cases requests
      exact misread_write scripted misread ends
    | _ =>
      cases requests
      exact (Bool.false_ne_true (said.definitive.symm.trans misread)).elim
  | read size succeeds data => exact misread_read succeeds main scripted misread ends

private theorem opens_fails {pointer : Option Ptr} {exchange : Exchange build pointer operation}
    (opens : operation.opens = true) : exchange.answer.fails = exchange.answer.failed := by
  cases exchange with
  | stat | read => cases opens
  | one requests said =>
    cases operation with
    | openfile | opendir =>
      cases requests
      rfl
    | _ => cases opens

private theorem fits_of_obeys (main : build = .retro → client.mainThreadId = thread)
    (scripted : (client.session this).script = exchange.answers ++ more)
    (obeys : Obeys build thread this client exchange more) : exchange.answer.Fits := by
  rw [Answer.fits_iff exchange.definitive]
  obtain ⟨result, last, ends⟩ := obeys.ends
  obtain ⟨after, grown, outcome⟩ := obeys.calls result last ends
  cases again : exchange.answer.again with
  | true =>
    obtain ⟨rest, waits⟩ := misread_waits main scripted again ends
    obtain rfl := List.append_cancel_left (grown.symm.trans waits)
    split at outcome
    · obtain ⟨_, _, _, _, never⟩ := outcome
      cases never
    · cases outcome.2
  | false =>
    refine ⟨rfl, ?_⟩
    cases opens : operation.opens with
    | true => exact opens_fails opens
    | false =>
      obtain ⟨_, _, ⟨_, _, _, _, settles⟩, _⟩ := operation_settles main scripted again fun quiet => by
        simp [opens] at quiet
      have kept : exchange.answer.fails = true ↔ result = none := by
        have settled := (settles result last).mp ends
        split at settled
        next fails => exact iff_of_true fails settled.1
        next stays =>
          obtain ⟨⟨_, _, rfl⟩, _⟩ := settled
          exact iff_of_false stays nofun
      have meant : exchange.answer.failed = true ↔ result = none := by
        split at outcome
        next fails => exact iff_of_true fails outcome.1
        next stays =>
          obtain ⟨⟨_, rfl⟩, _⟩ := outcome
          exact iff_of_false stays nofun
      exact Bool.eq_iff_iff.mpr (kept.trans meant.symm)

private theorem quiet_of_obeys (main : build = .retro → client.mainThreadId = thread)
    (scripted : (client.session this).script = exchange.answers ++ more)
    (obeys : Obeys build thread this client exchange more) :
    ¬ (operation.opens = true ∧ exchange.answer.failed = true ∧ client.rc (.sftp this) = 1) := by
  rintro ⟨opens, fails, one⟩
  obtain ⟨last, ends, log⟩ : ∃ last, EndsIn build thread (operate build this operation) client none last ∧
      last.log = client.log ++ exchange.events thread this ++
        [.noMessage thread, .reported thread openFailed [""]] := by
    cases exchange with
    | stat | read => cases opens
    | one requests said =>
      cases operation with
      | openfile | opendir =>
        cases requests
        exact @openEx_misses build thread this client _ _ _ _ _ _ _ more (said.kept said.definitive) main rfl scripted
          fails one
      | _ => cases opens
  obtain ⟨after, grown, outcome⟩ := obeys.calls none last ends
  rw [fails, if_pos rfl] at outcome
  obtain ⟨_, answer, format, arguments, rfl⟩ := outcome
  rw [log] at grown
  cases List.append_cancel_left grown

/-- An operation tries again exactly as often as it is told to, unless the number of bytes that
it read or wrote means something else as an int, or a file or directory cannot be opened where
`rc` was left at 1. -/
theorem retry_law (main : build = .retro → client.mainThreadId = thread)
    (scripted : (client.session this).script = exchange.answers ++ more) :
    Obeys build thread this client exchange more ↔ exchange.answer.Fits ∧
      ¬ (operation.opens = true ∧ exchange.answer.failed = true ∧ client.rc (.sftp this) = 1) :=
  ⟨fun obeys => ⟨fits_of_obeys main scripted obeys, quiet_of_obeys main scripted obeys⟩,
    fun ⟨fits, quiet⟩ => obeys_of_fits main scripted fits quiet⟩

end obeys

/-- Opening a directory, which is answered with EAGAIN once and then with this handle. -/
def opendirAnswered (handle : Option Ptr) (errno : Int) (definitive : errno ≠ LIBSSH2_ERROR_EAGAIN) :
    Exchange .retro (some 0) (.opendir [47]) :=
  .one rfl {
    agains := [(none, LIBSSH2_ERROR_EAGAIN)]
    result := handle
    errno
    again := fun reply member => by cases List.mem_singleton.mp member; rfl
    blank := fun _ _ => rfl
    definitive := by simp [Answer.eagain, Answer.again, definitive] }

theorem retry_law_opendir : Obeys .retro 0 0 (answering 0 (opendirAnswered (some 7) 0 (by decide)).answers)
      (opendirAnswered (some 7) 0 (by decide)) [] ↔
    (opendirAnswered (some 7) 0 (by decide)).answer.Fits ∧ ¬ ((Operation.opendir [47]).opens = true ∧
      (opendirAnswered (some 7) 0 (by decide)).answer.failed = true ∧ (0 : Int) = 1) :=
  retry_law (fun _ => rfl) (List.append_nil _).symm

/-- The directory cannot be opened, and the operation before left 1 in `rc`. -/
theorem opendir_misses_message : ¬ Obeys .retro 0 0 (answering 1 (opendirAnswered none (-31) (by decide)).answers)
    (opendirAnswered none (-31) (by decide)) [] := by
  intro obeys
  let unopened := answering 1 (opendirAnswered none (-31) (by decide)).answers
  have quiet := @quiet_of_obeys .retro 0 0 unopened _ _ [] (fun _ => rfl) (List.append_nil _).symm obeys
  exact quiet ⟨rfl, rfl, rfl⟩

end PowerBoot.Transfer
