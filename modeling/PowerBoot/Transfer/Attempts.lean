import PowerBoot.Transfer.Steps

/-! Calls that are tried again. RC_ERR_HANDLE repeats its call for as long as the library
answers EAGAIN, with one wait after each such answer, and so do the loops that open a
file or a directory. -/

namespace PowerBoot.Transfer
open Coop Code Memory

/-- A call that the session answers with EAGAIN any number of times, storing nothing, and
then definitively, as the code sees it or as the library means it. -/
structure Attempt (call : Call) (eagain : Answer → Bool := Answer.again) where
  agains : List (call.function.Result × Int)
  result : call.function.Result
  errno : Int
  again : ∀ reply ∈ agains, eagain (Answer.mk call.function reply.1 reply.2) = true
  blank : ∀ reply ∈ agains, (Answer.mk call.function reply.1 reply.2).stored = []
  definitive : eagain (Answer.mk call.function result errno) = false

namespace Attempt
variable {call : Call} {eagain : Answer → Bool} (attempt : Attempt call eagain)

def answer : Answer := ⟨call.function, attempt.result, attempt.errno⟩

def answers : List Answer := attempt.agains.map (fun reply => ⟨call.function, reply.1, reply.2⟩) ++ [attempt.answer]

/-- The definitive answer without those before it. -/
def alone : Attempt call eagain where
  agains := []
  result := attempt.result
  errno := attempt.errno
  again := nofun
  blank := nofun
  definitive := attempt.definitive

/-- The calls, all the same, with one wait between two of them. -/
def events (thread : ThreadId) (this : Ptr) : List Event :=
  attempt.agains.flatMap
    (fun reply => [.library thread this call ⟨call.function, reply.1, reply.2⟩, .waited thread this])
    ++ [.library thread this call attempt.answer]

end Attempt

/-- The client after an attempt, with the script that is left. -/
def Client.attempted (thread : ThreadId) (this : Ptr) {call : Call} (attempt : Attempt call) (more : List Answer)
    (client : Client) : Client :=
  { client with
    session := Function.update client.session this { errno := attempt.errno, script := more }
    log := client.log ++ attempt.events thread this }

variable {build : Build} {thread : ThreadId} {this : Ptr} {client last : Client} {α Memory : Type} {call : Call}

@[simp] theorem Client.attempted_session {attempt : Attempt call} {more : List Answer} :
    (client.attempted thread this attempt more).session this = { errno := attempt.errno, script := more } :=
  Function.update_self ..

/-- A command that is one call, with what it takes from the result. -/
def Sends (build : Build) (thread : ThreadId) (this : Ptr) (call : Call) {Taken : Type}
    (take : call.function.Result → Taken) (cmd : Program Taken) (client : Client) : Prop :=
  ∀ ⦃α : Type⦄ ⦃rest : Taken → Program α⦄ ⦃now : Client⦄ ⦃result last⦄, now.sftp = client.sftp →
    (EndsIn build thread (cmd.bind rest) now result last ↔
      EndsIn build thread ((library this call).bind fun value => rest (take value)) now result last)

theorem network_sends : Sends build thread this call (fun value => value) (network build this call) client :=
  fun _ _ _ _ _ _ => network_then

theorem Sends.pointed {Taken : Type} {take : call.function.Result → Taken} {cmd : Option Ptr → Program Taken}
    (sends : Sends build thread this call take (cmd (client.sftp this).sftpPointer) client) :
    Sends build thread this call take (sftpPointer this >>= cmd) client := by
  intro α rest now result last same
  rw [bind_eq, bind_assoc, sftpPointer_then, same]
  exact sends same

theorem Sends.map {Taken Read : Type} {take : call.function.Result → Taken} {cmd : Program Taken} {read : Taken → Read}
    (sends : Sends build thread this call take cmd client) :
    Sends build thread this call (fun value => read (take value)) (do return read (← cmd)) client := by
  intro α rest now result last same
  rw [bind_eq, bind_assoc]
  exact sends same

section loop

variable {rc : Owner} {funcname : String} {cmd : Memory → Program (Int × Memory)} {memory : Memory}

/-- A command that is one call, from whose result it takes a code and the caller's memory. -/
def Makes (build : Build) (thread : ThreadId) (this : Ptr) (cmd : Memory → Program (Int × Memory)) (call : Call)
    (read : call.function.Result → Memory → Int × Memory) (client : Client) : Prop :=
  ∀ memory, Sends build thread this call (read · memory) (cmd memory) client

variable {read : call.function.Result → Memory → Int × Memory} {rest : Memory → Program α} {result : Option α}

theorem rcLoop_done (settled : client.rc rc ≠ LIBSSH2_ERROR_EAGAIN) :
    EndsIn build thread ((rcLoop build this rc cmd memory).bind rest) client result last ↔
      EndsIn build thread (rest memory) client result last := by
  rw [rcLoop, iterate_then]
  simp only [bind_eq, bind_assoc]
  rw [rc_then]
  simp only [settled, if_false]
  rfl

/-- One turn of the loop, with the answer that the script has for its call. -/
theorem rcLoop_turn {value : call.function.Result} {errno : Int} {script : List Answer} {after : Client}
    (makes : Makes build thread this cmd call read client) (again : client.rc rc = LIBSSH2_ERROR_EAGAIN)
    (scripted : nextAnswer call.function (client.session this).script = some (⟨call.function, value, errno⟩, script))
    (kept : after = (client.answered thread this call ⟨call.function, value, errno⟩ script).keepRc rc
      (read value memory).1) :
    EndsIn build thread ((rcLoop build this rc cmd memory).bind rest) client result last ↔
      if (read value memory).1 = LIBSSH2_ERROR_EAGAIN then
        EndsIn build thread ((rcLoop build this rc cmd (read value memory).2).bind rest)
          (after.record (.waited thread this)) result last
      else EndsIn build thread (rest (read value memory).2) after result last := by
  rw [rcLoop, iterate_then]
  simp only [bind_eq, bind_assoc]
  rw [rc_then]
  simp only [again, if_true, bind_assoc]
  rw [makes memory rfl, library_scripted scripted, setRc_then, rc_then, ← kept]
  have now : after.rc rc = (read value memory).1 := by rw [kept, Client.keepRc_same]
  simp only [now]
  split
  next more =>
    simp only [when, if_pos more, bind_assoc, wait_then]
    rfl
  next settled =>
    simp only [when, if_neg settled, pure_bind]
    exact @rcLoop_done build thread this after last α Memory rc cmd (read value memory).2 rest result (now ▸ settled)

/-- What a command reads from a result: its code, and memory that answers which store
nothing leave alone. -/
structure Reads (read : call.function.Result → Memory → Int × Memory) : Prop where
  code : ∀ value errno memory, (Answer.mk call.function value errno).code = some (read value memory).1
  settles : ∀ value errno, (Answer.mk call.function value errno).stored = [] → ∀ final memory,
    (read final (read value memory).2).2 = (read final memory).2

/-- The client after an attempt whose code was kept. -/
abbrev Client.settled (thread : ThreadId) (this : Ptr) (rc : Owner) (attempt : Attempt call) (more : List Answer)
    (code : Int) (client : Client) : Client :=
  (client.attempted thread this attempt more).keepRc rc code

/-- The client after the calls of a loop, with one wait after each answer but the last. -/
def Client.repeated (thread : ThreadId) (this : Ptr) (call : Call) (agains : List (call.function.Result × Int))
    (value : call.function.Result) (errno : Int) (more : List Answer) (client : Client) : Client :=
  { client with
    session := Function.update client.session this { errno, script := more }
    log := client.log ++ (agains.flatMap
      (fun reply => [.library thread this call ⟨call.function, reply.1, reply.2⟩, .waited thread this]) ++
        [.library thread this call ⟨call.function, value, errno⟩]) }

section results
variable {agains : List (call.function.Result × Int)} {value : call.function.Result} {errno : Int} {more : List Answer}

/-- What the loop leaves, where the results that are taken for EAGAIN may have stored something. -/
theorem rcLoop_results
    (code : ∀ value errno memory, (Answer.mk call.function value errno).code = some (read value memory).1)
    (makes : Makes build thread this cmd call read client) (again : client.rc rc = LIBSSH2_ERROR_EAGAIN)
    (each : ∀ reply ∈ agains, (Answer.mk call.function reply.1 reply.2).again = true)
    (definitive : (Answer.mk call.function value errno).again = false)
    (scripted : (client.session this).script =
      agains.map (fun reply => ⟨call.function, reply.1, reply.2⟩) ++ ⟨call.function, value, errno⟩ :: more) :
    EndsIn build thread ((rcLoop build this rc cmd memory).bind rest) client result last ↔
      EndsIn build thread (rest (read value (agains.foldl (fun memory reply => (read reply.1 memory).2) memory)).2)
        ((client.repeated thread this call agains value errno more).keepRc rc (read value memory).1) result last := by
  induction agains generalizing client memory with
  | nil =>
    have next : nextAnswer call.function (client.session this).script = some (⟨call.function, value, errno⟩, more) := by
      rw [scripted]
      exact nextAnswer_cons
    have settled : (read value memory).1 ≠ LIBSSH2_ERROR_EAGAIN := by
      rw [Ne, ← Answer.again_iff (code value errno memory), definitive]
      exact Bool.false_ne_true
    rw [rcLoop_turn makes again next rfl, if_neg settled]
    rfl
  | cons reply agains ih =>
    obtain ⟨first, number⟩ := reply
    have next : nextAnswer call.function (client.session this).script = some (⟨call.function, first, number⟩,
        agains.map (fun reply => ⟨call.function, reply.1, reply.2⟩) ++ ⟨call.function, value, errno⟩ :: more) := by
      rw [scripted]
      exact nextAnswer_cons
    have tried : (read first memory).1 = LIBSSH2_ERROR_EAGAIN :=
      (Answer.again_iff (code first number memory)).mp (each _ (List.mem_cons_self ..))
    have steady : (read value (read first memory).2).1 = (read value memory).1 := by
      apply Option.some.inj
      rw [← code value errno, ← code value errno]
    rw [rcLoop_turn makes again next rfl, if_pos tried, ih (by exact makes) (by simp [tried])
      (fun reply member => each reply (List.mem_cons_of_mem _ member)) (by simp), steady, List.foldl_cons]
    simp only [Client.repeated, Client.keepRc, Client.record, Client.answered, Function.update_idem, List.flatMap_cons,
      List.append_assoc, List.cons_append, List.nil_append]

theorem Reads.settled (reads : Reads read)
    (blank : ∀ reply ∈ agains, (Answer.mk call.function reply.1 reply.2).stored = []) :
    (read value (agains.foldl (fun memory reply => (read reply.1 memory).2) memory)).2 = (read value memory).2 := by
  induction agains generalizing memory with
  | nil => rfl
  | cons reply agains ih =>
    rw [List.foldl_cons, ih fun reply member => blank reply (List.mem_cons_of_mem _ member)]
    exact reads.settles _ _ (blank _ (List.mem_cons_self ..)) value memory

theorem rcErrHandle_results
    (code : ∀ value errno memory, (Answer.mk call.function value errno).code = some (read value memory).1)
    (makes : ∀ client, Makes build thread this cmd call read client)
    (each : ∀ reply ∈ agains, (Answer.mk call.function reply.1 reply.2).again = true)
    (definitive : (Answer.mk call.function value errno).again = false)
    (scripted : (client.session this).script =
      agains.map (fun reply => ⟨call.function, reply.1, reply.2⟩) ++ ⟨call.function, value, errno⟩ :: more) :
    (0 ≤ (read value memory).1 → ∃ after : Client, ∀ (rest : Memory → Program α) result last,
      EndsIn build thread ((rcErrHandle build funcname this rc cmd memory).bind rest) client result last ↔
        EndsIn build thread (rest (read value (agains.foldl (fun memory reply => (read reply.1 memory).2) memory)).2)
          after result last) ∧
    ((read value memory).1 < 0 → ∀ (rest : Memory → Program α) value last,
      ¬ EndsIn build thread ((rcErrHandle build funcname this rc cmd memory).bind rest) client (some value) last) := by
  have ends (rest : Memory → Program α) (result : Option α) (last : Client) :=
    @rcLoop_results build thread this (client.keepRc rc LIBSSH2_ERROR_EAGAIN) last α Memory call rc cmd memory read rest
      result agains value errno more code (makes _) Client.keepRc_same each definitive scripted
  constructor
  · intro settled
    refine ⟨((client.keepRc rc LIBSSH2_ERROR_EAGAIN).repeated thread this call agains value errno more).keepRc rc
      (read value memory).1, fun rest result last => ?_⟩
    rw [rcErrHandle_eq, bind_assoc, setRc_then, bind_assoc, ends, rcError]
    simp only [bind_eq, bind_assoc]
    rw [rc_then, Client.keepRc_same]
    simp only [when, if_neg (Int.not_lt.mpr settled)]
    rfl
  · intro negative rest value last
    rw [rcErrHandle_eq, bind_assoc, setRc_then, bind_assoc, ends, rcError]
    simp only [bind_eq, bind_assoc]
    rw [rc_then, Client.keepRc_same]
    simp only [when, if_pos negative, bind_assoc]
    rw [rc_then, Client.keepRc_same, message_then (by omega), library_then]
    rintro ⟨_, _, _, _, _, _, ends⟩
    exact errorThrow_never ends

/-- What is taken for EAGAIN is waited for, whatever comes after it. -/
theorem rcLoop_waits
    (code : ∀ value errno memory, (Answer.mk call.function value errno).code = some (read value memory).1)
    (makes : Makes build thread this cmd call read client) (again : client.rc rc = LIBSSH2_ERROR_EAGAIN)
    (each : ∀ reply ∈ agains, (Answer.mk call.function reply.1 reply.2).again = true)
    (scripted : (client.session this).script = agains.map (fun reply => ⟨call.function, reply.1, reply.2⟩) ++ more)
    (ends : EndsIn build thread ((rcLoop build this rc cmd memory).bind rest) client result last) :
    ∃ after, last.log = client.log ++ agains.flatMap
      (fun reply => [.library thread this call ⟨call.function, reply.1, reply.2⟩, .waited thread this]) ++ after := by
  induction agains generalizing client memory with
  | nil =>
    obtain ⟨after, grown⟩ := ends_grows ends
    exact ⟨after, by rw [grown, List.flatMap_nil, List.append_nil]⟩
  | cons reply agains ih =>
    obtain ⟨first, number⟩ := reply
    have next : nextAnswer call.function (client.session this).script = some (⟨call.function, first, number⟩,
        agains.map (fun reply => ⟨call.function, reply.1, reply.2⟩) ++ more) := by
      rw [scripted]
      exact nextAnswer_cons
    have tried : (read first memory).1 = LIBSSH2_ERROR_EAGAIN :=
      (Answer.again_iff (code first number memory)).mp (each _ (List.mem_cons_self ..))
    rw [rcLoop_turn makes again next rfl, if_pos tried] at ends
    obtain ⟨after, grown⟩ := ih (by exact makes) (by simp [tried])
      (fun reply member => each reply (List.mem_cons_of_mem _ member)) (by simp) ends
    exact ⟨after, by simp [grown, Client.record, Client.keepRc, Client.answered]⟩

theorem rcErrHandle_waits
    (code : ∀ value errno memory, (Answer.mk call.function value errno).code = some (read value memory).1)
    (makes : Makes build thread this cmd call read client)
    (each : ∀ reply ∈ agains, (Answer.mk call.function reply.1 reply.2).again = true)
    (scripted : (client.session this).script = agains.map (fun reply => ⟨call.function, reply.1, reply.2⟩) ++ more)
    (ends : EndsIn build thread ((rcErrHandle build funcname this rc cmd memory).bind rest) client result last) :
    ∃ after, last.log = client.log ++ agains.flatMap
      (fun reply => [.library thread this call ⟨call.function, reply.1, reply.2⟩, .waited thread this]) ++ after := by
  rw [rcErrHandle_eq, bind_assoc, setRc_then, bind_assoc] at ends
  exact @rcLoop_waits build thread this (client.keepRc rc LIBSSH2_ERROR_EAGAIN) last α Memory call rc cmd memory read
    _ result agains more code makes Client.keepRc_same each (by simpa using scripted) ends

end results

theorem rcLoop_attempt {attempt : Attempt call} {more : List Answer} (reads : Reads read)
    (makes : Makes build thread this cmd call read client) (again : client.rc rc = LIBSSH2_ERROR_EAGAIN)
    (scripted : (client.session this).script = attempt.answers ++ more) :
    EndsIn build thread ((rcLoop build this rc cmd memory).bind rest) client result last ↔
      EndsIn build thread (rest (read attempt.result memory).2)
        (client.settled thread this rc attempt more (read attempt.result memory).1) result last := by
  rw [Attempt.answers, List.append_assoc, List.singleton_append] at scripted
  rw [rcLoop_results reads.code makes again attempt.again attempt.definitive scripted, reads.settled attempt.blank]
  rfl

/-- The thread asked for the message of the error and reported it. -/
def Failed (thread : ThreadId) (this : Ptr) (format : String) (err : Int) (now last : Client) : Prop :=
  ∃ input answer script st, now.answer this .sessionLastError input = some (answer, script) ∧
    answer.for .sessionLastError = some st ∧
    last = (now.answered thread this .sessionLastError answer script).record
      (.reported thread format [st ++ " (" ++ toString err ++ ")"])

theorem failed_exists (format : String) (err : Int) : ∃ last, Failed thread this format err client last := by
  have answered : ∃ input answer script, client.answer this .sessionLastError input = some (answer, script) ∧
      answer.function = .sessionLastError := by
    unfold Client.answer
    split
    next found next =>
      obtain ⟨answer, script⟩ := found
      exact ⟨.none, answer, script, rfl, (nextAnswer_some next).1⟩
    · exact ⟨.answer ⟨.sessionLastError, "", 0⟩, ⟨.sessionLastError, "", 0⟩, (client.session this).script, rfl, rfl⟩
  obtain ⟨input, ⟨_, st, errno⟩, script, answered, rfl⟩ := answered
  exact ⟨_, input, ⟨.sessionLastError, st, errno⟩, script, st, answered, Answer.for_iff.mpr rfl, rfl⟩

theorem Failed.log {format : String} {err : Int} (failed : Failed thread this format err client last) :
    ∃ answer arguments, last.log = client.log ++
      [.library thread this .sessionLastError answer, .reported thread format arguments] := by
  obtain ⟨_, answer, _, _, _, _, rfl⟩ := failed
  exact ⟨answer, _, List.append_assoc ..⟩

theorem message_errorThrow {β : Type} {format : String} {err : Int} {rest : Unit → Program β} {result : Option β}
    (named : err ≠ 1) (main : build = .retro → client.mainThreadId = thread) :
    EndsIn build thread ((message this err).bind fun msg => (errorThrow build format [msg]).bind rest) client
      result last ↔ result = none ∧ Failed thread this format err client last := by
  rw [message_then named, library_then]
  constructor
  · rintro ⟨input, answer, script, st, answered, given, ends⟩
    obtain ⟨rfl, rfl⟩ := (errorThrow_then (by exact main)).mp ends
    exact ⟨rfl, input, answer, script, st, answered, given, rfl⟩
  · rintro ⟨rfl, input, answer, script, st, answered, given, rfl⟩
    exact ⟨input, answer, script, st, answered, given, (errorThrow_then (by exact main)).mpr ⟨rfl, rfl⟩⟩

theorem rcErrHandle_attempt {attempt : Attempt call} {more : List Answer} {code : Int} (reads : Reads read)
    (makes : Makes build thread this cmd call read client)
    (main : attempt.answer.fails = true → build = .retro → client.mainThreadId = thread)
    (scripted : (client.session this).script = attempt.answers ++ more) (given : attempt.answer.code = some code) :
    EndsIn build thread ((rcErrHandle build funcname this rc cmd memory).bind rest) client result last ↔
      if attempt.answer.fails then
        result = none ∧ Failed thread this ("[" ++ funcname ++ "] %s") code
          (client.settled thread this rc attempt more code) last
      else EndsIn build thread (rest (read attempt.result memory).2) (client.settled thread this rc attempt more code)
        result last := by
  have same : (read attempt.result memory).1 = code := by
    apply Option.some.inj
    rw [← given, Attempt.answer, ← reads.code]
  have settled : (client.keepRc rc LIBSSH2_ERROR_EAGAIN).settled thread this rc attempt more code =
      client.settled thread this rc attempt more code := by
    simp [Client.settled, Client.attempted, Client.keepRc]
  rw [rcErrHandle_eq, bind_assoc, setRc_then, bind_assoc]
  rw [rcLoop_attempt reads (by exact makes) Client.keepRc_same (by simpa using scripted), same, settled, rcError]
  simp only [bind_eq, bind_assoc]
  rw [rc_then]
  have fails : attempt.answer.fails = decide (code < 0) := by simp [Answer.fails, given]
  simp only [Client.keepRc_same, fails, decide_eq_true_eq]
  split
  next negative =>
    simp only [when, if_pos negative, bind_assoc]
    have main : build = .retro → client.mainThreadId = thread := main (by simp [fails, negative])
    rw [rc_then, Client.keepRc_same, message_errorThrow (by omega) (by exact main)]
  next positive =>
    simp only [when, if_neg positive]
    rfl

end loop

section open_
variable {filename : Bytes} {flags mode openType : Int} {rest : Ptr → Program α} {result : Option α}

/-- The text of the error of the open loops, for files as well. -/
def openFailed : String := "Unable to open directory: %s\n"

/-- A call of the open loops failed. The number that is shown is whatever `rc` was before. -/
def OpenFailed (thread : ThreadId) (this : Ptr) (now last : Client) : Prop :=
  if now.rc (.sftp this) = 1 then last = (now.record (.noMessage thread)).record (.reported thread openFailed [""])
  else Failed thread this openFailed (now.rc (.sftp this)) now last

theorem openEx_turn {pointer handle : Option Ptr} {errno : Int} {script : List Answer} {after : Client}
    (main : build = .retro → client.mainThreadId = thread) (points : (client.sftp this).sftpPointer = pointer)
    (scripted : nextAnswer .sftpOpenEx (client.session this).script = some (⟨.sftpOpenEx, handle, errno⟩, script))
    (then_ : after = client.answered thread this (.sftpOpenEx pointer filename filename.length flags mode openType)
      ⟨.sftpOpenEx, handle, errno⟩ script) :
    EndsIn build thread ((openEx build this filename flags mode openType).bind rest) client result last ↔
      match handle with
      | some handle => EndsIn build thread (rest handle) after result last
      | none =>
        if errno = LIBSSH2_ERROR_EAGAIN then
          EndsIn build thread ((openEx build this filename flags mode openType).bind rest)
            (after.record (.waited thread this)) result last
        else result = none ∧ OpenFailed thread this after last := by
  subst then_
  have next : nextAnswer (Call.sftpOpenEx pointer filename filename.length flags mode openType).function
    (client.session this).script = some (⟨.sftpOpenEx, handle, errno⟩, script) := scripted
  rw [openEx, iterate_then]
  simp only [bind_eq, bind_assoc]
  rw [sftpPointer_then, points, network_then, library_scripted next]
  cases handle with
  | some handle => rfl
  | none =>
    simp only [bind_assoc]
    rw [sessionLastErrno_then, Client.answered_session]
    dsimp only
    split
    next again =>
      simp only [bind_assoc, wait_then]
      rfl
    next definite =>
      simp only [bind_assoc]
      rw [rc_then, OpenFailed]
      split
      next one =>
        rw [one, message_one_then, errorThrow_then (by exact main)]
        rfl
      next named => exact message_errorThrow named (by exact main)

theorem openEx_attempt {pointer : Option Ptr} {more : List Answer}
    {attempt : Attempt (.sftpOpenEx pointer filename filename.length flags mode openType)}
    (main : build = .retro → client.mainThreadId = thread) (points : (client.sftp this).sftpPointer = pointer)
    (scripted : (client.session this).script = attempt.answers ++ more) :
    EndsIn build thread ((openEx build this filename flags mode openType).bind rest) client result last ↔
      match (attempt.result : Option Ptr) with
      | some handle => EndsIn build thread (rest handle) (client.attempted thread this attempt more) result last
      | none => result = none ∧ OpenFailed thread this (client.attempted thread this attempt more) last := by
  obtain ⟨agains, handle, errno, each, blank, definitive⟩ := attempt
  induction agains generalizing client with
  | nil =>
    have next : nextAnswer .sftpOpenEx (client.session this).script = some (⟨.sftpOpenEx, handle, errno⟩, more) := by
      rw [scripted]
      exact nextAnswer_cons
    rw [openEx_turn main points next rfl]
    cases handle with
    | some handle => rfl
    | none =>
      have settled : errno ≠ LIBSSH2_ERROR_EAGAIN := by simpa [Answer.again] using definitive
      simp only [if_neg settled]
      rfl
  | cons reply agains ih =>
    obtain ⟨first, number⟩ := reply
    have next : nextAnswer .sftpOpenEx (client.session this).script = some (⟨.sftpOpenEx, first, number⟩,
        agains.map (fun reply => ⟨.sftpOpenEx, reply.1, reply.2⟩) ++ [⟨.sftpOpenEx, handle, errno⟩] ++ more) := by
      rw [scripted]
      exact nextAnswer_cons
    have again : first = none ∧ number = LIBSSH2_ERROR_EAGAIN := by
      simpa [Answer.again] using each _ (List.mem_cons_self ..)
    obtain ⟨rfl, rfl⟩ := again
    rw [openEx_turn main points next rfl]
    simp only [if_true]
    rw [ih (by exact main) (by exact points) (fun reply member => each reply (List.mem_cons_of_mem _ member))
      (fun reply member => blank reply (List.mem_cons_of_mem _ member)) (by simp [Attempt.answers, Attempt.answer])]
    simp only [Client.attempted, Client.record, Client.answered, Attempt.events, Attempt.answer, Function.update_idem,
      List.flatMap_cons, List.append_assoc, List.cons_append, List.nil_append]

/-- An open loop that fails where `rc` is 1 uses a message that there is not. -/
theorem openEx_misses {pointer : Option Ptr} {more : List Answer}
    {attempt : Attempt (.sftpOpenEx pointer filename filename.length flags mode openType)}
    (main : build = .retro → client.mainThreadId = thread) (points : (client.sftp this).sftpPointer = pointer)
    (scripted : (client.session this).script = attempt.answers ++ more) (fails : attempt.answer.fails = true)
    (one : client.rc (.sftp this) = 1) :
    ∃ last, EndsIn build thread ((openEx build this filename flags mode openType).bind rest) client none last ∧
      last.log = client.log ++ attempt.events thread this ++ [.noMessage thread, .reported thread openFailed [""]] := by
  let after := client.attempted thread this attempt more
  refine ⟨(after.record (.noMessage thread)).record (.reported thread openFailed [""]), ?_, List.append_assoc ..⟩
  rw [openEx_attempt main points scripted]
  obtain ⟨agains, handle, errno, each, blank, definitive⟩ := attempt
  cases handle with
  | some handle => cases fails
  | none => exact ⟨rfl, (if_pos (show after.rc (.sftp this) = 1 from one)).mpr rfl⟩

end open_

def Buffers.read (entry : Readdir) (buffers : Buffers) : Buffers where
  buffer := overwrite buffers.buffer entry.buffer
  longentry := overwrite buffers.longentry entry.longentry
  attrs := entry.attrs

theorem readdirEx_makes {handle : Ptr} : Makes build thread this (readdirEx build this handle)
    (.sftpReaddirEx handle 512 512) (fun entry buffers => ((entry : Readdir).rc, buffers.read entry)) client := by
  intro buffers
  exact network_sends.map

/-- A session that answers from a script, with this `rc` left in the object. -/
def answering (rc : Int) (script : List Answer) : Client where
  mainThreadId := 0
  sftp _ := { sock := 0, sftpPointer := some 0, sftpHandle := none, channel := none, recvBuffer := none, userauthlist :=
    none }
  rc _ := rc
  session _ := { script }

end PowerBoot.Transfer
