import PowerBoot.Coop.Passage
import PowerBoot.Transfer.Directory
import PowerBoot.Transfer.Retry
import PowerBoot.Transfer.Undisturbed

/-! What the methods of an object make of the answers of its session. Each method asks one
question, a file that is read two of them. It asks the same question again after it has waited,
for as long as the session has no answer. After a failure it asks for the error, reports it and
asks nothing more. What it returns is what the definitive answers say. -/

namespace PowerBoot.Transfer
open Coop Code Memory

/-- An answer, with the call it is the answer to. -/
structure Reply where
  call : Call
  answer : Answer

/-- The next question of an operation, after these answers. -/
def Operation.asks (build : Build) (pointer : Option Ptr) : Operation → List Reply → Option Call
  | .fileRead handle, [] => some (.sftpFstat handle)
  | .fileRead handle, [⟨_, ⟨.sftpFstat, size, _⟩⟩] => some (.sftpRead handle (sizeT build size.data.filesize))
  | .fileRewind handle, [] => some (.sftpRewind handle)
  | .fileSeek handle offset, [] => some (.sftpSeek handle offset)
  | .fileTell handle, [] => some (.sftpTell handle)
  | operation, [] => operation.request pointer
  | _, _ => none

/-- The file of an entry of a directory: all that fits of what the session stored. -/
structure Readdir.Fills (entry : Readdir) (file : File) : Prop where
  length : file.buffer.length = 512
  buffer : entry.buffer.take 512 <+: file.buffer
  longentry : entry.longentry.take 512 <+: file.longentry
  attributes : file.attributes = entry.attrs

/-- What `next` returns for an entry. -/
def Readdir.Found (entry : Readdir) (found : Option File) : Prop :=
  if entry.rc = 0 then found = none else ∃ file, found = some file ∧ entry.Fills file

/-- What a method returns for a definitive answer. -/
def Answer.Gives (answer : Answer) (value : Value) : Prop :=
  match answer with
  | ⟨.sftpLstat, filled, _⟩ | ⟨.sftpStat, filled, _⟩ | ⟨.sftpFstat, filled, _⟩ => value = .attributes filled.data
  | ⟨.sftpStatvfs, filled, _⟩ | ⟨.sftpFstatvfs, filled, _⟩ => value = .statvfs filled.data
  | ⟨.sftpOpenEx, handle, _⟩ => ∃ opened, handle = some opened ∧ value = .handle opened
  | ⟨.sftpReaddirEx, entry, _⟩ => ∃ found, value = .file found ∧ entry.Found found
  | ⟨.sftpTell, offset, _⟩ => value = .offset offset
  | _ => value = .none

/-- What an operation returns once it has these answers. A file that is read is as long as the
first of its two answers says, and begins with the bytes of the second. -/
def Gives (build : Build) (replies : List Reply) (value : Value) : Prop :=
  match replies with
  | [⟨_, answer⟩] => answer.Gives value
  | [⟨_, ⟨.sftpFstat, size, _⟩⟩, ⟨_, ⟨.sftpRead, read, _⟩⟩] =>
    ∃ bytes, value = .bytes bytes ∧ bytes.length = sizeT build size.data.filesize ∧
      read.data.take bytes.length <+: bytes
  | _ => False

/-- Whether a method asks its next question, has to wait before it asks again, or has a failure
that it asks for the error of and reports. -/
inductive Standing where
  | asking | blocked | failed | explained | reported

/-- The definitive answers that a method has so far, and where it is. -/
structure Dialogue where
  replies : List Reply := []
  standing : Standing := .asking

/-- What a method has once its question is answered. -/
def hearing (asked : List Reply) (call : Call) (answer : Answer) : Dialogue :=
  if answer.again then ⟨asked, .blocked⟩
  else ⟨asked ++ [⟨call, answer⟩], if answer.fails then .failed else .asking⟩

/-- The events of a method: the answer to its next question, the wait for it, the error of a
failure (which error_msg does not ask for where the number is 1), and the report. -/
inductive Dialogue.Goes (build : Build) (user : ThreadId) (this : Ptr) (pointer : Option Ptr) (operation : Operation) :
    Dialogue → Event → Dialogue → Prop where
  | answered {asked : List Reply} {call : Call} {answer : Answer}
      (asks : operation.asks build pointer asked = some call)
      (given : answer.function = call.function) :
      Goes build user this pointer operation ⟨asked, .asking⟩ (.library user this call answer)
        (hearing asked call answer)
  | waits {asked : List Reply} :
      Goes build user this pointer operation ⟨asked, .blocked⟩ (.waited user this) ⟨asked, .asking⟩
  | explains {asked : List Reply} {answer : Answer} (given : answer.function = .sessionLastError) :
      Goes build user this pointer operation ⟨asked, .failed⟩ (.library user this .sessionLastError answer)
        ⟨asked, .explained⟩
  | unexplained {asked : List Reply} :
      Goes build user this pointer operation ⟨asked, .failed⟩ (.noMessage user) ⟨asked, .explained⟩
  | reports {asked : List Reply} {format : String} {arguments : List String} :
      Goes build user this pointer operation ⟨asked, .explained⟩ (.reported user format arguments) ⟨asked, .reported⟩

/-- The events are those of the method from its beginning, and this is where it is then. -/
inductive Converses (build : Build) (user : ThreadId) (this : Ptr) (pointer : Option Ptr) (operation : Operation) :
    List Event → Dialogue → Prop where
  | begins : Converses build user this pointer operation [] {}
  | more {events : List Event} {dialogue next : Dialogue} {event : Event}
      (converses : Converses build user this pointer operation events dialogue)
      (goes : dialogue.Goes build user this pointer operation event next) :
      Converses build user this pointer operation (events ++ [event]) next

/-- After these events the method has reported a failure, or it is in `wait` with its question
unanswered. -/
def Dialogue.Stuck (build : Build) (user : ThreadId) (this : Ptr) (pointer : Option Ptr) (operation : Operation)
    (events : List Event) (dialogue : Dialogue) : Prop :=
  dialogue.standing = .reported ∨
    events.getLast? = some (.waited user this) ∧ operation.asks build pointer dialogue.replies ≠ none

/-- An event of a call of an operation, of which the thread has recorded these events so far. It
returns where nothing is left to ask, and what it returns is what the answers say. -/
def Event.Follows (build : Build) (user : ThreadId) (this : Ptr) (pointer : Option Ptr) (operation : Operation)
    (more : List Event) : Event → Prop
  | .returned _ value => ∃ asked, Converses build user this pointer operation more ⟨asked, .asking⟩ ∧
    operation.asks build pointer asked = none ∧ Gives build asked value
  | .threw _ | .exited _ | .disposed .. => ∃ dialogue, Converses build user this pointer operation more dialogue ∧
    dialogue.Stuck build user this pointer operation more
  | .called .. | .spawned .. => False
  | event => ∃ dialogue, Converses build user this pointer operation (more ++ [event]) dialogue

/-- The events since a thread's last call, after one more event. -/
def Event.recentAfter (thread : ThreadId) (events : List Event) : Event → List Event
  | .called actor entry => if actor = thread then [] else events ++ [.called actor entry]
  | event => events ++ [event]

def recent (thread : ThreadId) (log : List Event) : List Event := log.foldl (Event.recentAfter thread) []

/-- The event follows the dialogue of a call that began in such a state, where the object had
the pointer that is passed with each question. -/
def RespondsTo (build : Build) (user : ThreadId) (this : Ptr) (operation : Operation) (began : Client → Prop)
    (past : List Event) (event : Event) : Prop :=
  ∃ begun, began begun ∧ past = begun.log ++ recent user past ∧
    event.Follows build user this (begun.sftp this).sftpPointer operation (own user (recent user past))

def Responded (build : Build) (user : ThreadId) (this : Ptr) (began : ThreadId → Entry → Client → Prop)
    (past : List Event) (event : Event) : Prop :=
  event.thread = user → ∀ operation, callOf user past = some (.operate this operation) →
    RespondsTo build user this operation (began user (.operate this operation)) past event

/-- A thread that is here in an operation that began at `begun`. -/
structure Hears (build : Build) (user : ThreadId) (this : Ptr) (pointer : Option Ptr) (operation : Operation)
    (begun : Client) (dialogue : Dialogue) (now : Client) : Prop where
  log : ∃ events, now.log = begun.log ++ events ∧ Converses build user this pointer operation events dialogue
  points : (now.sftp this).sftpPointer = pointer

/-- A thread that is somewhere in the operation. -/
def Asking (build : Build) (user : ThreadId) (this : Ptr) (pointer : Option Ptr) (operation : Operation)
    (begun : Client) (now : Client) : Prop :=
  ∃ dialogue, Hears build user this pointer operation begun dialogue now

/-- A thread that may leave the operation without a result. -/
def Stuck (build : Build) (user : ThreadId) (this : Ptr) (pointer : Option Ptr) (operation : Operation) (begun : Client)
    (now : Client) : Prop :=
  ∃ dialogue events, Hears build user this pointer operation begun dialogue now ∧ now.log = begun.log ++ events ∧
    dialogue.Stuck build user this pointer operation events

/-- A part of the operation: the thread goes through the dialogue, and leaves `post`. -/
abbrev Answering (build : Build) (user : ThreadId) (this : Ptr) (pointer : Option Ptr) (operation : Operation)
    (begun : Client) {α : Type} (code : Program α) (post : α → Client → Prop) (now : Client) : Prop :=
  Passage (K := kernel build) user (Asking build user this pointer operation begun)
    (Stuck build user this pointer operation begun) code post now

variable {build : Build} {user thread : ThreadId} {this : Ptr} {pointer : Option Ptr} {operation : Operation}
  {begun now after client : Client} {asked : List Reply} {dialogue next : Dialogue} {log more : List Event}
  {event : Event}

namespace Hears

theorem still (hears : Hears build user this pointer operation begun dialogue now) (log : after.log = now.log)
    (points : (after.sftp this).sftpPointer = (now.sftp this).sftpPointer) :
    Hears build user this pointer operation begun dialogue after := ⟨log ▸ hears.log, points.trans hears.points⟩

theorem goes (hears : Hears build user this pointer operation begun dialogue now)
    (goes : dialogue.Goes build user this pointer operation event next) (log : after.log = now.log ++ [event])
    (points : (after.sftp this).sftpPointer = (now.sftp this).sftpPointer) :
    Hears build user this pointer operation begun next after := by
  obtain ⟨events, grown, converses⟩ := hears.log
  exact ⟨⟨events ++ [event], by rw [log, grown, List.append_assoc], converses.more goes⟩, points.trans hears.points⟩

theorem asking (hears : Hears build user this pointer operation begun dialogue now) :
    Asking build user this pointer operation begun now := ⟨dialogue, hears⟩

end Hears

theorem hearing_again {call : Call} {answer : Answer} (again : answer.again = true) :
    hearing asked call answer = ⟨asked, .blocked⟩ := if_pos again

theorem hearing_failed {call : Call} {answer : Answer} (definitive : answer.again = false)
    (fails : answer.fails = true) :
    hearing asked call answer = ⟨asked ++ [⟨call, answer⟩], .failed⟩ := by
  simp [hearing, definitive, fails]

theorem hearing_succeeds {call : Call} {answer : Answer} (definitive : answer.again = false)
    (succeeds : answer.fails = false) : hearing asked call answer = ⟨asked ++ [⟨call, answer⟩], .asking⟩ := by
  simp [hearing, definitive, succeeds]

theorem Answer.fails_iff {answer : Answer} {rc : Int} (code : answer.code = some rc) :
    answer.fails = true ↔ rc < 0 := by
  simp [Answer.fails, code]

section passing

theorem yields_answer (hears : Hears build user this pointer operation begun dialogue now) :
    Answering build user this pointer operation begun (yieldToAnyThread build) (fun _ after => after = now) now := by
  cases build <;> exact ⟨hears.asking, rfl⟩

/-- What `wait` does after its beginning keeps all that does not depend on it. -/
theorem wait_passes {during stops mine : Client → Prop} (keeps : ∀ now, mine now → during now)
    (stuck : ∀ now, mine now → stops now) (here : during now) (waited : mine (now.record (.waited user this))) :
    Passage (K := kernel build) user during stops (wait build this) (fun _ => mine) now := by
  have composes := @Maintains.composes _ (kernel build) user during stops mine keeps
  have steady {o : Op} (still : o.Steady) : Maintains (K := kernel build) user during stops mine (perform o) :=
    Maintains.call keeps fun executed holds => exec_steady executed still ▸ holds
  refine Passage.bind ⟨here, fun input reply after executed => ?_⟩
  cases executed
  refine ⟨keeps _ waited, (?_ : Maintains (K := kernel build) user during stops mine _) waited⟩
  refine composes.bind (steady trivial) fun dir => composes.bind (steady trivial) fun sftp => composes.iterate fun _ =>
    composes.bind (steady trivial) fun next => ?_
  cases next with
  | halts =>
    refine composes.bind ?_ fun _ => composes.pure _
    cases build with
    | retro => exact Maintains.pause keeps
    | direct => exact composes.pure ()
  | returns => exact composes.pure _
  | throws => exact fun now holds => ⟨keeps now holds, stuck now holds⟩

/-- While the method waits, its question is still to be answered. -/
theorem wait_answers {call : Call} (asks : operation.asks build pointer asked = some call) {kept : Client → Prop}
    (keeps : kept (now.record (.waited user this)))
    (hears : Hears build user this pointer operation begun ⟨asked, .blocked⟩ now) :
    Answering build user this pointer operation begun (wait build this) (fun _ after =>
      kept after ∧ Hears build user this pointer operation begun ⟨asked, .asking⟩ after) now := by
  let waiting (after : Client) : Prop := (kept after ∧ Hears build user this pointer operation begun ⟨asked, .asking⟩
    after) ∧ ∃ events, after.log = begun.log ++ (events ++ [.waited user this])
  obtain ⟨events, log, _⟩ := hears.log
  have here : waiting (now.record (.waited user this)) :=
    ⟨⟨keeps, hears.goes .waits rfl rfl⟩, events, by rw [Client.record, log, List.append_assoc]⟩
  have stuck (after : Client) (waits : waiting after) : Stuck build user this pointer operation begun after := by
    obtain ⟨⟨_, hears⟩, events, log⟩ := waits
    exact ⟨_, _, hears, log, .inr ⟨List.getLast?_concat, by simp [asks]⟩⟩
  have passes := @wait_passes build user this now _ _ waiting (fun _ waits => waits.1.2.asking) stuck hears.asking here
  exact passes.mono fun _ _ _ waits => waits.1

theorem message_answers {err : Int} (hears : Hears build user this pointer operation begun ⟨asked, .failed⟩ now) :
    Answering build user this pointer operation begun (message this err)
      (fun _ => Hears build user this pointer operation begun ⟨asked, .explained⟩) now := by
  apply Passage.bind
  by_cases one : err = 1
  · rw [errorMsg, if_pos one]
    refine ⟨hears.asking, hears.asking, fun input reply after executed => ?_⟩
    cases executed
    have later : Hears build user this pointer operation begun ⟨asked, .explained⟩ (now.record (.noMessage user)) :=
      hears.goes .unexplained rfl rfl
    exact ⟨later.asking, later⟩
  · rw [errorMsg, if_neg one]
    refine ⟨hears.asking, fun input text after executed => ?_⟩
    obtain ⟨answer, script, _, given, rfl⟩ := exec_library.mp executed
    have later : Hears build user this pointer operation begun ⟨asked, .explained⟩
        (now.answered user this .sessionLastError answer script) :=
      hears.goes (.explains (congrArg Answer.function (Answer.for_iff.mp given))) Client.answered_log rfl
    exact ⟨later.asking, later.asking, later⟩

theorem errorThrow_stops {format : String} {arguments : List String}
    (hears : Hears build user this pointer operation begun ⟨asked, .explained⟩ now) :
    Answering build user this pointer operation begun (errorThrow build format arguments) (fun _ _ => False) now := by
  refine Passage.bind ⟨hears.asking, fun input reply after executed => ?_⟩
  cases executed
  have later : Hears build user this pointer operation begun ⟨asked, .reported⟩
      (now.record (.reported user format arguments)) := hears.goes .reports rfl rfl
  obtain ⟨events, log, _⟩ := later.log
  have stuck : Stuck build user this pointer operation begun (now.record (.reported user format arguments)) :=
    ⟨_, events, later, log, .inl rfl⟩
  refine ⟨later.asking, ((yields_answer later).mono fun _ after here same => ?_).bind⟩
  subst same
  cases build with
  | retro =>
    refine ⟨here, fun input reply after executed => ?_⟩
    cases executed
    exact ⟨here, stuck⟩
  | direct => exact ⟨here, stuck⟩

theorem sftpPointer_answers (hears : Hears build user this pointer operation begun dialogue now) :
    Answering build user this pointer operation begun (sftpPointer this)
      (fun found now => found = pointer ∧ Hears build user this pointer operation begun dialogue now) now := by
  refine ⟨hears.asking, fun input reply after executed => ?_⟩
  cases executed
  exact ⟨hears.asking, hears.points, hears⟩

theorem pointed_answers {Result : Type} {cmd : Option Ptr → Program Result} {post : Result → Client → Prop}
    (answers : ∀ now, Hears build user this pointer operation begun dialogue now →
      Answering build user this pointer operation begun (cmd pointer) post now)
    (hears : Hears build user this pointer operation begun dialogue now) :
    Answering build user this pointer operation begun (sftpPointer this >>= cmd) post now := by
  refine ((sftpPointer_answers hears).mono fun found now _ holds => ?_).bind
  obtain ⟨rfl, hears⟩ := holds
  exact answers now hears

theorem memory_answers {length : Nat} (hears : Hears build user this pointer operation begun dialogue now) :
    Answering build user this pointer operation begun (perform (.memory length)) (fun bytes now =>
      bytes.length = length ∧ Hears build user this pointer operation begun dialogue now) now := by
  refine ⟨hears.asking, fun input bytes after executed => ?_⟩
  obtain rfl := exec_steady executed trivial
  have given : bytes.length = length := by
    cases input with
    | memory found =>
      simp only [exec, Option.ite_none_right_eq_some, Option.some.injEq, Prod.mk.injEq] at executed
      exact executed.2.1 ▸ executed.1
    | _ => cases executed
  exact ⟨hears.asking, given, hears⟩

end passing

section asking
variable {call : Call} (asks : operation.asks build pointer asked = some call)
include asks

theorem library_answers (hears : Hears build user this pointer operation begun ⟨asked, .asking⟩ now) :
    Answering build user this pointer operation begun (library this call) (fun result now =>
      Hears build user this pointer operation begun
        (hearing asked call ⟨call.function, result, (now.session this).errno⟩) now) now := by
  refine ⟨hears.asking, fun input result after executed => ?_⟩
  obtain ⟨answer, script, _, given, rfl⟩ := exec_library.mp executed
  have same := Answer.for_iff.mp given
  have later : Hears build user this pointer operation begun (hearing asked call answer)
      (now.answered user this call answer script) :=
    hears.goes (.answered asks (congrArg Answer.function same)) Client.answered_log rfl
  refine ⟨later.asking, ?_⟩
  dsimp only
  rw [Client.answered_session]
  exact same ▸ later

theorem network_hears (hears : Hears build user this pointer operation begun ⟨asked, .asking⟩ now) :
    Answering build user this pointer operation begun (network build this call) (fun result now =>
      Hears build user this pointer operation begun
        (hearing asked call ⟨call.function, result, (now.session this).errno⟩) now) now := by
  refine ((yields_answer hears).mono fun _ after _ same => ?_).bind
  subst same
  refine ((library_answers asks hears).mono fun result now here hears => ?_).bind
  refine ((yields_answer hears).mono fun _ after _ same => ?_).bind
  subst same
  exact ⟨here, hears⟩

theorem network_answers (hears : Hears build user this pointer operation begun ⟨asked, .asking⟩ now) :
    Answering build user this pointer operation begun (network build this call) (fun result now =>
      ∃ value errno, result = value ∧ Hears build user this pointer operation begun
        (hearing asked call ⟨call.function, value, errno⟩) now) now :=
  (network_hears asks hears).mono fun result _ _ hears => ⟨result, _, rfl, hears⟩

section retried
variable {Memory : Type} {funcname : String} {rc : Owner} {cmd : Memory → Program (Int × Memory)} {memory : Memory}
  {read : call.function.Result → Memory → Int × Memory} (kept : Memory → Prop)

/-- The call has its definitive answer, from which the code and the memory are read. -/
def Concluded (build : Build) (user : ThreadId) (this : Ptr) (pointer : Option Ptr) (operation : Operation)
    (begun : Client) (asked : List Reply) (call : Call) (rc : Owner)
    (read : call.function.Result → Memory → Int × Memory) (kept : Memory → Prop) (memory : Memory) (now : Client) :
    Prop :=
  ∃ value errno earlier, kept earlier ∧ memory = (read value earlier).2 ∧ now.rc rc = (read value earlier).1 ∧
    (Answer.mk call.function value errno).again = false ∧
    Hears build user this pointer operation begun (hearing asked call ⟨call.function, value, errno⟩) now

/-- The thread has one more answer, and it is not a failure. -/
def Succeeds (build : Build) (user : ThreadId) (this : Ptr) (pointer : Option Ptr) (operation : Operation)
    (begun : Client) (asked : List Reply) (call : Call) (value : call.function.Result) (now : Client) : Prop :=
  ∃ errno, Hears build user this pointer operation begun
    ⟨asked ++ [⟨call, ⟨call.function, value, errno⟩⟩], .asking⟩ now

variable (code : ∀ value errno memory, (Answer.mk call.function value errno).code = some (read value memory).1)

omit asks in
include code in
theorem concluded_settled {kept : Memory → Prop}
    (settled : Concluded build user this pointer operation begun asked call rc read kept memory now) :
    now.rc rc ≠ LIBSSH2_ERROR_EAGAIN := by
  obtain ⟨value, errno, earlier, _, _, result, definitive, _⟩ := settled
  intro again
  rw [(Answer.again_iff (code value errno earlier)).mpr (result.symm.trans again)] at definitive
  cases definitive

omit asks in
theorem concluded_hears {kept : Memory → Prop}
    (settled : Concluded build user this pointer operation begun asked call rc read kept memory now) :
    Asking build user this pointer operation begun now := by
  obtain ⟨_, _, _, _, _, _, _, hears⟩ := settled
  exact hears.asking

include code

/-- The loop asks, and waits, until it has a definitive answer. -/
theorem rcLoop_answers
    (cmds : ∀ memory now, Hears build user this pointer operation begun ⟨asked, .asking⟩ now →
      Answering build user this pointer operation begun (cmd memory) (fun result now =>
        ∃ value errno, result = read value memory ∧ Hears build user this pointer operation begun
          (hearing asked call ⟨call.function, value, errno⟩) now) now)
    (grows : ∀ value memory, kept memory → kept (read value memory).2) (again : now.rc rc = LIBSSH2_ERROR_EAGAIN)
    (holds : kept memory) (hears : Hears build user this pointer operation begun ⟨asked, .asking⟩ now) :
    Answering build user this pointer operation begun (rcLoop build this rc cmd memory)
      (Concluded build user this pointer operation begun asked call rc read kept) now := by
  let each (memory : Memory) (now : Client) : Prop :=
    now.rc rc = LIBSSH2_ERROR_EAGAIN ∧ kept memory ∧
      Hears build user this pointer operation begun ⟨asked, .asking⟩ now ∨
      Concluded build user this pointer operation begun asked call rc read kept memory now
  refine Passage.iterate each (.inl ⟨again, holds, hears⟩) fun memory now inside => ?_
  have here : Asking build user this pointer operation begun now :=
    inside.elim (fun trying => trying.2.2.asking) concluded_hears
  refine ⟨here, fun input reply after executed => ?_⟩
  cases executed
  change Passage (K := kernel build) user _ _ (ite (now.rc rc = LIBSSH2_ERROR_EAGAIN) _ _) _ now
  split
  next again =>
    obtain ⟨_, remembers, hears⟩ := inside.resolve_right fun settled => concluded_settled code settled again
    apply Passage.bind
    refine (cmds memory now hears).mono fun result now here answered => ?_
    obtain ⟨value, errno, rfl, hears⟩ := answered
    have coded := code value errno memory
    refine ⟨here, fun input reply after executed => ?_⟩
    cases executed
    let after := now.keepRc rc (read value memory).1
    have same : after.rc rc = (read value memory).1 := Client.keepRc_same
    have heard : Hears build user this pointer operation begun (hearing asked call ⟨call.function, value, errno⟩)
      after := hears.still rfl rfl
    refine ⟨heard.asking, fun input reply last executed => ?_⟩
    cases executed
    change Passage (K := kernel build) user _ _ ((when (after.rc rc = LIBSSH2_ERROR_EAGAIN) _).bind _) _ after
    by_cases more : (read value memory).1 = LIBSSH2_ERROR_EAGAIN
    · rw [hearing_again ((Answer.again_iff coded).mpr more)] at heard
      rw [when, if_pos (same.trans more)]
      have waits : Answering build user this pointer operation begun (wait build this) (fun _ last =>
          last.rc rc = LIBSSH2_ERROR_EAGAIN ∧ Hears build user this pointer operation begun ⟨asked, .asking⟩ last)
          after := wait_answers asks (same.trans more) heard
      refine (waits.mono fun _ last here waits => ⟨here, ?_⟩).bind.bind
      exact ⟨here, .inl ⟨waits.1, grows value memory remembers, waits.2⟩⟩
    · have definitive := Bool.eq_false_iff.mpr fun again => more ((Answer.again_iff coded).mp again)
      have settled : Concluded build user this pointer operation begun asked call rc read kept (read value memory).2
          after := ⟨value, errno, memory, remembers, rfl, same, definitive, heard⟩
      rw [when_false (concluded_settled code settled)]
      exact ⟨heard.asking, .inr settled⟩
  next settled => exact ⟨here, inside.resolve_left fun trying => settled trying.1⟩

omit asks in
/-- A failure is explained and reported, and the thread does not go on. -/
theorem rcError_answers
    (settled : Concluded build user this pointer operation begun asked call rc read kept memory now) :
    Answering build user this pointer operation begun (rcError build funcname this rc memory) (fun memory now =>
      ∃ value earlier, kept earlier ∧ memory = (read value earlier).2 ∧ now.rc rc = (read value earlier).1 ∧
        Succeeds build user this pointer operation begun asked call value now) now := by
  obtain ⟨value, errno, earlier, remembers, rfl, result, definitive, hears⟩ := settled
  have fails := Answer.fails_iff (code value errno earlier)
  refine ⟨hears.asking, fun input reply after executed => ?_⟩
  cases executed
  change Passage (K := kernel build) user _ _ ((when (now.rc rc < 0) _).bind _) _ now
  by_cases negative : now.rc rc < 0
  · rw [when, if_pos negative]
    rw [hearing_failed definitive (fails.mpr (result ▸ negative))] at hears
    refine Passage.bind ⟨hears.asking, fun input reply after executed => ?_⟩
    cases executed
    refine ((message_answers hears).mono fun msg now _ hears => ?_).bind
    exact (errorThrow_stops hears).mono fun _ _ _ never => never.elim
  · rw [when_false negative]
    rw [hearing_succeeds definitive (Bool.eq_false_iff.mpr fun failed => negative (result ▸ fails.mp failed))] at hears
    exact ⟨hears.asking, value, earlier, remembers, rfl, result, errno, hears⟩

/-- RC_ERR_HANDLE asks one question, and goes on with an answer that is not a failure. -/
theorem retried_answers
    (cmds : ∀ memory now, Hears build user this pointer operation begun ⟨asked, .asking⟩ now →
      Answering build user this pointer operation begun (cmd memory) (fun result now =>
        ∃ value errno, result = read value memory ∧ Hears build user this pointer operation begun
          (hearing asked call ⟨call.function, value, errno⟩) now) now)
    (grows : ∀ value memory, kept memory → kept (read value memory).2) (holds : kept memory)
    (hears : Hears build user this pointer operation begun ⟨asked, .asking⟩ now) :
    Answering build user this pointer operation begun (rcErrHandle build funcname this rc cmd memory)
      (fun memory now => ∃ value earlier, kept earlier ∧ memory = (read value earlier).2 ∧
        now.rc rc = (read value earlier).1 ∧
        Succeeds build user this pointer operation begun asked call value now) now := by
  rw [rcErrHandle_eq]
  refine ⟨hears.asking, fun input reply after executed => ?_⟩
  cases executed
  have tries : Answering build user this pointer operation begun (rcLoop build this rc cmd memory)
      (Concluded build user this pointer operation begun asked call rc read kept)
        (now.keepRc rc LIBSSH2_ERROR_EAGAIN) :=
    rcLoop_answers asks kept code cmds grows Client.keepRc_same holds (hears.still rfl rfl)
  change Passage (K := kernel build) user _ _ ((rcLoop build this rc cmd memory).bind _) _ _
  exact (tries.mono fun memory now _ settled => rcError_answers kept code settled).bind

end retried

theorem handled_answers {funcname : String} {rc : Owner} {cmd : Program Int} {read : call.function.Result → Int}
    (code : ∀ value errno, (Answer.mk call.function value errno).code = some (read value))
    (cmds : ∀ now, Hears build user this pointer operation begun ⟨asked, .asking⟩ now →
      Answering build user this pointer operation begun cmd (fun result now => ∃ value errno, result = read value ∧
        Hears build user this pointer operation begun (hearing asked call ⟨call.function, value, errno⟩) now) now)
    (hears : Hears build user this pointer operation begun ⟨asked, .asking⟩ now) :
    Answering build user this pointer operation begun (handled build funcname this rc cmd)
      (fun _ now => ∃ value, Succeeds build user this pointer operation begun asked call value now) now := by
  have retries := @retried_answers build user this pointer operation begun now asked call asks Unit funcname rc
    (fun _ => do return (← cmd, ())) () (fun value _ => (read value, ())) (fun _ => True)
    (fun value errno _ => code value errno) ?_ (fun _ _ _ => trivial) trivial hears
  · refine retries.mono fun _ now _ done => ?_
    obtain ⟨value, _, _, _, _, succeeds⟩ := done
    exact ⟨value, succeeds⟩
  · intro _ now hears
    refine ((cmds now hears).mono fun result now here holds => ?_).bind
    obtain ⟨value, errno, rfl, hears⟩ := holds
    exact ⟨here, value, errno, rfl, hears⟩

theorem filled_answers {Data : Type} {funcname : String} {rc : Owner} {cmd : Program (Filled Data)} {data : Data}
    {read : call.function.Result → Filled Data}
    (code : ∀ value errno, (Answer.mk call.function value errno).code = some (read value).rc)
    (cmds : ∀ now, Hears build user this pointer operation begun ⟨asked, .asking⟩ now →
      Answering build user this pointer operation begun cmd (fun result now => ∃ value errno, result = read value ∧
        Hears build user this pointer operation begun (hearing asked call ⟨call.function, value, errno⟩) now) now)
    (hears : Hears build user this pointer operation begun ⟨asked, .asking⟩ now) :
    Answering build user this pointer operation begun (filled build funcname this rc cmd data)
      (fun data now => ∃ value, data = (read value).data ∧
        Succeeds build user this pointer operation begun asked call value now) now := by
  have retries := @retried_answers build user this pointer operation begun now asked call asks Data funcname rc
    (fun _ => do
      let filled ← cmd
      return (filled.rc, filled.data)) data (fun value _ => ((read value).rc, (read value).data)) (fun _ => True)
    (fun value errno _ => code value errno) ?_ (fun _ _ _ => trivial) trivial hears
  · refine retries.mono fun _ now _ done => ?_
    obtain ⟨value, _, _, rfl, _, succeeds⟩ := done
    exact ⟨value, rfl, succeeds⟩
  · intro _ now hears
    refine ((cmds now hears).mono fun result now here holds => ?_).bind
    obtain ⟨value, errno, rfl, hears⟩ := holds
    exact ⟨here, value, errno, rfl, hears⟩

end asking

theorem openEx_answers {filename : Bytes} {flags mode openType : Int} (asks : operation.asks build pointer asked = some
      (.sftpOpenEx pointer filename filename.length flags mode openType))
    (hears : Hears build user this pointer operation begun ⟨asked, .asking⟩ now) :
    Answering build user this pointer operation begun (openEx build this filename flags mode openType)
      (fun handle now => Succeeds build user this pointer operation begun asked
        (.sftpOpenEx pointer filename filename.length flags mode openType) (some handle) now) now := by
  refine Passage.iterate (fun _ => Hears build user this pointer operation begun ⟨asked, .asking⟩) hears
    fun _ now hears => ?_
  refine pointed_answers (fun now hears => ?_) hears
  refine ((network_hears asks hears).mono fun handle now here hears => ?_).bind
  cases handle with
  | some handle => exact ⟨here, _, by rwa [hearing_succeeds rfl rfl] at hears⟩
  | none =>
    refine ⟨here, fun input errno after executed => ?_⟩
    cases executed
    change Passage (K := kernel build) user _ _ (ite ((now.session this).errno = LIBSSH2_ERROR_EAGAIN) _ _) _ now
    split
    next again =>
      rw [hearing_again (by simp [Answer.again, again])] at hears
      have waits : Answering build user this pointer operation begun (wait build this) (fun _ after =>
          True ∧ Hears build user this pointer operation begun ⟨asked, .asking⟩ after) now :=
        wait_answers asks trivial hears
      exact (waits.mono fun _ now here waits => ⟨here, waits.2⟩).bind
    next definitive =>
      rw [hearing_failed (by simp [Answer.again, definitive]) rfl] at hears
      refine ⟨hears.asking, fun input rc after executed => ?_⟩
      cases executed
      change Passage (K := kernel build) user _ _ ((message this (now.rc (.sftp this))).bind _) _ now
      refine ((message_answers hears).mono fun msg now _ hears => ?_).bind
      exact ((errorThrow_stops hears).mono fun _ _ _ never => never.elim).bind

theorem next_answers {handle : Ptr}
    (hears : Hears build user this pointer (.dirNext handle) begun ⟨[], .asking⟩ now) :
    Answering build user this pointer (.dirNext handle) begun (Transfer.next build this handle)
      (fun found now => ∃ entry : Readdir, entry.Found found ∧
        Succeeds build user this pointer (.dirNext handle) begun [] (.sftpReaddirEx handle 512 512) entry now) now := by
  refine ((memory_answers hears).mono fun buffer now _ holds => ?_).bind
  obtain ⟨size, hears⟩ := holds
  refine ((memory_answers hears).mono fun longentry now _ holds => ?_).bind
  obtain ⟨_, hears⟩ := holds
  refine ⟨hears.asking, fun input reply after executed => ?_⟩
  cases executed
  have retries := @retried_answers build user this pointer (.dirNext handle) begun
    (now.keepRc (.handle handle) LIBSSH2_ERROR_EAGAIN) [] (.sftpReaddirEx handle 512 512) rfl Buffers
    "libssh2_sftp_readdir_ex" (.handle handle) (readdirEx build this handle) { buffer, longentry, attrs := {} }
    (fun entry buffers => ((entry : Readdir).rc, buffers.read entry)) (fun buffers => 512 ≤ buffers.buffer.length)
    (fun _ _ _ => rfl) ?_ (fun entry buffers bound => Nat.le_trans bound (length_overwrite ..))
    (Nat.le_of_eq size.symm) (hears.still rfl rfl)
  · change Passage (K := kernel build) user _ _ ((rcErrHandle ..).bind _) _ _
    refine (retries.mono fun buffers now here done => ?_).bind
    obtain ⟨entry, earlier, bound, rfl, code, succeeds⟩ := done
    refine ⟨here, fun input rc after executed => ?_⟩
    cases executed
    change Passage (K := kernel build) user _ _ (ite (now.rc (.handle handle) = 0) _ _) _ now
    rw [code]
    split
    next zero => exact ⟨here, entry, by simp [Readdir.Found, show entry.rc = 0 from zero], succeeds⟩
    next entries =>
      have length : 512 ≤ (overwrite earlier.buffer entry.buffer).length := Nat.le_trans bound (length_overwrite ..)
      have fills : entry.Fills {
          buffer := (earlier.read entry).buffer.take 512
          longentry := (earlier.read entry).longentry.take 512
          attributes := (earlier.read entry).attrs } :=
        ⟨List.length_take_of_le length, overwrite_prefix .., overwrite_prefix .., rfl⟩
      exact ⟨here, entry, by simpa [Readdir.Found, show entry.rc ≠ 0 from entries] using fills, succeeds⟩
  · intro buffers now hears
    refine ((network_answers rfl hears).mono fun entry now here holds => ?_).bind
    obtain ⟨_, errno, rfl, hears⟩ := holds
    exact ⟨here, entry, errno, rfl, hears⟩

/-- The operation has its value from all the answers it asked for. -/
def Ended (build : Build) (user : ThreadId) (this : Ptr) (pointer : Option Ptr) (operation : Operation) (begun : Client)
    (value : Value) (now : Client) : Prop :=
  ∃ asked, Hears build user this pointer operation begun ⟨asked, .asking⟩ now ∧
    operation.asks build pointer asked = none ∧ Gives build asked value

theorem fileRead_answers {handle : Ptr}
    (hears : Hears build user this pointer (.fileRead handle) begun ⟨[], .asking⟩ now) :
    Answering build user this pointer (.fileRead handle) begun (fileRead build this handle)
      (fun bytes => Ended build user this pointer (.fileRead handle) begun (.bytes bytes)) now := by
  have stats := @filled_answers build user this pointer (.fileRead handle) begun now [] (.sftpFstat handle) rfl
    Attributes "file/libssh2_sftp_fstat" (.handle handle) (network build this (.sftpFstat handle)) {}
    (fun size => size) (fun _ _ => rfl) (fun now hears => network_answers rfl hears) hears
  refine (stats.mono fun attributes now _ done => ?_).bind
  obtain ⟨size, rfl, errno, hears⟩ := done
  refine ((memory_answers hears).mono fun buffer now _ holds => ?_).bind
  obtain ⟨room, hears⟩ := holds
  have retries := @retried_answers build user this pointer (.fileRead handle) begun now _
    (.sftpRead handle (sizeT build size.data.filesize)) rfl Bytes "libssh2_sftp_read" (.handle handle)
    (fun buffer => do
      let read ← network build this (.sftpRead handle (sizeT build size.data.filesize))
      return (toInt read.rc, overwrite buffer read.data)) buffer
    (fun read buffer => (toInt (Filled.rc read), overwrite buffer (Filled.data read)))
    (fun buffer => sizeT build size.data.filesize ≤ buffer.length) (fun _ _ _ => rfl) ?_
    (fun read buffer bound => Nat.le_trans bound (length_overwrite ..)) (Nat.le_of_eq room.symm) hears
  · refine (retries.mono fun buffer now here done => ?_).bind
    obtain ⟨read, earlier, bound, rfl, _, errno, hears⟩ := done
    have length : ((overwrite earlier read.data).take (sizeT build size.data.filesize)).length =
        sizeT build size.data.filesize := List.length_take_of_le (Nat.le_trans bound (length_overwrite ..))
    refine ⟨here, _, hears, rfl, _, rfl, length, ?_⟩
    rw [length]
    exact overwrite_prefix ..
  · intro buffer now hears
    refine ((network_answers rfl hears).mono fun read now here holds => ?_).bind
    obtain ⟨_, errno, rfl, hears⟩ := holds
    exact ⟨here, read, errno, rfl, hears⟩

section ends
variable {call : Call} {funcname : String} {rc : Owner} (asks : operation.asks build pointer [] = some call)
  (done : ∀ answer, answer.function = call.function → operation.asks build pointer [⟨call, answer⟩] = none)

include done in
theorem Succeeds.ends {result : call.function.Result} {value : Value}
    (succeeds : Succeeds build user this pointer operation begun [] call result now)
    (gives : ∀ errno, (Answer.mk call.function result errno).Gives value) :
    Ended build user this pointer operation begun value now := by
  obtain ⟨errno, hears⟩ := succeeds
  exact ⟨_, hears, done _ rfl, gives errno⟩

include asks done

theorem handled_ends {cmd : Program Int} {read : call.function.Result → Int}
    (code : ∀ value errno, (Answer.mk call.function value errno).code = some (read value))
    (gives : ∀ value errno, (Answer.mk call.function value errno).Gives .none)
    (cmds : ∀ now, Hears build user this pointer operation begun ⟨[], .asking⟩ now →
      Answering build user this pointer operation begun cmd (fun result now => ∃ value errno, result = read value ∧
        Hears build user this pointer operation begun (hearing [] call ⟨call.function, value, errno⟩) now) now)
    (hears : Hears build user this pointer operation begun ⟨[], .asking⟩ now) :
    Answering build user this pointer operation begun ((handled build funcname this rc cmd).bind fun _ => .pure .none)
      (Ended build user this pointer operation begun) now := by
  have handles : Answering build user this pointer operation begun (handled build funcname this rc cmd) _ now :=
    handled_answers asks code cmds hears
  refine (handles.mono fun _ now here finished => ?_).bind
  obtain ⟨value, succeeds⟩ := finished
  exact ⟨here, succeeds.ends done (gives value)⟩

theorem filled_ends {Data : Type} {cmd : Program (Filled Data)} {data : Data}
    {read : call.function.Result → Filled Data}
    {give : Data → Value} (code : ∀ value errno, (Answer.mk call.function value errno).code = some (read value).rc)
    (gives : ∀ value errno, (Answer.mk call.function value errno).Gives (give (read value).data))
    (cmds : ∀ now, Hears build user this pointer operation begun ⟨[], .asking⟩ now →
      Answering build user this pointer operation begun cmd (fun result now => ∃ value errno, result = read value ∧
        Hears build user this pointer operation begun (hearing [] call ⟨call.function, value, errno⟩) now) now)
    (hears : Hears build user this pointer operation begun ⟨[], .asking⟩ now) :
    Answering build user this pointer operation begun
      ((filled build funcname this rc cmd data).bind fun data => .pure (give data))
      (Ended build user this pointer operation begun) now := by
  have fills : Answering build user this pointer operation begun (filled build funcname this rc cmd data) _ now :=
    filled_answers asks code cmds hears
  refine (fills.mono fun _ now here finished => ?_).bind
  obtain ⟨value, rfl, succeeds⟩ := finished
  exact ⟨here, succeeds.ends done (gives value)⟩

theorem library_ends {give : call.function.Result → Value} (definitive : ∀ value errno,
    (Answer.mk call.function value errno).again = false ∧ (Answer.mk call.function value errno).fails = false)
    (gives : ∀ value errno, (Answer.mk call.function value errno).Gives (give value))
    (hears : Hears build user this pointer operation begun ⟨[], .asking⟩ now) :
    Answering build user this pointer operation begun ((library this call).bind fun value => .pure (give value))
      (Ended build user this pointer operation begun) now := by
  refine ((library_answers asks hears).mono fun value now here hears => ?_).bind
  rw [hearing_succeeds (definitive _ _).1 (definitive _ _).2] at hears
  have succeeds : Succeeds build user this pointer operation begun [] call value now := ⟨_, hears⟩
  exact ⟨here, succeeds.ends done (gives value)⟩

end ends

theorem operate_answers (operation : Operation)
    (hears : Hears build user this pointer operation begun ⟨[], .asking⟩ now) :
    Answering build user this pointer operation begun (operate build this operation)
      (Ended build user this pointer operation begun) now := by
  cases operation with
  | openfile | opendir =>
    refine ((openEx_answers rfl hears).mono fun handle now here succeeds => ?_).bind
    exact ⟨here, succeeds.ends (fun _ _ => rfl) fun errno => ⟨handle, rfl, rfl⟩⟩
  | lstat | stat | statvfs =>
    refine filled_ends rfl (fun _ _ => rfl) (fun _ _ => rfl) ?_
      (fun now hears => pointed_answers (fun now hears => network_answers rfl hears) hears) hears
    exact fun _ _ => rfl
  | fileStat | fileStatvfs =>
    refine filled_ends rfl (fun _ _ => rfl) (fun _ _ => rfl) ?_ (fun now hears => network_answers rfl hears) hears
    exact fun _ _ => rfl
  | fileClose | fileSetstat | fileSync | dirClose =>
    refine handled_ends rfl (fun _ _ => rfl) (fun _ _ => rfl) ?_ (fun now hears => network_answers rfl hears) hears
    exact fun _ _ => rfl
  | fileWrite handle buf =>
    refine handled_ends rfl (fun _ _ => rfl) (fun _ _ => rfl) ?_ (fun now hears => ?_) hears
    · exact fun _ _ => rfl
    refine ((network_answers rfl hears).mono fun size now here holds => ?_).bind
    obtain ⟨_, errno, rfl, hears⟩ := holds
    exact ⟨here, size, errno, rfl, hears⟩
  | fileRewind | fileSeek | fileTell =>
    exact library_ends rfl (fun _ _ => rfl) (fun _ _ => ⟨rfl, rfl⟩) (fun _ _ => rfl) hears
  | fileRead handle => exact ((fileRead_answers hears).mono fun bytes now here ended => ⟨here, ended⟩).bind
  | dirNext handle =>
    refine ((next_answers hears).mono fun found now here finished => ?_).bind
    obtain ⟨entry, found, succeeds⟩ := finished
    exact ⟨here, succeeds.ends (fun _ _ => rfl) fun errno => ⟨_, rfl, found⟩⟩
  | _ =>
    refine handled_ends rfl (fun _ _ => rfl) (fun _ _ => rfl) ?_
      (fun now hears => pointed_answers (fun now hears => network_answers rfl hears) hears) hears
    exact fun _ _ => rfl

@[simp] theorem recent_concat : recent thread (log ++ [event]) = event.recentAfter thread (recent thread log) := by
  simp [recent]

theorem recent_called {entry : Entry} (quiet : ∀ entry, .called thread entry ∉ more) :
    recent thread (log ++ .called thread entry :: more) = more := by
  induction more using List.reverseRecOn with
  | nil => simp [Event.recentAfter]
  | append_singleton more event ih =>
    have earlier := ih fun entry member => quiet entry (List.mem_append_left _ member)
    rw [← List.cons_append, ← List.append_assoc, recent_concat, earlier]
    cases event with
    | called actor entry => exact if_neg fun same => quiet entry (by simp [same])
    | _ => rfl

theorem Converses.plain {events : List Event}
    (converses : Converses build user this pointer operation events dialogue) : ∀ event ∈ events, event.Plain := by
  induction converses with
  | begins => simp
  | more _ goes ih =>
    refine List.forall_mem_append.mpr ⟨ih, ?_⟩
    cases goes <;> simp [Event.Plain]

/-- A thread that has come somewhere in a call of an operation follows its dialogue. -/
theorem Lone.answered {past : List Event} {marked : Client → Prop}
    (lone : Lone build user (.operate this operation) marked past event) (mine : event.thread = user) :
    RespondsTo build user this operation marked past event := by
  obtain ⟨begun, rest, last, early, more, rfl, _, began, start, runs, leaves, stays⟩ := lone
  have first : Hears build user this (begun.sftp this).sftpPointer operation begun ⟨[], .asking⟩ begun :=
    ⟨⟨[], (List.append_nil _).symm, .begins⟩, rfl⟩
  have passes := (operate_answers operation first).along runs
  have heard {dialogue : Dialogue} {events : List Event}
      (hears : Hears build user this (begun.sftp this).sftpPointer operation begun dialogue last)
      (log : last.log = begun.log ++ events) :
      Converses build user this (begun.sftp this).sftpPointer operation events dialogue := by
    obtain ⟨found, grown, converses⟩ := hears.log
    exact List.append_cancel_left (grown.symm.trans log) ▸ converses
  obtain ⟨dialogue, hears⟩ := passes.here
  have plain : ∀ found ∈ own user more, found.Plain := by
    cases left : event.leaves with
    | true => exact (heard hears (leaves left).2).plain
    | false =>
      intro found member
      exact (heard hears (stays left)).plain found (own_append ▸ List.mem_append_left _ member)
  have since : recent user (early ++ .called user (.operate this operation) :: more) = more :=
    recent_called fun entry member => plain _ (List.mem_filter.mpr ⟨member, decide_eq_true rfl⟩)
  refine ⟨begun, began, by rw [since, start, List.append_assoc, List.singleton_append], ?_⟩
  rw [since]
  have stuck (stop : rest = .throw ∨ rest = .exit ∨ ∃ other next, rest = .dispose other next)
      (log : last.log = begun.log ++ own user more) : ∃ dialogue,
        Converses build user this (begun.sftp this).sftpPointer operation (own user more) dialogue ∧
        dialogue.Stuck build user this (begun.sftp this).sftpPointer operation (own user more) := by
    obtain ⟨dialogue, events, hears, grown, stuck⟩ := passes.stopped stop
    obtain rfl := List.append_cancel_left (grown.symm.trans log)
    exact ⟨dialogue, heard hears log, stuck⟩
  have goesOn (left : event.leaves = false) : ∃ dialogue,
      Converses build user this (begun.sftp this).sftpPointer operation (own user more ++ [event]) dialogue := by
    refine ⟨dialogue, heard hears ?_⟩
    rw [stays left, own_append, @own_all user [event] (by simpa using mine)]
  cases event with
  | returned actor value =>
    obtain ⟨rfl, log⟩ := leaves rfl
    obtain ⟨_, asked, hears, done, gives⟩ := passes
    exact ⟨asked, heard hears log, done, gives⟩
  | threw => exact stuck (.inl (leaves rfl).1) (leaves rfl).2
  | exited => exact stuck (.inr (.inl (leaves rfl).1)) (leaves rfl).2
  | disposed actor other =>
    obtain ⟨⟨next, same⟩, log⟩ := leaves rfl
    exact stuck (.inr (.inr ⟨other, next, same⟩)) log
  | called | spawned =>
    obtain ⟨dialogue, converses⟩ := goesOn rfl
    exact converses.plain _ (List.mem_append_right _ (List.mem_singleton_self _))
  | _ => exact goesOn rfl

end PowerBoot.Transfer
