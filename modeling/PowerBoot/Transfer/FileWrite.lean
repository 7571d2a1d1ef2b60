import PowerBoot.Coop.Ensures
import PowerBoot.Transfer.Retry

/-! Writing a file through its handle. One answer has to take the whole buffer, because the
call is repeated only on EAGAIN, and then from the start of the buffer. -/

namespace PowerBoot.Transfer
open Coop Code

/-- The bytes of a file by their positions, and where its handle is. -/
@[ext] structure RemoteFile where
  bytes : Nat → Option UInt8
  offset : Nat

namespace RemoteFile

/-- Data is written at the offset, which advances by its length. -/
def write (data : Bytes) (file : RemoteFile) : RemoteFile where
  bytes position :=
    if position < file.offset then file.bytes position else data[position - file.offset]?.or (file.bytes position)
  offset := file.offset + data.length

variable {file : RemoteFile} {data first second : Bytes} {position : Nat}

theorem write_before (before : position < file.offset) : (file.write data).bytes position = file.bytes position :=
  if_pos before

theorem write_behind (behind : file.offset ≤ position) :
    (file.write data).bytes position = data[position - file.offset]?.or (file.bytes position) :=
  if_neg (Nat.not_lt.mpr behind)

@[simp] theorem write_nil : file.write [] = file := by
  refine RemoteFile.ext (funext fun position => ?_) rfl
  rcases Nat.lt_or_ge position file.offset with before | behind
  · exact write_before before
  · simp [write_behind behind]

theorem write_append : file.write (first ++ second) = (file.write first).write second := by
  have later : (file.write first).offset = file.offset + first.length := rfl
  refine RemoteFile.ext (funext fun position => ?_) (by simp [write, Nat.add_assoc])
  rcases Nat.lt_or_ge position file.offset with before | behind
  · rw [write_before before, write_before (by omega), write_before before]
  · rw [write_behind behind]
    by_cases inside : position - file.offset < first.length
    · rw [write_before (by omega), write_behind behind, List.getElem?_append_left inside]
    · rw [write_behind (by omega), write_behind behind, List.getElem?_append_right (by omega),
        List.getElem?_eq_none (Nat.not_lt.mp inside), Option.none_or, later, Nat.sub_sub]

/-- The length of what was written can be read off the file, and so can its bytes. -/
theorem write_injective (same : file.write first = file.write second) : first = second := by
  have length : first.length = second.length := by
    have offset := congrArg RemoteFile.offset same
    simpa [write] using offset
  apply List.ext_getElem length
  intro i inside other
  have byte := congrFun (congrArg RemoteFile.bytes same) (file.offset + i)
  rw [write_behind (Nat.le_add_right ..), write_behind (Nat.le_add_right ..)] at byte
  simpa [inside, other] using byte

end RemoteFile

/-- The bytes that a call of libssh2_sftp_write took. -/
def Event.taken (this handle : Ptr) : Event → Bytes
  | .library _ object (.sftpWrite other data) answer =>
    if object = this ∧ other = handle then ((answer.for .sftpWrite).map fun (rc : Int) => data.take rc.toNat).getD
      [] else []
  | _ => []

/-- The file after these events. -/
def RemoteFile.after (this handle : Ptr) (events : List Event) (file : RemoteFile) : RemoteFile :=
  events.foldl (fun file event => file.write (event.taken this handle)) file

theorem RemoteFile.after_eq {this handle : Ptr} {events : List Event} {file : RemoteFile} :
    file.after this handle events = file.write (events.flatMap (Event.taken this handle)) := by
  induction events generalizing file with
  | nil => exact write_nil.symm
  | cons event events ih => rw [List.flatMap_cons, write_append, ← ih, after, List.foldl_cons, after]

def Client.recorded (client last : Client) : List Event := last.log.drop client.log.length

/-- Where the method returns, the whole buffer has been written at the offset, once. Only
events happen meanwhile. -/
def WritesWhole (build : Build) (thread : ThreadId) (this handle : Ptr) (buf : Bytes) (client : Client) : Prop :=
  ∀ value last (file : RemoteFile), Completes (K := kernel build) thread (operate build this (.fileWrite handle buf))
    client
    (.value value) last → file.after this handle (client.recorded last) = file.write buf

/-- The parts of the buffer that the library takes, up to the first result that the code does
not take for EAGAIN. Negative results take nothing. -/
def Attempt.taken {handle : Ptr} {buf : Bytes} (attempt : Attempt (.sftpWrite handle buf)) : Bytes :=
  (attempt.agains.map (·.1) ++ [attempt.result]).flatMap fun (rc : Int) => buf.take rc.toNat

variable {build : Build} {thread : ThreadId} {this handle : Ptr} {client last : Client} {buf : Bytes}

/-- What has been written since `client`. -/
structure Sent (this handle : Ptr) (client : Client) (bytes : Bytes) (now : Client) : Prop where
  main : now.mainThreadId = client.mainThreadId
  log : ∃ events, now.log = client.log ++ events ∧ events.flatMap (Event.taken this handle) = bytes

/-- The same, with the script that is left and the current `rc`. -/
structure Sending (this handle : Ptr) (client : Client) (script : List Answer) (rc : Int) (bytes : Bytes)
    (now : Client) :
    Prop extends Sent this handle client bytes now where
  script : (now.session this).script = script
  rc : now.rc (.handle handle) = rc

theorem Sent.record {bytes : Bytes} {event : Event} {now : Client} (sent : Sent this handle client bytes now)
    (aside : event.taken this handle = []) : Sent this handle client bytes (now.record event) := by
  obtain ⟨events, grown, took⟩ := sent.log
  exact ⟨sent.main, events ++ [event], by simp [grown], by simp [took, aside]⟩

theorem Sending.record {script : List Answer} {rc : Int} {bytes : Bytes} {event : Event} {now : Client}
    (sending : Sending this handle client script rc bytes now) (aside : event.taken this handle = []) :
    Sending this handle client script rc bytes (now.record event) :=
  ⟨sending.toSent.record aside, sending.script, sending.rc⟩

theorem environment_state {input : Input} {now after : Client} (moved : environment input now = some after) :
    ∃ this command, after = now.update this ({ · with readThreadCommand := command }) := by
  cases input with
  | command this command =>
    cases moved
    exact ⟨this, command, rfl⟩
  | _ => cases moved

theorem Sent.stable {bytes : Bytes} : (kernel build).Stable (Sent this handle client bytes) := by
  intro input now after moved sent
  obtain ⟨_, _, rfl⟩ := environment_state moved
  exact ⟨sent.main, sent.log⟩


theorem Sending.stable {script : List Answer} {rc : Int} {bytes : Bytes} :
    (kernel build).Stable (Sending this handle client script rc bytes) := by
  intro input now after moved sending
  obtain ⟨_, _, rfl⟩ := environment_state moved
  exact ⟨Sent.stable moved sending.toSent, sending.script, sending.rc⟩

theorem yieldToAnyThread_ensures {pre : Client → Prop} (stable : (kernel build).Stable pre) :
    Ensures (K := kernel build) thread pre (yieldToAnyThread build) fun _ => pre := by
  cases build with
  | retro => exact .pause stable
  | direct => exact .pure fun _ holds => holds

theorem reads_ensures {pre : Client → Prop} {o : Op}
    (reads : ∀ {input now reply after}, exec thread o input now = some (reply, after) → after = now) :
    Ensures (K := kernel build) thread pre (perform o) fun _ => pre := by
  refine .call fun holds executed => ?_
  rw [reads executed]
  exact holds

theorem wait_ensures {pre : Client → Prop} (stable : (kernel build).Stable pre)
    (recorded : ∀ now, pre now → pre (now.record (.waited thread this))) :
    Ensures (K := kernel build) thread pre (wait build this) fun _ => pre := by
  refine .passing (.call fun holds executed => ?_) fun _ => .passing (reads_ensures fun executed => ?_) fun dir =>
    .passing (reads_ensures fun executed => ?_) fun sftp =>
    .iterate (fun _ => pre) fun _ => .passing (reads_ensures fun executed => ?_) fun next => ?_
  · cases executed
    exact recorded _ holds
  · next input _ _ _ => cases input <;> cases executed; rfl
  · cases executed
    rfl
  · next input _ _ _ => cases input <;> cases executed; rfl
  · cases next with
    | halts => exact .passing (yieldToAnyThread_ensures stable) fun _ => .pure fun _ holds => holds
    | returns => exact .pure fun _ holds => holds
    | throws => exact .throws

section sending
variable {script : List Answer} {rc value : Int} {bytes : Bytes}

theorem rc_ensures : Ensures (K := kernel build) thread (Sending this handle client script rc bytes)
    (perform (.rc (.handle handle))) fun value now => value = rc ∧ Sending this handle client script rc bytes now :=
  .call fun sending executed => by
    cases executed
    exact ⟨sending.rc, sending⟩

theorem setRc_ensures : Ensures (K := kernel build) thread (Sending this handle client script rc bytes)
    (perform (.setRc (.handle handle) value)) fun _ => Sending this handle client script value bytes :=
  .call fun sending executed => by
    cases executed
    exact ⟨⟨sending.main, sending.log⟩, sending.script, Function.update_self ..⟩

theorem write_ensures {errno : Int} : Ensures (K := kernel build) thread
    (Sending this handle client (⟨.sftpWrite, value, errno⟩ :: script) rc bytes)
      (network build this (.sftpWrite handle buf))
    fun (result : Int) now => result = value ∧ Sending this handle client script rc
      (bytes ++ buf.take value.toNat) now := by
  refine .passing (yieldToAnyThread_ensures Sending.stable) fun _ => .bind
    (fun (result : Int) now => result = value ∧ Sending this handle client script rc
      (bytes ++ buf.take value.toNat) now)
    (.call fun sending executed => ?_) fun result => .passing (yieldToAnyThread_ensures ?_) fun _ =>
      .pure fun _ holds => holds
  · obtain ⟨answer, left, answered, given, rfl⟩ := exec_library.mp executed
    have next := sending.script
    simp only [Client.answer, next, nextAnswer_cons, Option.some.injEq, Prod.mk.injEq] at answered
    obtain ⟨rfl, rfl⟩ := answered
    obtain ⟨events, grown, took⟩ := sending.log
    cases Answer.for_iff.mp given
    refine ⟨rfl, ⟨sending.main, events ++ [.library thread this (.sftpWrite handle buf) ⟨.sftpWrite, value, errno⟩], ?_,
      ?_⟩,
      ?_, sending.rc⟩
    · simp [grown]
    · simp [took, Event.taken, Answer.for]
    · simp
  · intro input now after moved holds
    exact ⟨holds.1, Sending.stable moved holds.2⟩

end sending

section loop
variable {attempt : Attempt (.sftpWrite handle buf)} {more : List Answer}

/-- All replies, with the one that is not taken for EAGAIN at the end. -/
def Attempt.replies {call : Call} (attempt : Attempt call) : List (call.function.Result × Int) :=
  attempt.agains ++ [(attempt.result, attempt.errno)]

def takenBy (buf : Bytes) (replies : List (Int × Int)) : Bytes := replies.flatMap fun reply => buf.take reply.1.toNat

/-- Between two turns of the loop some of the replies have come, and the others are left. -/
def Underway (this : Ptr) (client : Client) (attempt : Attempt (.sftpWrite handle buf)) (more : List Answer)
    (now : Client) :
    Prop :=
  ∃ past left, past ++ left = attempt.replies ∧ Sending this handle client
    (left.map (fun reply => ⟨.sftpWrite, reply.1, reply.2⟩) ++ more)
    (if left = [] then toInt attempt.result else LIBSSH2_ERROR_EAGAIN) (takenBy buf past) now

theorem Underway.stable : (kernel build).Stable (Underway this client attempt more) := by
  rintro input now after moved ⟨past, left, whole, sending⟩
  exact ⟨past, left, whole, Sending.stable moved sending⟩

private theorem code_next {past left : List (Int × Int)} {reply : Int × Int}
    (whole : past ++ reply :: left = attempt.replies) :
    toInt reply.1 = if left = [] then toInt attempt.result else LIBSSH2_ERROR_EAGAIN := by
  rcases List.eq_nil_or_concat left with rfl | ⟨before, final, rfl⟩
  · obtain ⟨_, same⟩ := List.append_inj' whole rfl
    cases same
    rfl
  · rw [if_neg (by simp)]
    have split : (past ++ reply :: before) ++ [final] = attempt.agains ++ [(attempt.result, attempt.errno)] := by
      rw [← Attempt.replies, ← whole]
      simp
    obtain ⟨agains, _⟩ := List.append_inj' split rfl
    have again := attempt.again reply (by rw [← agains]; simp)
    simpa [Answer.again] using again

/-- One turn makes one call, or ends the loop after the last reply. -/
private theorem loop_turn {build : Build} : Ensures (K := kernel build) thread (Underway this client attempt more) (do
      if (← perform (.rc (.handle handle))) = LIBSSH2_ERROR_EAGAIN then
        let (result, memory) ← (do return (← (do return toInt (← network build this (.sftpWrite handle buf))), ()))
        perform (.setRc (.handle handle) result)
        when ((← perform (.rc (.handle handle))) = LIBSSH2_ERROR_EAGAIN) (do let _ ← wait build this)
        return .inl memory
      else return .inr ())
    (Sum.elim (fun _ => Underway this client attempt more)
      fun _ => Sending this handle client more (toInt attempt.result) (takenBy buf attempt.replies)) := by
  rintro now value last ⟨past, left, whole, sending⟩
  refine (Ensures.bind _ rc_ensures fun rc => .given fun same => ?_) sending
  cases left with
  | nil =>
    have settled : rc ≠ LIBSSH2_ERROR_EAGAIN := by
      have definitive := attempt.definitive
      simpa [same, Answer.again] using definitive
    rw [if_neg settled]
    refine .pure fun now sending => ?_
    rw [List.append_nil] at whole
    simpa [whole] using sending
  | cons reply left =>
    rw [if_neg (List.cons_ne_nil _ _)] at same
    rw [if_pos same]
    simp only [bind_eq, pure_eq, Code.bind_assoc, Code.pure_bind]
    refine .bind _ write_ensures fun result => .given fun given => ?_
    subst given
    refine .bind _ setRc_ensures fun _ => .bind _ rc_ensures fun _ => ?_
    refine .bind (fun _ => Underway this client attempt more) (.given fun _ => ?_) fun _ =>
      .pure fun _ holds => holds
    have after : takenBy buf (past ++ [reply]) = takenBy buf past ++ buf.take reply.1.toNat := by simp [takenBy]
    have begins : ∀ now, Sending this handle client (left.map (fun reply => ⟨.sftpWrite, reply.1, reply.2⟩) ++ more)
        (toInt reply.1) (takenBy buf past ++ buf.take reply.1.toNat) now → Underway this client attempt more now := by
      intro now sending
      refine ⟨past ++ [reply], left, by simpa using whole, ?_⟩
      rwa [after, ← code_next whole]
    refine .when (fun _ => ?_) fun _ => begins
    refine .mono (.passing (wait_ensures Underway.stable fun now underway => ?_) fun _ => .pure fun _ holds => holds)
      begins
      fun _ _ holds => holds
    obtain ⟨past, left, whole, sending⟩ := underway
    exact ⟨past, left, whole, sending.record rfl⟩

private theorem loop_ensures : Ensures (K := kernel build) thread (Underway this client attempt more)
    (rcLoop build this (.handle handle) (fun _ => do
      return (← (do return toInt (← network build this (.sftpWrite handle buf))), ())) ())
    fun _ => Sending this handle client more (toInt attempt.result) (takenBy buf attempt.replies) := by
  unfold rcLoop
  refine Ensures.iterate (K := kernel build) (fun _ => Underway this client attempt more) fun _ => ?_
  exact loop_turn

end loop

section error
variable {bytes : Bytes}

theorem message_ensures {err : Int} :
    Ensures (K := kernel build) thread (Sent this handle client bytes) (message this err)
    fun _ => Sent this handle client bytes := by
  rw [message]
  refine .passing ?_ fun text => ?_
  · rw [errorMsg]
    split
    · exact .pure fun _ sent => sent
    · refine .passing (.call fun sent executed => ?_) fun _ => .pure fun _ sent => sent
      obtain ⟨answer, script, _, _, rfl⟩ := exec_library.mp executed
      exact Sent.record ⟨sent.main, sent.log⟩ rfl
  · cases text with
    | some => exact .pure fun _ sent => sent
    | none =>
      refine .passing (.call fun sent executed => ?_) fun _ => .pure fun _ sent => sent
      cases executed
      exact sent.record rfl

/-- An error returns only on a thread that is not the one it disposes of. -/
theorem errorThrow_ensures {format : String} {arguments : List String} : Ensures (K := kernel build) thread
    (Sent this handle client bytes) (errorThrow build format arguments)
    fun _ now => (build = .retro ∧ client.mainThreadId ≠ thread) ∧ Sent this handle client bytes now := by
  refine .passing (.call fun sent executed => ?_) fun _ => .passing (yieldToAnyThread_ensures Sent.stable) fun _ => ?_
  · cases executed
    exact sent.record rfl
  cases build with
  | direct => exact .exits
  | retro =>
    rw [leave, bind_eq, bind_eq, bind_assoc]
    refine .bind (fun main now => main = client.mainThreadId ∧ Sent this handle client bytes now)
      (.call fun sent executed => ?_) fun main => .given fun same => ?_
    · cases executed
      exact ⟨sent.main, sent⟩
    refine .bind (fun _ now => (Build.retro = .retro ∧ client.mainThreadId ≠ thread) ∧
      Sent this handle client bytes now)
      (.mono .stop (fun _ sent => sent) ?_) fun _ => .pause fun input now after moved holds => ?_
    · rintro _ now ⟨different, before, sent, rfl⟩
      exact ⟨⟨rfl, same ▸ different⟩, sent.record rfl⟩
    · exact ⟨holds.1, Sent.stable moved holds.2⟩

end error

section write
variable {attempt : Attempt (.sftpWrite handle buf)} {more : List Answer}

/-- What holds where the method returns: these parts of the buffer have been taken, and an
error has not stopped the thread. -/
def Uploaded (build : Build) (thread : ThreadId) (this : Ptr) (client : Client)
    (attempt : Attempt (.sftpWrite handle buf))
    (last : Client) : Prop :=
  (toInt attempt.result < 0 → build = .retro ∧ client.mainThreadId ≠ thread) ∧
    Sent this handle client attempt.taken last

private theorem rcError_ensures {code : Int} {bytes : Bytes} {script : List Answer} {funcname : String} :
    Ensures (K := kernel build) thread (Sending this handle client script code bytes)
      (rcError build funcname this (.handle handle) ()) fun _ now =>
        (code < 0 → build = .retro ∧ client.mainThreadId ≠ thread) ∧ Sent this handle client bytes now := by
  refine .bind _ rc_ensures fun rc => .given fun same => .bind (fun _ now =>
    (code < 0 → build = .retro ∧ client.mainThreadId ≠ thread) ∧ Sent this handle client bytes now)
    (.when (fun _ => ?_) fun settled now sending => ⟨fun negative => absurd negative (same ▸ settled), sending.toSent⟩)
    fun _ => .pure fun _ holds => holds
  refine .bind _ rc_ensures fun rc => .given fun _ => .mono (.passing message_ensures fun msg => errorThrow_ensures)
    (fun _ sending => sending.toSent) fun _ now holds => ⟨fun _ => holds.1, holds.2⟩

/-- The method makes the calls of the attempt. -/
theorem fileWrite_ensures (scripted : (client.session this).script = attempt.answers ++ more) :
    Ensures (K := kernel build) thread (· = client) (operate build this (.fileWrite handle buf)) fun _ last =>
      Uploaded build thread this client attempt last := by
  have taken : takenBy buf attempt.replies = attempt.taken := by
    simp [takenBy, Attempt.replies, Attempt.taken, List.flatMap_map]
  refine .bind (fun _ last => Uploaded build thread this client attempt last) ?_ fun _ => .pure fun _ holds => holds
  rw [fileWrite, handled, rcErrHandle_eq]
  refine .bind (fun _ => Underway this client attempt more) (.call fun same executed => ?_) fun _ =>
    .bind _ loop_ensures fun _ => ?_
  · cases same
    cases executed
    refine ⟨[], attempt.replies, rfl, ⟨rfl, [], by simp, rfl⟩, ?_, ?_⟩
    · simpa [Attempt.answers, Attempt.replies, Attempt.answer] using scripted
    · rw [if_neg (by simp [Attempt.replies])]
      exact Function.update_self ..
  · rw [taken]
    exact rcError_ensures

theorem completes_of_ends {α : Type} {code : Program α} {value : α} {now : Client}
    (ends : EndsIn build thread (code.bind .pure) now (some value) last) :
    Completes (K := kernel build) thread code now (.value value) last := by
  rcases Completes.bind_iff.mp (Completes.of_alone (Finishes.some_iff.mp ends)) with ⟨given, between, first,
    second⟩ | ⟨_, never, _⟩
  · obtain ⟨same, rfl⟩ := Completes.pure_iff.mp second
    cases same
    exact first
  · cases never

theorem message_completes {err : Int} (named : err ≠ 1) {now : Client} : ∃ text after,
    Completes (K := kernel build) thread (message this err) now (.value text) after ∧
      after.mainThreadId = now.mainThreadId := by
  obtain ⟨_, input, answer, script, st, answered, given, _⟩ := @failed_exists thread this now "" err
  refine ⟨st ++ " (" ++ toString err ++ ")", now.answered thread this .sessionLastError answer script, ?_, rfl⟩
  exact completes_of_ends ((message_then named).mpr (library_then.mpr ⟨input, answer, script, st, answered, given,
    pure_ends.mpr ⟨rfl, rfl⟩⟩))

theorem errorThrow_completes {format : String} {arguments : List String} {now : Client}
    (other : now.mainThreadId ≠ thread) :
    ∃ after, Completes (K := kernel .retro) thread (errorThrow .retro format arguments) now (.value ()) after := by
  let reported := now.record (.reported thread format arguments)
  have reports : (kernel .retro).exec thread (.report format arguments) .none now = some ((), reported) := rfl
  have names : (kernel .retro).exec thread .mainThreadId .none reported = some (now.mainThreadId, reported) := rfl
  exact ⟨_, .op reports (.yield .refl (.op names (.disposes other (.yield .refl (.pure _ _)))))⟩

private theorem rcError_completes {now : Client} {funcname : String}
    (returns : now.rc (.handle handle) < 0 → build = .retro ∧ now.mainThreadId ≠ thread) :
    ∃ last, Completes (K := kernel build) thread (rcError build funcname this (.handle handle) ()) now
      (.value ()) last := by
  have reads : (kernel build).exec thread (.rc (.handle handle)) .none now = some (now.rc (.handle handle), now) := rfl
  by_cases negative : now.rc (.handle handle) < 0
  · obtain ⟨rfl, other⟩ := returns negative
    have named : now.rc (.handle handle) ≠ 1 := fun one => by omega
    obtain ⟨text, asked, message, main⟩ := @message_completes .retro thread this _ named now
    obtain ⟨after, throws⟩ := @errorThrow_completes thread ("[" ++ funcname ++ "] %s") [text] asked (main ▸ other)
    refine ⟨after, .op reads ?_⟩
    simp only [bind_eq, Code.pure_bind, when, if_pos negative]
    exact .andThen (.andThen (.op reads (.pure _ _)) (.andThen message throws)) (.pure _ _)
  · refine ⟨now, .op reads ?_⟩
    simp only [bind_eq, Code.pure_bind, when, if_neg negative]
    exact .pure _ _

/-- The method can return where no error stops the thread. -/
theorem fileWrite_completes (scripted : (client.session this).script = attempt.answers ++ more)
    (returns : toInt attempt.result < 0 → build = .retro ∧ client.mainThreadId ≠ thread) : ∃ last,
    Completes (K := kernel build) thread (operate build this (.fileWrite handle buf)) client (.value .none) last := by
  let started := client.keepRc (.handle handle) LIBSSH2_ERROR_EAGAIN
  let looped := started.settled thread this (.handle handle) attempt more (toInt attempt.result)
  have starts : (kernel build).exec thread (.setRc (.handle handle) LIBSSH2_ERROR_EAGAIN) .none client = some
    ((), started) :=
    rfl
  have loops : Completes (K := kernel build) thread (rcLoop build this (.handle handle) (fun _ => do
      return (← (do return toInt (← network build this (.sftpWrite handle buf))), ())) ()) started
        (.value ()) looped := by
    have reads : @Reads Unit (.sftpWrite handle buf) fun (rc : Int) _ => (toInt rc, ()) :=
      ⟨fun _ _ _ => rfl, fun _ _ _ _ _ => rfl⟩
    exact completes_of_ends ((rcLoop_attempt reads (fun _ => network_sends.map.map) Client.keepRc_same scripted).mpr
      (pure_ends.mpr ⟨rfl, rfl⟩))
  have kept : looped.rc (.handle handle) = toInt attempt.result := Client.keepRc_same
  obtain ⟨last, errors⟩ := @rcError_completes build thread this handle looped "libssh2_sftp_write" (by rwa [kept])
  have handles : Completes (K := kernel build) thread (fileWrite build this handle buf) client (.value ()) last := by
    rw [fileWrite, handled, rcErrHandle_eq]
    exact .andThen (.op starts (.pure _ _)) (.andThen loops errors)
  exact ⟨last, .andThen handles (.pure _ _)⟩

/-- Where the thread is stopped or all of the buffer is taken, it has been written. -/
private theorem whole_of_taken (scripted : (client.session this).script = attempt.answers ++ more)
    (taken : (toInt attempt.result < 0 ∧ (build = .retro → client.mainThreadId = thread)) ∨ attempt.taken = buf) :
    WritesWhole build thread this handle buf client := by
  intro value last file completes
  obtain ⟨returns, sent⟩ := fileWrite_ensures scripted rfl completes
  obtain ⟨events, grown, took⟩ := sent.log
  have recorded : client.recorded last = events := by rw [Client.recorded, grown, List.drop_left]
  rcases taken with ⟨negative, stops⟩ | taken
  · obtain ⟨retro, other⟩ := returns negative
    exact (other (stops retro)).elim
  · rw [recorded, RemoteFile.after_eq, took, taken]

private theorem taken_of_whole (scripted : (client.session this).script = attempt.answers ++ more)
    (whole : WritesWhole build thread this handle buf client) :
    (toInt attempt.result < 0 ∧ (build = .retro → client.mainThreadId = thread)) ∨ attempt.taken = buf := by
  by_cases stops : toInt attempt.result < 0 ∧ (build = .retro → client.mainThreadId = thread)
  · exact Or.inl stops
  · refine Or.inr ?_
    have returns (negative : toInt attempt.result < 0) : build = .retro ∧ client.mainThreadId ≠ thread := by
      by_contra stays
      exact stops ⟨negative, fun retro => by_contra fun other => stays ⟨retro, other⟩⟩
    obtain ⟨last, completes⟩ := @fileWrite_completes build thread this handle client buf attempt more scripted returns
    obtain ⟨_, sent⟩ := fileWrite_ensures scripted rfl completes
    obtain ⟨events, grown, took⟩ := sent.log
    have recorded : client.recorded last = events := by rw [Client.recorded, grown, List.drop_left]
    have same := whole _ last ⟨fun _ => none, 0⟩ completes
    rw [recorded, RemoteFile.after_eq, took] at same
    exact RemoteFile.write_injective same

/-- The whole buffer is written exactly where the parts that are taken make up the buffer, or
an error stops the thread. -/
theorem write_whole (scripted : (client.session this).script = attempt.answers ++ more) :
    WritesWhole build thread this handle buf client ↔
      (toInt attempt.result < 0 ∧ (build = .retro → client.mainThreadId = thread)) ∨ attempt.taken = buf :=
  ⟨taken_of_whole scripted, whole_of_taken scripted⟩

/-- Where the library takes no more than it is offered and the buffer is not too long for an
int, this is a matter of the first result that is not EAGAIN. -/
theorem taken_iff_all (small : buf.length < 2 ^ 32 - 37)
    (offered : ∀ reply ∈ attempt.replies, (reply.1 : Int) ≤ buf.length) :
    attempt.taken = buf ↔ (attempt.result : Int).toNat = buf.length := by
  have takes_none (rc : Int) (again : toInt rc = LIBSSH2_ERROR_EAGAIN) (most : rc ≤ buf.length) : rc.toNat = 0 := by
    simp only [toInt, LIBSSH2_ERROR_EAGAIN, Int.bmod_def] at again
    omega
  have takes_all (rc : Int) (most : rc ≤ buf.length) : buf.length ≤ rc.toNat ↔ rc.toNat = buf.length := by omega
  have nothing : ∀ reply ∈ attempt.agains, (reply.1 : Int).toNat = 0 := by
    intro reply member
    have again := attempt.again reply member
    exact takes_none reply.1 (by simpa [Answer.again] using again) (offered reply (List.mem_append_left _ member))
  have taken : attempt.taken = buf.take (attempt.result : Int).toNat := by
    have none_ : (attempt.agains.map (·.1)).flatMap (fun (rc : Int) => buf.take rc.toNat) = [] := by
      rw [List.flatMap_eq_nil_iff]
      intro rc member
      obtain ⟨reply, among, rfl⟩ := List.mem_map.mp member
      rw [nothing reply among, List.take_zero]
    rw [Attempt.taken, List.flatMap_append, none_, List.nil_append, List.flatMap_singleton]
  rw [taken, List.take_eq_self_iff]
  exact takes_all _ (offered (attempt.result, attempt.errno) (List.mem_append_right _ (List.mem_singleton_self _)))

end write

def twoOffered (result : Int) (definitive : toInt result ≠ LIBSSH2_ERROR_EAGAIN) : Attempt (.sftpWrite 7 [1, 2]) where
  agains := [(LIBSSH2_ERROR_EAGAIN, LIBSSH2_ERROR_EAGAIN)]
  result
  errno := 0
  again := fun reply member => by cases List.mem_singleton.mp member; decide
  blank := fun _ _ => rfl
  definitive := by simp [Answer.again, definitive]

theorem write_whole_twoOffered : WritesWhole .retro 0 0 7 [1, 2] (answering 0 (twoOffered 2 (by decide)).answers) :=
  (write_whole (List.append_nil _).symm).mpr (Or.inr rfl)

/-- The library takes the first byte, and the second one is never offered again. -/
theorem write_loses_rest : ¬ WritesWhole .retro 0 0 7 [1, 2] (answering 0 (twoOffered 1 (by decide)).answers) := by
  intro whole
  rcases taken_of_whole (List.append_nil _).symm whole with ⟨negative, _⟩ | taken
  · revert negative
    decide
  · cases taken

end PowerBoot.Transfer
