import PowerBoot.Transfer.Retry
import PowerBoot.Transfer.SetUp

/-! Two runs of the same code side by side, where the session of the second one answers
EAGAIN more often: rules for what they have in common. -/

namespace PowerBoot.Transfer
open Coop Code

/-- The calls of `read_thread` that the library can answer with EAGAIN. -/
def Function.delays : Function → Bool
  | .sessionHandshake | .userauthList | .userauthPublickeyFromfileEx | .userauthPassword | .sftpInit
  | .channelOpenSession => true
  | _ => false

/-- Those of them that are outside of any loop. -/
def Function.single : Function → Bool
  | .userauthPublickeyFromfileEx | .userauthPassword | .channelOpenSession => true
  | _ => false

/-- What becomes of a wait(): its `select` returns, or throws, or gives way for ever. -/
inductive Wait where
  | returns
  | throws
  | hangs

/-- A wait() follows the answer: whatever it is where the methods are asked for, and after EAGAIN
where SFTP is initialized. -/
def Answer.waits : Answer → Bool
  | ⟨.userauthList, _, _⟩ => true
  | ⟨.sftpInit, pointer, errno⟩ => (Answer.mk .sftpInit pointer errno).again
  | _ => false

/-- What becomes of the wait() after the answer, if there is one. -/
def Answer.after (answer : Answer) (wait : Wait) : List Wait := if answer.waits then [wait] else []

/-- A result EAGAIN of a call that the library can answer so, and what becomes of the wait()
that it adds. -/
structure Again (function : Function) where
  result : function.Result
  errno : Int
  wait : Wait := .returns
  delays : function.delays = true
  again : (Answer.mk function result errno).again = true

def Again.answer {function : Function} (reply : Again function) : Answer := ⟨function, reply.result, reply.errno⟩

/-- A result of a script, and the EAGAIN results that are inserted in front of it. -/
structure Padded where
  function : Function
  result : function.Result
  errno : Int := LIBSSH2_ERROR_NONE
  agains : List (Again function) := []

namespace Padded

def answer (padded : Padded) : Answer := ⟨padded.function, padded.result, padded.errno⟩

def answers (padded : Padded) : List Answer := padded.agains.map Again.answer ++ [padded.answer]

/-- What becomes of the waits of these answers. That of the result is made in both runs, and
returns in the first one. -/
def waits (padded : Padded) : List Wait :=
  padded.agains.flatMap (fun reply => reply.answer.after reply.wait) ++ padded.answer.after .returns

/-- Nothing is in front of a definitive result of a call that is made once, and the waits that
are added return. -/
structure Tolerable (padded : Padded) : Prop where
  retried : padded.agains ≠ [] → padded.function.single = true → padded.answer.again = true
  returns : ∀ reply ∈ padded.agains, ∀ wait ∈ reply.answer.after reply.wait, wait = .returns

end Padded

def Tolerable (padding : List Padded) : Prop := ∀ padded ∈ padding, padded.Tolerable

/-- The event is no attempt that is made again, and not the wait after it. -/
def Event.completed : Event → Bool
  | .library _ _ _ answer => !answer.again
  | .waited .. => false
  | _ => true

def completed (log : List Event) : List Event := log.filter Event.completed

def answered (this : Ptr) (log : List Event) : List Answer := log.filterMap (Event.answer this)

def Event.waits : Event → Bool
  | .waited .. => true
  | _ => false

def waited (log : List Event) : Nat := log.countP Event.waits

/-- The code ends so, and its calls are answered by the script of the session, each result
of it in its turn. Its waits return, or it would not end. -/
structure Plays (build : Build) (thread : ThreadId) (this : Ptr) {α : Type} (code : Program α) (client : Client)
    (result : Option α) (last : Client) : Prop where
  ends : EndsIn build thread code client result last
  consumed : answered this last.log = answered this client.log ++ (client.session this).script

/-- The code ends so where this becomes of its waits: it makes none but waits that return. -/
def ComesTo (build : Build) (thread : ThreadId) (waits : List Wait) {α : Type} (code : Program α) (client : Client)
    (result : Option α) (last : Client) : Prop :=
  EndsIn build thread code client result last ∧
    ∀ wait ∈ waits.take (waited last.log - waited client.log), wait = .returns

/-- Where this becomes of its waits, the code ends, and only with this result, with these completed
calls and with this object. -/
def Transparent (build : Build) (thread : ThreadId) (waits : List Wait) {α : Type} (code : Program α)
    (client : Client) (result : Option α) (last : Client) : Prop :=
  ∃ final, (∀ other later, ComesTo build thread waits code client other later ↔ other = result ∧ later = final) ∧
    completed final.log = completed last.log ∧ final.sftp = last.sftp

/-- Two clients that differ in their attempts. What is left of the second script in front of
the padded results is for calls that are not made again. -/
structure Beside (this : Ptr) (spent : List Function) (padding : List Padded) (client beside : Client) : Prop where
  same : beside = { client with session := beside.session, log := beside.log }
  completed : completed beside.log = completed client.log
  script : (client.session this).script = padding.map Padded.answer
  padded : ∃ left : List Answer, (∀ answer ∈ left, answer.function ∈ spent) ∧
    (beside.session this).script = left ++ padding.flatMap Padded.answers

/-- From clients side by side the code ends in the same way, where the padding is tolerable alone. -/
def TalliesAt (build : Build) (thread : ThreadId) (this : Ptr) (padding : List Padded) (waits : List Wait) {α : Type}
    (code : Program α) (client beside : Client) : Prop :=
  ∀ result last, Plays build thread this code client result last →
    (Transparent build thread waits code beside result last ↔ Tolerable padding)

/-- The same for all scripts that are no longer than this. The code still owes some waits for
the answer before. -/
def Tallies (build : Build) (thread : ThreadId) (this : Ptr) (limit : Nat) (spent : List Function) (owed : List Wait)
    {α : Type} (code : Program α) : Prop :=
  ∀ padding client beside, padding.length ≤ limit → Beside this spent padding client beside →
    TalliesAt build thread this padding (owed ++ padding.flatMap Padded.waits) code client beside

variable {build : Build} {thread : ThreadId} {this : Ptr} {limit : Nat} {spent : List Function}
  {owed expected : List Wait}
  {padding : List Padded} {client beside last : Client} {α : Type} {code : Program α} {result : Option α}

section tolerable
variable {head : Padded}

theorem Answer.after_plain {answer : Answer} {wait : Wait} (plain : answer.function.delays = false) :
    answer.after wait = [] := by
  obtain ⟨function, result, errno⟩ := answer
  cases function <;> first | rfl | cases plain

theorem Answer.after_single {answer : Answer} {wait : Wait} (single : answer.function.single = true) :
    answer.after wait = [] := by
  obtain ⟨function, result, errno⟩ := answer
  cases function <;> first | rfl | cases single

theorem tolerable_cons : Tolerable (head :: padding) ↔ head.Tolerable ∧ Tolerable padding :=
  List.forall_mem_cons

theorem tolerable_bare (bare : head.agains = []) : Tolerable (head :: padding) ↔ Tolerable padding :=
  tolerable_cons.trans (and_iff_right ⟨fun some => (some bare).elim, by simp [bare]⟩)

theorem tolerable_again {function : Function} {value : function.Result} {errno : Int} {reply : Again function}
    {agains : List (Again function)} (loops : function.single = false) :
    Tolerable (⟨function, value, errno, reply :: agains⟩ :: padding) ↔
      (∀ wait ∈ reply.answer.after reply.wait, wait = .returns) ∧
        Tolerable (⟨function, value, errno, agains⟩ :: padding) := by
  have retried : ∀ agains : List (Again function), Padded.Tolerable ⟨function, value, errno, agains⟩ ↔
      ∀ reply ∈ agains, ∀ wait ∈ reply.answer.after reply.wait, wait = .returns := fun agains =>
    ⟨Padded.Tolerable.returns, fun returns => ⟨fun _ single => by simp [loops] at single, returns⟩⟩
  rw [tolerable_cons, tolerable_cons, retried, retried, List.forall_mem_cons, and_assoc]

theorem waits_again {function : Function} {value : function.Result} {errno : Int} {reply : Again function}
    {agains : List (Again function)} :
    (⟨function, value, errno, reply :: agains⟩ :: padding : List Padded).flatMap Padded.waits =
      reply.answer.after reply.wait ++
        (⟨function, value, errno, agains⟩ :: padding : List Padded).flatMap Padded.waits := by
  simp [Padded.waits, Padded.answer]

theorem tolerable_single {function : Function} {value : function.Result} {errno : Int} {agains : List (Again function)}
    (single : function.single = true) (some_ : agains ≠ []) :
    Tolerable (⟨function, value, errno, agains⟩ :: padding) ↔
      (Answer.mk function value errno).again = true ∧ Tolerable padding := by
  have none_ (reply : Again function) : reply.answer.after reply.wait = [] := Answer.after_single single
  rw [tolerable_cons]
  refine and_congr_left fun _ => ⟨fun tolerable => tolerable.retried some_ single, fun again => ⟨fun _ _ => again, ?_⟩⟩
  intro reply _ wait member
  rw [none_] at member
  cases member

end tolerable

section comes
variable {other : Program α} {now : Client} {first : List Wait} {events : List Event}

@[simp] theorem waited_append {log more : List Event} : waited (log ++ more) = waited log + waited more :=
  List.countP_append

theorem comesTo_after (same : ∀ result last,
    EndsIn build thread code client result last ↔ EndsIn build thread other now result last)
    (log : now.log = client.log ++ events) (count : waited events = first.length) :
    ComesTo build thread (first ++ expected) code client result last ↔
      (∀ wait ∈ first, wait = .returns) ∧ ComesTo build thread expected other now result last := by
  simp only [ComesTo, same]
  rw [and_left_comm]
  refine and_congr_right fun ends => ?_
  obtain ⟨more, grown⟩ := ends_grows ends
  have before : waited last.log - waited client.log = first.length + waited more := by
    rw [grown, log, waited_append, waited_append, count]
    omega
  have left : waited last.log - waited now.log = waited more := by
    rw [grown, waited_append]
    omega
  rw [before, left, List.take_length_add_append, List.forall_mem_append]

theorem transparent_after (same : ∀ result last,
    EndsIn build thread code client result last ↔ EndsIn build thread other now result last)
    (log : now.log = client.log ++ events) (count : waited events = first.length) :
    Transparent build thread (first ++ expected) code client result last ↔
      (∀ wait ∈ first, wait = .returns) ∧ Transparent build thread expected other now result last := by
  simp only [Transparent, comesTo_after same log count]
  constructor
  · rintro ⟨final, only, rest⟩
    obtain ⟨returns, _⟩ := (only result final).mpr ⟨rfl, rfl⟩
    exact ⟨returns, final, fun other later => by rw [← only, and_iff_right returns], rest⟩
  · rintro ⟨returns, final, only, rest⟩
    exact ⟨final, fun other later => by rw [← only, and_iff_right returns], rest⟩

theorem transparent_iff (same : ∀ result last,
    EndsIn build thread code client result last ↔ EndsIn build thread other now result last)
    (log : now.log = client.log ++ events) (count : waited events = 0) :
    Transparent build thread expected code client result last ↔
      Transparent build thread expected other now result last := by
  have after := @transparent_after build thread expected client last α code result other now [] events same log count
  simpa using after

end comes

namespace Beside

theorem sftp (there : Beside this spent padding client beside) : beside.sftp = client.sftp := by
  rw [there.same]

theorem readThreadId (there : Beside this spent padding client beside) : beside.readThreadId = client.readThreadId := by
  rw [there.same]

theorem wider {more : List Function} (there : Beside this spent padding client beside)
    (wider : ∀ function ∈ spent, function ∈ more) : Beside this more padding client beside := by
  obtain ⟨left, among, script⟩ := there.padded
  exact ⟨there.same, there.completed, there.script, left, fun answer member => wider _ (among answer member), script⟩

theorem record {event : Event} (there : Beside this spent padding client beside) :
    Beside this spent padding (client.record event) (beside.record event) := by
  refine ⟨?_, ?_, there.script, there.padded⟩
  · rw [there.same]
    rfl
  · have same := there.completed
    simp only [Transfer.completed] at same
    simp [Transfer.completed, same]

theorem update {change : Sftp → Sftp} (there : Beside this spent padding client beside) :
    Beside this spent padding (client.update this change) (beside.update this change) := by
  refine ⟨?_, there.completed, there.script, there.padded⟩
  rw [there.same]
  rfl

/-- Attempts that are not completed make no difference to the second client. -/
theorem attempts {events : List Event} (there : Beside this spent padding client beside)
    (open_ : ∀ event ∈ events, event.completed = false) :
    Beside this spent padding client { beside with log := beside.log ++ events } := by
  refine ⟨?_, ?_, there.script, there.padded⟩
  · rw [there.same]
  · have nothing : events.filter Event.completed = [] := by simpa using open_
    rw [← there.completed]
    simp [Transfer.completed, nothing]

end Beside

@[simp] theorem answered_append {log more : List Event} :
    answered this (log ++ more) = answered this log ++ answered this more := List.filterMap_append

/-- On the way from one client to the other nothing was answered and nothing was waited for. -/
structure Skips (this : Ptr) (client now : Client) (events : List Event) : Prop where
  log : now.log = client.log ++ events
  unanswered : answered this events = []
  unwaited : waited events = 0

namespace Skips
variable {now : Client} {events : List Event}

theorem same (log : now.log = client.log) : Skips this client now [] := ⟨log.trans (List.append_nil _).symm, rfl, rfl⟩

theorem answered (skips : Skips this client now events) : answered this now.log = answered this client.log := by
  rw [skips.log, answered_append, skips.unanswered, List.append_nil]

theorem waited (skips : Skips this client now events) : waited now.log - waited client.log = 0 := by
  rw [skips.log, waited_append, skips.unwaited]
  omega

end Skips

namespace TalliesAt
variable {now later : Client} {events events' : List Event}

theorem moves {other : Program α} (there : Beside this spent padding client beside)
    (then_ : Beside this spent padding now later)
    (first : ∀ result last, EndsIn build thread code client result last ↔ EndsIn build thread other now result last)
    (second : ∀ result last, EndsIn build thread code beside result last ↔ EndsIn build thread other later result last)
    (skips : Skips this client now events) (skips' : Skips this beside later events')
    (tallies : TalliesAt build thread this padding expected other now later) :
    TalliesAt build thread this padding expected code client beside := by
  intro result last plays
  rw [transparent_iff second skips'.log skips'.unwaited]
  refine tallies result last ⟨(first ..).mp plays.ends, ?_⟩
  rw [plays.consumed, there.script, then_.script, skips.answered]

theorem ended {given : Option α} {may : Prop} (there : Beside this spent padding client beside)
    (then_ : Beside this spent padding now later)
    (first : ∀ result last, EndsIn build thread code client result last ↔ may ∧ result = given ∧ last = now)
    (second : ∀ result last, EndsIn build thread code beside result last ↔ may ∧ result = given ∧ last = later)
    (skips : Skips this client now events) (skips' : Skips this beside later events') :
    TalliesAt build thread this padding expected code client beside := by
  intro result last plays
  obtain ⟨ends, rfl, rfl⟩ := (first ..).mp plays.ends
  have nothing : padding = [] := by
    have consumed := plays.consumed
    rw [skips.answered, there.script] at consumed
    simpa using consumed
  subst nothing
  refine iff_of_true ⟨later, fun other last => ?_, then_.completed, then_.sftp⟩ (by simp [Tolerable])
  rw [ComesTo, second]
  constructor
  · exact fun finishes => finishes.1.2
  · rintro ⟨rfl, rfl⟩
    exact ⟨⟨ends, rfl, rfl⟩, by simp [skips'.waited]⟩

end TalliesAt

namespace Tallies

theorem step (next : Client → Program α) (change : Client → Client) (events : List Event)
    (ends : ∀ now other later,
      EndsIn build thread code now other later ↔ EndsIn build thread (next now) (change now) other later)
    (keeps : ∀ {padding client beside}, Beside this spent padding client beside →
      next beside = next client ∧ Beside this spent padding (change client) (change beside))
    (skips : ∀ now : Client, Skips this now (change now) events)
    (rest : ∀ now, Tallies build thread this limit spent owed (next now)) :
    Tallies build thread this limit spent owed code := by
  intro padding client beside short there
  obtain ⟨same, then_⟩ := keeps there
  refine TalliesAt.moves there then_ (fun _ _ => ends ..) (fun _ _ => same ▸ ends ..) (skips client) (skips beside) ?_
  exact rest client padding _ _ short then_

theorem pure (value : α) : Tallies build thread this limit spent owed (.pure value : Program α) :=
  have ends (now : Client) (result : Option α) (last : Client) :
      EndsIn build thread (.pure value) now result last ↔ True ∧ result = some value ∧ last = now := by
    rw [pure_ends, true_and]
  fun _ client beside _ there => TalliesAt.ended there there (ends client) (ends beside) (.same rfl) (.same rfl)

theorem yields {rest : Unit → Program α} (then_ : Tallies build thread this limit spent owed (rest ())) :
    Tallies build thread this limit spent owed ((yieldToAnyThread build).bind rest) :=
  step (fun _ => rest ()) id [] (fun _ _ _ => yieldToAnyThread_then) (fun there => ⟨rfl, there⟩)
    (fun _ => .same rfl) fun _ => then_

theorem member {rest : Sftp → Program α} (then_ : ∀ sftp, Tallies build thread this limit spent owed (rest sftp)) :
    Tallies build thread this limit spent owed ((perform (.member this)).bind rest) :=
  step (fun now => rest (now.sftp this)) id [] (fun _ _ _ => member_then)
    (fun there => ⟨by rw [there.sftp], there⟩) (fun _ => .same rfl) fun now => then_ (now.sftp this)

theorem assign {member : Assign} {rest : Unit → Program α}
    (then_ : Tallies build thread this limit spent owed (rest ())) :
    Tallies build thread this limit spent owed ((perform (.assign this member)).bind rest) :=
  step (fun _ => rest ()) (·.update this member.apply) [] (fun _ _ _ => assign_then) (fun there => ⟨rfl, there.update⟩)
    (fun _ => .same rfl) fun _ => then_

/-- A wait that both runs make returns in both. -/
theorem waits {rest : Program α} (then_ : Tallies build thread this limit spent [] rest) :
    Tallies build thread this limit spent [.returns] ((wait build this).bind fun _ => rest) := by
  intro padding client beside short there result last plays
  rw [transparent_after (fun _ _ => wait_then) rfl rfl, and_iff_right (by simp)]
  refine then_ padding _ _ short there.record result last ⟨wait_then.mp plays.ends, ?_⟩
  rw [plays.consumed]
  simp [answered, Event.answer]

/-- An error ends both runs, or none where no thread is named. -/
theorem readErrorThrow {format : String} {arguments : List String} {rest : Unit → Program α}
    (then_ : Tallies build thread this limit spent owed (rest ())) :
    Tallies build thread this limit spent owed ((readErrorThrow build format arguments).bind rest) := by
  intro padding client beside short there
  have skips (now : Client) : Skips this now (now.record (.reported thread format arguments)) _ := ⟨rfl, rfl, rfl⟩
  have named := there.readThreadId
  by_cases lost : build = .retro ∧ client.readThreadId = none
  · refine TalliesAt.moves there there.record (fun _ _ => ?_) (fun _ _ => ?_) (skips client) (skips beside)
      (then_ padding _ _ short there.record)
    · rw [readErrorThrow_iff, if_pos lost]
    · rw [readErrorThrow_iff, named, if_pos lost]
  · have ends (now : Client) (same : now.readThreadId = client.readThreadId) (result : Option α) (last : Client) :
        EndsIn build thread ((Transfer.readErrorThrow build format arguments).bind rest) now result last ↔
          (build = .retro → client.readThreadId = some thread) ∧ result = none ∧
            last = now.record (.reported thread format arguments) := by
      rw [readErrorThrow_iff, same, if_neg lost]
    exact TalliesAt.ended there there.record (ends client rfl) (ends beside named) (skips client) (skips beside)

theorem when {condition : Prop} [Decidable condition] {part : Program Unit} {rest : Unit → Program α}
    (then_ : condition → Tallies build thread this limit spent owed (part.bind rest))
    (else_ : Tallies build thread this limit spent owed (rest ())) :
    Tallies build thread this limit spent owed ((when condition part).bind rest) := by
  unfold Code.when
  split
  next holds => exact then_ holds
  · exact else_

theorem failing {condition : Prop} [Decidable condition] {format : String} {arguments : List String}
    {rest : Unit → Program α} (then_ : Tallies build thread this limit spent owed (rest ())) :
    Tallies build thread this limit spent owed ((Code.when condition
      (Transfer.readErrorThrow build format arguments)).bind rest) :=
  when (fun _ => readErrorThrow then_) then_

end Tallies

section calls
variable {call : Call} {rest : call.function.Result → Program α} {value : call.function.Result} {errno : Int}
  {agains : List (Again call.function)} {reply : Again call.function}

theorem Plays.head (plays : Plays build thread this ((library this call).bind rest) client result last) :
    ∃ value errno script, (client.session this).script = ⟨call.function, value, errno⟩ :: script ∧
      Plays build thread this (rest value) (client.answered thread this call ⟨call.function, value, errno⟩ script)
        result last := by
  obtain ⟨input, answer, script, value, found, given, ends⟩ := library_then.mp plays.ends
  obtain ⟨function, reply, errno⟩ := answer
  cases Answer.for_iff.mp given
  obtain ⟨more, grown⟩ := ends_grows ends
  have consumed : (client.session this).script = ⟨call.function, value, errno⟩ :: answered this more := by
    have consumed := plays.consumed
    rw [grown] at consumed
    simpa [answered, Event.answer] using consumed.symm
  have next : script = answered this more := by
    simp only [Client.answer, consumed, nextAnswer_cons, Option.some.injEq, Prod.mk.injEq] at found
    exact found.2.symm
  refine ⟨value, errno, answered this more, consumed, next ▸ ends, ?_⟩
  simp [grown, answered, Event.answer]

theorem Plays.padded (there : Beside this spent padding client beside)
    (plays : Plays build thread this ((library this call).bind rest) client result last) :
    ∃ value errno agains more, padding = ⟨call.function, value, errno, agains⟩ :: more ∧
      Plays build thread this (rest value)
        (client.answered thread this call ⟨call.function, value, errno⟩ (more.map Padded.answer)) result last := by
  obtain ⟨value, errno, script, starts, plays⟩ := plays.head
  rw [there.script] at starts
  obtain ⟨⟨function, reply, number, agains⟩, more, rfl, same, rfl⟩ := List.map_eq_cons_iff.mp starts
  cases same
  exact ⟨reply, number, agains, more, rfl, plays⟩

theorem Beside.answers (there : Beside this spent (⟨call.function, value, errno, []⟩ :: padding) client beside)
    (live : call.function ∉ spent) : ∃ script,
      nextAnswer call.function (beside.session this).script = some (⟨call.function, value, errno⟩, script) ∧
      Beside this spent padding
        (client.answered thread this call ⟨call.function, value, errno⟩ (padding.map Padded.answer))
        (beside.answered thread this call ⟨call.function, value, errno⟩ script) := by
  obtain ⟨left, among, script⟩ := there.padded
  refine ⟨left ++ padding.flatMap Padded.answers, ?_, ?_, ?_, ?_, left, among, ?_⟩
  · rw [script]
    exact nextAnswer_append (fun other member same => live (same ▸ among other member)) rfl
  · rw [there.same]
    rfl
  · have same := there.completed
    simp only [Transfer.completed] at same
    simp [Transfer.completed, same]
  · exact congrArg Session.script Client.answered_session
  · exact congrArg Session.script Client.answered_session

theorem Beside.inserted (thread : ThreadId) (live : call.function ∉ spent)
    (there : Beside this spent (⟨call.function, value, errno, reply :: agains⟩ :: padding) client beside) :
    ∃ script, nextAnswer call.function (beside.session this).script = some (reply.answer, script) ∧
      Beside this spent (⟨call.function, value, errno, agains⟩ :: padding) client
        (beside.answered thread this call reply.answer script) := by
  obtain ⟨left, among, script⟩ := there.padded
  refine ⟨left ++ (agains.map Again.answer ++ ⟨call.function, value, errno⟩ :: padding.flatMap Padded.answers),
    ?_, ?_, ?_, there.script, left, among, ?_⟩
  · rw [script]
    simp only [List.flatMap_cons, Padded.answers, List.map_cons, List.cons_append, List.append_assoc]
    exact nextAnswer_append (fun other member same => live (same ▸ among other member)) rfl
  · rw [there.same]
    rfl
  · rw [← there.completed]
    have again : reply.answer.again = true := reply.again
    simp [Transfer.completed, Event.completed, again]
  · rw [Client.answered_session]
    simp [Padded.answers, Padded.answer]

theorem Beside.spends {more : List Function}
    (there : Beside this spent (⟨call.function, value, errno, agains⟩ :: padding) client beside)
    (again : (Answer.mk call.function value errno).again = true) (wider : ∀ function ∈ spent, function ∈ more)
    (now : call.function ∈ more) : Beside this more padding
      (client.answered thread this call ⟨call.function, value, errno⟩ (padding.map Padded.answer)) beside := by
  obtain ⟨left, among, script⟩ := there.padded
  refine ⟨?_, ?_, ?_, left ++ Padded.answers ⟨call.function, value, errno, agains⟩, ?_, ?_⟩
  · rw [there.same]
    simp [Client.answered, Client.record]
  · rw [there.completed]
    simp [Transfer.completed, Event.completed, again]
  · exact congrArg Session.script Client.answered_session
  · intro answer member
    simp only [Padded.answers, Padded.answer, List.mem_append, List.mem_map, List.mem_singleton] at member
    rcases member with old | ⟨_, _, rfl⟩ | rfl
    · exact wider _ (among answer old)
    · exact now
    · exact now
  · rw [script, List.flatMap_cons, List.append_assoc]

theorem Again.unique {function : Function} {value : function.Result} {errno : Int} (reply : Again function)
    (again : (Answer.mk function value errno).again = true) : reply.result = value := by
  obtain ⟨result, number, wait, delays, same⟩ := reply
  cases function with
  | sessionHandshake | userauthPublickeyFromfileEx | userauthPassword =>
    exact (of_decide_eq_true same).trans (of_decide_eq_true again).symm
  | userauthList | sftpInit | channelOpenSession =>
    exact (of_decide_eq_true same).1.trans (of_decide_eq_true again).1.symm
  | _ => cases delays

/-- A call whose answer is the same on both sides, and whose error number both sessions keep. -/
theorem TalliesAt.answers (live : call.function ∉ spent)
    (there : Beside this spent (⟨call.function, value, errno, []⟩ :: padding) client beside)
    (then_ : ∀ client beside, Beside this spent padding client beside → (client.session this).errno = errno →
      (beside.session this).errno = errno → TalliesAt build thread this padding expected (rest value) client beside) :
    TalliesAt build thread this (⟨call.function, value, errno, []⟩ :: padding) expected ((library this call).bind rest)
      client beside := by
  intro result last plays
  obtain ⟨_, _, _, _, same, plays⟩ := plays.padded there
  cases same
  obtain ⟨script, next, there⟩ := there.answers live
  rw [transparent_iff (fun _ _ => library_scripted next) rfl rfl, tolerable_bare rfl]
  exact then_ _ _ there (by rw [Client.answered_session]) (by rw [Client.answered_session]) result last plays

/-- A call that is made again for as long as it is answered EAGAIN. -/
theorem TalliesAt.retries {loop : Program α}
    (turn : ∀ now : Client, now.sftp = client.sftp → ∀ result last, EndsIn build thread loop now result last ↔
      EndsIn build thread ((library this call).bind rest) now result last)
    (live : call.function ∉ spent) (loops : call.function.single = false)
    (there : Beside this spent padding client beside)
    (again : ∀ (reply : Again call.function) (now : Client), now.sftp = client.sftp →
      (now.session this).errno = reply.errno → ∃ events, (∀ event ∈ events, event.completed = false) ∧
        waited events = (reply.answer.after reply.wait).length ∧
        ∀ result last, EndsIn build thread (rest reply.result) now result last ↔
          EndsIn build thread loop { now with log := now.log ++ events } result last)
    (then_ : ∀ value errno more client beside, more.length < padding.length →
      Beside this spent more client beside → (client.session this).errno = errno →
      (beside.session this).errno = errno →
      TalliesAt build thread this more ((Answer.mk call.function value errno).after .returns ++
        more.flatMap Padded.waits) (rest value) client beside) :
    TalliesAt build thread this padding (padding.flatMap Padded.waits) loop client beside := by
  intro result last plays
  have plays : Plays build thread this ((library this call).bind rest) client result last :=
    ⟨(turn client rfl _ _).mp plays.ends, plays.consumed⟩
  obtain ⟨value, errno, agains, more, rfl, _⟩ := plays.padded there
  replace then_ := fun client beside => then_ value errno more client beside (Nat.lt_succ_self _)
  induction agains generalizing beside with
  | nil =>
    rw [transparent_iff (turn beside there.sftp) (List.append_nil _).symm rfl]
    exact TalliesAt.answers live there then_ result last plays
  | cons reply agains ih =>
    obtain ⟨script, next, after⟩ := there.inserted thread live
    obtain ⟨events, open_, count, ends⟩ := again reply (beside.answered thread this call reply.answer script) there.sftp
      (by rw [Client.answered_session]; rfl)
    rw [transparent_iff (turn beside there.sftp) (List.append_nil _).symm rfl,
      transparent_iff (fun _ _ => library_scripted next) rfl rfl, waits_again, tolerable_again loops]
    exact (transparent_after ends rfl count).trans (and_congr_right fun _ => ih (after.attempts open_))

end calls

/-- An event that is a call outside of any loop. -/
def Event.single : Event → Bool
  | .library _ _ call _ => call.function.single
  | _ => false

/-- Wherever the code ends, the first thing that it completed is no call outside of any loop. -/
def Starts (build : Build) (thread : ThreadId) {α : Type} (code : Program α) : Prop :=
  ∀ client result last, EndsIn build thread code client result last →
    ∃ event later, completed last.log = completed client.log ++ event :: later ∧ event.single = false

namespace Starts

theorem step (next : Client → Program α) (change : Client → Client)
    (ends : ∀ now other later,
      EndsIn build thread code now other later ↔ EndsIn build thread (next now) (change now) other later)
    (silent : ∀ now : Client, (change now).log = now.log) (rest : ∀ now, Starts build thread (next now)) :
    Starts build thread code := by
  intro client result last finishes
  obtain ⟨event, later, log, other⟩ := rest client (change client) result last ((ends ..).mp finishes)
  exact ⟨event, later, by rw [log, silent], other⟩

theorem first (ends : ∀ client result last, EndsIn build thread code client result last →
    ∃ event later, last.log = client.log ++ event :: later ∧ event.completed = true ∧ event.single = false) :
    Starts build thread code := by
  intro client result last finishes
  obtain ⟨event, later, log, done, other⟩ := ends client result last finishes
  exact ⟨event, completed later, by simp [completed, log, done], other⟩

theorem library {call : Call} {rest : call.function.Result → Program α} (loops : call.function.single = false)
    (definite : ∀ value errno, (Answer.mk call.function value errno).again = false) :
    Starts build thread ((library this call).bind rest) := by
  refine first fun client result last finishes => ?_
  obtain ⟨_, answer, _, value, _, given, ends⟩ := library_then.mp finishes
  obtain ⟨more, grown⟩ := ends_grows ends
  refine ⟨.library thread this call answer, more, by simp [grown], ?_, loops⟩
  rw [Answer.for_iff.mp given]
  simp [Event.completed, definite]

theorem readErrorThrow {format : String} {arguments : List String} {rest : Unit → Program α} :
    Starts build thread ((readErrorThrow build format arguments).bind rest) := by
  refine first fun client result last finishes => ?_
  have ends := readErrorThrow_iff.mp finishes
  split at ends
  · obtain ⟨more, grown⟩ := ends_grows ends
    exact ⟨.reported thread format arguments, more, by simp [grown], rfl, rfl⟩
  · obtain ⟨_, _, rfl⟩ := ends
    exact ⟨_, [], rfl, rfl, rfl⟩

theorem message {err : Int} {rest : String → Program α} : Starts build thread ((message this err).bind rest) := by
  by_cases one : err = 1
  · subst one
    refine first fun client result last finishes => ?_
    obtain ⟨more, grown⟩ := ends_grows (message_one_then.mp finishes)
    exact ⟨.noMessage thread, more, by simp [grown], rfl, rfl⟩
  · exact step (fun _ => _) id (fun _ _ _ => message_then one) (fun _ => rfl)
      fun _ => library rfl fun _ _ => rfl

theorem assign {member : Assign} {rest : Unit → Program α} (then_ : Starts build thread (rest ())) :
    Starts build thread ((perform (.assign this member)).bind rest) :=
  step (fun _ => rest ()) (·.update this member.apply) (fun _ _ _ => assign_then) (fun _ => rfl) fun _ => then_

theorem member {rest : Sftp → Program α} (then_ : ∀ sftp, Starts build thread (rest sftp)) :
    Starts build thread ((perform (.member this)).bind rest) :=
  step (fun now => rest (now.sftp this)) id (fun _ _ _ => member_then) (fun _ => rfl)
    fun _ => then_ _

end Starts

namespace Tallies
variable {call : Call} {rest : call.function.Result → Program α}

theorem mono {less : Nat} (tallies : Tallies build thread this limit spent owed code) (short : less ≤ limit) :
    Tallies build thread this less spent owed code :=
  fun padding client beside shorter => tallies padding client beside (shorter.trans short)

theorem wider {more : List Function} (tallies : Tallies build thread this limit more owed code)
    (wider : ∀ function ∈ spent, function ∈ more) : Tallies build thread this limit spent owed code :=
  fun padding client beside short there => tallies padding client beside short (there.wider wider)

theorem library_less (plain : call.function.delays = false) (live : call.function ∉ spent)
    (then_ : ∀ less < limit, ∀ value, Tallies build thread this less spent [] (rest value)) :
    Tallies build thread this limit spent [] ((library this call).bind rest) := by
  intro padding client beside short there result last plays
  obtain ⟨value, errno, agains, more, rfl, _⟩ := plays.padded there
  cases agains with
  | nil =>
    have none_ : Padded.waits ⟨call.function, value, errno, []⟩ = [] := Answer.after_plain plain
    rw [List.flatMap_cons, none_]
    refine TalliesAt.answers live there (fun client beside there _ _ => ?_) result last plays
    exact then_ more.length short value more client beside le_rfl there
  | cons reply => exact absurd reply.delays (by simp [plain])

theorem library (plain : call.function.delays = false) (live : call.function ∉ spent)
    (then_ : ∀ value, Tallies build thread this limit spent [] (rest value)) :
    Tallies build thread this limit spent [] ((library this call).bind rest) :=
  library_less plain live fun _ short value => (then_ value).mono (Nat.le_of_lt short)

/-- A call that is made once. What comes next must not look like that call. -/
theorem once {more : List Function} (live : call.function ∉ spent) (single : call.function.single = true)
    (wider : ∀ function ∈ spent, function ∈ more) (now : call.function ∈ more)
    (starts : ∀ reply : Again call.function, Starts build thread (rest reply.result))
    (then_ : ∀ value, Tallies build thread this limit more [] (rest value)) :
    Tallies build thread this limit spent [] ((Transfer.library this call).bind rest) := by
  intro padding client beside short there result last plays
  obtain ⟨value, errno, agains, left, rfl, later⟩ := plays.padded there
  replace short : left.length ≤ limit := Nat.le_of_lt short
  have none_ : Padded.waits ⟨call.function, value, errno, agains⟩ = [] := by
    have replies : ∀ reply ∈ agains, reply.answer.after reply.wait = [] := fun _ _ => Answer.after_single single
    rw [Padded.waits, List.flatMap_eq_nil_iff.mpr replies]
    exact Answer.after_single single
  rw [List.flatMap_cons, none_, List.nil_append, List.nil_append]
  cases agains with
  | nil =>
    refine TalliesAt.answers live there (fun client beside there _ _ => ?_) result last plays
    exact then_ value left client beside short (there.wider wider)
  | cons reply agains =>
    obtain ⟨script, next, there⟩ := there.inserted thread live
    rw [transparent_iff (fun _ _ => library_scripted next) rfl rfl, tolerable_single single (List.cons_ne_nil _ _)]
    by_cases again : (Answer.mk call.function value errno).again = true
    · obtain rfl := reply.unique again
      rw [and_iff_right again]
      exact then_ reply.result left _ _ short (there.spends again wider now) result last later
    · refine iff_of_false ?_ fun tolerable => again tolerable.1
      rintro ⟨final, only, same, _⟩
      obtain ⟨event, rest, log, other⟩ := starts reply _ _ _ ((only _ _).mpr ⟨rfl, rfl⟩).1
      obtain ⟨grown, ends⟩ := ends_grows later.ends
      have done : completed last.log = completed client.log ++
          .library thread this call ⟨call.function, value, errno⟩ :: completed grown := by
        simp [completed, Event.completed, ends, again]
      have together : completed client.log ++ event :: rest =
          completed client.log ++ .library thread this call ⟨call.function, value, errno⟩ :: completed grown := by
        rw [← done, ← same, log]
        exact congrArg (· ++ event :: rest) there.completed.symm
      rw [(List.cons.inj (List.append_cancel_left together)).1] at other
      exact Bool.false_ne_true (other.symm.trans single)

theorem network (call : Call) {rest : call.function.Result → Program α}
    (then_ : Tallies build thread this limit spent owed ((Transfer.library this call).bind rest)) :
    Tallies build thread this limit spent owed ((network build this call).bind rest) :=
  step (fun _ => (Transfer.library this call).bind rest) id [] (fun _ _ _ => network_then)
    (fun there => ⟨rfl, there⟩) (fun _ => .same rfl) fun _ => then_

theorem message {err : Int} {rest : String → Program α} (live : .sessionLastError ∉ spent)
    (then_ : ∀ text, Tallies build thread this limit spent [] (rest text)) :
    Tallies build thread this limit spent [] ((message this err).bind rest) := by
  by_cases one : err = 1
  · subst one
    exact step (fun _ => rest "") (·.record (.noMessage thread)) _ (fun _ _ _ => message_one_then)
      (fun there => ⟨rfl, there.record⟩) (fun _ => ⟨rfl, rfl, rfl⟩) fun _ => then_ ""
  · refine step (fun _ => _) id [] (fun _ _ _ => message_then one) (fun there => ⟨rfl, there⟩)
      (fun _ => .same rfl) fun _ => ?_
    exact @library build thread this limit spent α .sessionLastError _ rfl live fun st => then_ _

end Tallies

end PowerBoot.Transfer
