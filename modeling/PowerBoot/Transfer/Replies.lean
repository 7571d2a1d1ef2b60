import PowerBoot.Transfer.Answers

/-! The definitive answers that a method has, out of all that happens in its dialogue with the
session. -/

namespace PowerBoot.Transfer
open Coop

/-- What the session of the object answers a thread definitively, but for its messages. -/
def Event.reply (thread : ThreadId) (this : Ptr) : Event → Option Reply
  | .library actor object call answer =>
    if actor = thread ∧ object = this ∧ answer.again = false ∧ answer.function ≠ .sessionLastError then
      some ⟨call, answer⟩
    else none
  | _ => none

def replies (thread : ThreadId) (this : Ptr) (log : List Event) : List Reply := log.filterMap (Event.reply thread this)

/-- The questions of an operation with their answers, of which only the last may be a failure. -/
inductive Asked (build : Build) (pointer : Option Ptr) (operation : Operation) : List Reply → Prop where
  | nothing : Asked build pointer operation []
  | more {replies : List Reply} {call : Call} {answer : Answer} (asked : Asked build pointer operation replies)
      (succeed : ∀ reply ∈ replies, reply.answer.fails = false)
      (asks : operation.asks build pointer replies = some call) (given : answer.function = call.function) :
      Asked build pointer operation (replies ++ [⟨call, answer⟩])

/-- The operation has asked all it asks, without a failure, and ends with this value. -/
structure Fulfilled (build : Build) (pointer : Option Ptr) (operation : Operation) (replies : List Reply)
    (value : Value) : Prop where
  asked : Asked build pointer operation replies
  succeed : ∀ reply ∈ replies, reply.answer.fails = false
  done : operation.asks build pointer replies = none
  gives : Gives build replies value

/-- An answer to the operation is missing, or there is a failure among them. -/
def Unmet (build : Build) (pointer : Option Ptr) (operation : Operation) (replies : List Reply) : Prop :=
  operation.asks build pointer replies ≠ none ∨ ∃ reply ∈ replies, reply.answer.fails = true

/-- What an event of a call means for the definitive answers. -/
def Event.Settles (build : Build) (user : ThreadId) (this : Ptr) (pointer : Option Ptr) (operation : Operation)
    (more : List Event) : Event → Prop
  | .returned _ value => Fulfilled build pointer operation (replies user this more) value
  | .threw _ | .exited _ | .disposed .. => Asked build pointer operation (replies user this more) ∧
    Unmet build pointer operation (replies user this more)
  | .called .. | .spawned .. => False
  | event => Asked build pointer operation (replies user this (more ++ [event]))

def Replied (build : Build) (user : ThreadId) (this : Ptr) (past : List Event) (event : Event) : Prop :=
  event.thread = user → ∀ operation, callOf user past = some (.operate this operation) →
    ∃ pointer, event.Settles build user this pointer operation (recent user past)

/-- Whether there is a failure among the answers, as far as the dialogue shows. -/
def Standing.fails : Standing → Bool
  | .asking | .blocked => false
  | _ => true

/-- The definitive answers of a dialogue are asked for one after the other. -/
structure Dialogue.Sound (build : Build) (pointer : Option Ptr) (operation : Operation)
    (dialogue : Dialogue) : Prop where
  asked : Asked build pointer operation dialogue.replies
  fails : dialogue.standing.fails = true ↔ ∃ reply ∈ dialogue.replies, reply.answer.fails = true

variable {build : Build} {user thread : ThreadId} {this : Ptr} {pointer : Option Ptr} {operation : Operation}
  {asked : List Reply} {dialogue next : Dialogue} {log more : List Event} {event : Event}

@[simp] theorem replies_append :
    replies thread this (log ++ more) = replies thread this log ++ replies thread this more :=
  List.filterMap_append ..

@[simp] theorem replies_one : replies thread this [event] = (event.reply thread this).toList := by
  cases given : event.reply thread this <;> simp [replies, given]

theorem Event.reply_owner {reply : Reply} (given : event.reply thread this = some reply) : event.thread = thread := by
  cases event with
  | library actor object call answer =>
    simp only [Event.reply] at given
    split at given
    next holds => exact holds.1
    · cases given
  | _ => cases given

theorem replies_own : replies user this (own user log) = replies user this log := by
  rw [replies, own, List.filterMap_filter]
  refine List.filterMap_congr fun event _ => ?_
  by_cases mine : event.thread = user
  · simp [mine]
  · have none : event.reply user this = none := Option.eq_none_iff_forall_ne_some.mpr fun reply given =>
      mine (Event.reply_owner given)
    simp [mine, none]

/-- No operation asks for an error. -/
theorem asks_aside {call : Call} (asks : operation.asks build pointer asked = some call) :
    call.function ≠ .sessionLastError := by
  cases operation with
  | fileRead handle =>
    unfold Operation.asks at asks
    split at asks <;> cases asks <;> nofun
  | _ =>
    cases asked with
    | nil =>
      cases asks
      nofun
    | cons => cases asks

theorem Dialogue.Sound.succeed (sound : Dialogue.Sound build pointer operation ⟨asked, .asking⟩) :
    ∀ reply ∈ asked, reply.answer.fails = false := fun reply member => Bool.eq_false_iff.mpr fun fails =>
  Bool.false_ne_true (sound.fails.mpr ⟨reply, member, fails⟩)

theorem Dialogue.Goes.sound (goes : dialogue.Goes build user this pointer operation event next)
    (sound : dialogue.Sound build pointer operation) : next.Sound build pointer operation := by
  cases goes with
  | @answered asked call answer asks given =>
    unfold hearing
    split
    · exact ⟨sound.asked, sound.fails⟩
    · refine ⟨.more sound.asked sound.succeed asks given, ?_⟩
      have succeed := sound.succeed
      cases fails : answer.fails <;> simp [Standing.fails, fails, or_and_right, exists_or]
      exact succeed
  | waits | explains | unexplained | reports => exact ⟨sound.asked, sound.fails⟩

theorem Dialogue.Goes.replies (goes : dialogue.Goes build user this pointer operation event next) :
    next.replies = dialogue.replies ++ (event.reply user this).toList := by
  cases goes with
  | @answered asked call answer asks given =>
    have aside : answer.function ≠ .sessionLastError := given ▸ asks_aside asks
    cases again : answer.again <;> simp [hearing, Event.reply, again, aside]
  | explains given => simp [Event.reply, given]
  | waits | unexplained | reports => simp [Event.reply]

theorem Converses.sound {events : List Event}
    (converses : Converses build user this pointer operation events dialogue) :
    dialogue.Sound build pointer operation ∧ dialogue.replies = Transfer.replies user this events := by
  induction converses with
  | begins => exact ⟨⟨.nothing, by simp [Standing.fails]⟩, rfl⟩
  | more _ goes ih => exact ⟨goes.sound ih.1, by rw [goes.replies, ih.2, replies_append, replies_one]⟩

theorem Dialogue.Sound.unmet (sound : dialogue.Sound build pointer operation)
    (stuck : dialogue.Stuck build user this pointer operation more) :
    Unmet build pointer operation dialogue.replies := by
  rcases stuck with reported | ⟨_, unanswered⟩
  · exact .inr (sound.fails.mp (by rw [reported]; rfl))
  · exact .inl unanswered

/-- What a method does in its dialogue, it does for its definitive answers. -/
theorem Event.Follows.settles (follows : event.Follows build user this pointer operation (own user more)) :
    event.Settles build user this pointer operation more := by
  have left (leaves : ∃ dialogue, Converses build user this pointer operation (own user more) dialogue ∧
      dialogue.Stuck build user this pointer operation (own user more)) :
      Asked build pointer operation (replies user this more) ∧
        Unmet build pointer operation (replies user this more) := by
    obtain ⟨dialogue, converses, stuck⟩ := leaves
    obtain ⟨sound, same⟩ := converses.sound
    rw [← @replies_own user this, ← same]
    exact ⟨sound.asked, sound.unmet stuck⟩
  have goesOn (goes : ∃ dialogue, Converses build user this pointer operation (own user more ++ [event]) dialogue) :
      Asked build pointer operation (replies user this (more ++ [event])) := by
    obtain ⟨dialogue, converses⟩ := goes
    obtain ⟨sound, same⟩ := converses.sound
    rw [replies_append, ← @replies_own user this more, ← replies_append, ← same]
    exact sound.asked
  cases event with
  | returned actor value =>
    obtain ⟨asked, converses, done, gives⟩ := follows
    obtain ⟨sound, same⟩ := converses.sound
    obtain rfl : asked = _ := same.trans replies_own
    exact ⟨sound.asked, sound.succeed, done, gives⟩
  | threw | exited | disposed => exact left follows
  | called | spawned => exact follows.elim
  | _ => exact goesOn follows

theorem Responded.replied {past : List Event} {began : ThreadId → Entry → Client → Prop}
    (responded : Responded build user this began past event) : Replied build user this past event := by
  intro mine operation call
  obtain ⟨begun, _, _, follows⟩ := responded mine operation call
  exact ⟨(begun.sftp this).sftpPointer, follows.settles⟩

end PowerBoot.Transfer
