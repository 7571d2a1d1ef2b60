import PowerBoot.Coop.Twins
import PowerBoot.Transfer.Authentication

/-! Two memories under the objects. The members that nothing sets hold different values in two
runs, until the set-up has assigned to them; three of them are read before that. -/

namespace PowerBoot.Transfer
open Coop Code

/-- The members of an SFTP object that neither the constructor nor an initializer sets. -/
inductive Unset where
  | sock | sftpPointer | sftpHandle | channel | recvBuffer | userauthlist
deriving DecidableEq

/-- Two memories of an object agree in a member. -/
def Unset.Agree (first second : Sftp) : Unset → Prop
  | .sock => second.sock = first.sock
  | .sftpPointer => second.sftpPointer = first.sftpPointer
  | .sftpHandle => second.sftpHandle = first.sftpHandle
  | .channel => second.channel = first.channel
  | .recvBuffer => second.recvBuffer = first.recvBuffer
  | .userauthlist => second.userauthlist = first.userauthlist

/-- Two memories of an object agree in the other members. -/
structure Sftp.Alike (first second : Sftp) : Prop where
  command : second.readThreadCommand = first.readThreadCommand
  state : second.readThreadState = first.readThreadState
  session : second.session = first.session

/-- The members that a set-up assigns to. -/
def Wired (first second : Sftp) : Prop := ∀ member ∈ [Unset.sock, .sftpPointer, .channel], member.Agree first second

def Constructed (this : Ptr) (log : List Event) : Prop := ∃ thread answer, .library thread this .init answer ∈ log

/-- An object is constructed, connected, and then used and destroyed. -/
def lifetime (build : Build) : Choices (kernel build) where
  answers _ _ _ _ := True
  calls _ entry client := match entry with
    | .connect object _ => Constructed object client.log
    | .operate object _ | .destroy object => Connected object client
    | _ => True
  moves _ _ := True

/-- Inputs are the same, where two values of `dir` that nothing set agree in the two directions. -/
def Input.Alike : Input → Input → Prop
  | .dir bits, other => ∃ bits', other = .dir bits' ∧
    bits' &&& LIBSSH2_SESSION_BLOCK_INBOUND = bits &&& LIBSSH2_SESSION_BLOCK_INBOUND ∧
    bits' &&& LIBSSH2_SESSION_BLOCK_OUTBOUND = bits &&& LIBSSH2_SESSION_BLOCK_OUTBOUND
  | input, other => other = input

section memories
variable (memory memory' : Ptr → Sftp)

/-- The two memories agree in the members that are read before anything sets them, by the time
that they are read. -/
def agreeing (build : Build) : Choices (kernel build) :=
  { lifetime build with
    calls := fun actor entry client => (lifetime build).calls actor entry client ∧ match entry with
      | .connect object _ => Unset.userauthlist.Agree (memory object) (memory' object)
      | .destroy object => Unset.sftpHandle.Agree (memory object) (memory' object)
      | _ => True
    moves := fun input _ => match input with
      | .command object .read => Unset.recvBuffer.Agree (memory object) (memory' object)
      | _ => True }

/-- Two clients that differ only in the members of the objects, and there only in what nothing
has set so far. -/
structure Related (client client' : Client) : Prop where
  rest : client' = { client with sftp := client'.sftp }
  alike : ∀ object, (client.sftp object).Alike (client'.sftp object)
  agree : ∀ object (member : Unset), member.Agree (memory object) (memory' object) →
    member.Agree (client.sftp object) (client'.sftp object)
  opened : ∀ object, Constructed object client.log → (client.sftp object).readThreadState = .open_ →
    Wired (client.sftp object) (client'.sftp object)
  commanded : ∀ object, Constructed object client.log → (client.sftp object).readThreadCommand = .read →
    Unset.recvBuffer.Agree (memory object) (memory' object)
  connected : ∀ object, Connected object client →
    Constructed object client.log ∧ Wired (client.sftp object) (client'.sftp object)

/-- What has been set stays so, to the same value in both. -/
structure Settled (before after : Client × Client) : Prop where
  agree : ∀ object (member : Unset), member.Agree (before.1.sftp object) (before.2.sftp object) →
    member.Agree (after.1.sftp object) (after.2.sftp object)
  constructed : ∀ object, Constructed object before.1.log → Constructed object after.1.log

/-- The members of an object that are set, once its constructor has begun. -/
structure Holding (object : Ptr) (members : List Unset) (client client' : Client) : Prop where
  related : Related memory memory' client client'
  constructed : Constructed object client.log
  agree : ∀ member ∈ members, member.Agree (client.sftp object) (client'.sftp object)

def memories (build : Build) : Twins (kernel build) where
  choices := agreeing memory memory' build
  inputs := Input.Alike
  related := Related memory memory'
  kept := Settled
  requires entry client client' := match entry with
    | .construct _ => True
    | .connect object _ | .readThread object _ => Holding memory memory' object [.userauthlist] client client'
    | .operate object _ => Holding memory memory' object [.sock, .sftpPointer, .channel] client client'
    | .destroy object => Holding memory memory' object [.sock, .sftpPointer, .channel, .sftpHandle] client client'

end memories

section steps
variable {memory memory' : Ptr → Sftp} {build : Build} {thread : ThreadId} {client client' : Client} {object : Ptr}

theorem Unset.Agree.apply {member : Unset} {first second : Sftp} (assigned : Assign)
    (agree : member.Agree first second) :
    member.Agree (assigned.apply first) (assigned.apply second) := by
  cases assigned <;> cases member <;> first | exact agree | exact rfl

theorem Sftp.Alike.apply {first second : Sftp} (assigned : Assign) (alike : first.Alike second) :
    (assigned.apply first).Alike (assigned.apply second) := by
  obtain ⟨command, state, session⟩ := alike
  cases assigned <;>
    exact ⟨by first | exact command | rfl, by first | exact state | rfl, by first | exact session | rfl⟩

def Op.writes (sftp : Ptr → Sftp) : Op → Ptr → Sftp
  | .assign this assigned => Function.update sftp this (assigned.apply (sftp this))
  | _ => sftp

/-- Only the local variable `dir` can tell inputs apart that are alike. -/
theorem exec_alike {o : Op} {input input' : Input} (direction : o ≠ .dir) (alike : input.Alike input') :
    exec thread o input' client = exec thread o input client := by
  cases input with
  | dir bits =>
    obtain ⟨bits', rfl, _⟩ := alike
    cases o <;> first | rfl | exact (direction rfl).elim
  | _ =>
    rw [show input' = _ from alike]

/-- An operation reads the objects only where it reads a member. -/
theorem exec_holding {o : Op} {input : Input} {reply : o.Reply} {after : Client} (sftp : Ptr → Sftp)
    (reads : ∀ object, o ≠ .member object) (executed : exec thread o input client = some (reply, after)) :
    exec thread o input { client with sftp } = some (reply, { after with sftp := o.writes sftp }) ∧
      after.sftp = o.writes client.sftp := by
  cases o with
  | member object => exact (reads object rfl).elim
  | library this call =>
    obtain ⟨answer, script, answered, result, rfl⟩ := exec_library.mp executed
    exact ⟨exec_library.mpr ⟨answer, script, answered, result, rfl⟩, rfl⟩
  | newThread | memory =>
    cases input with
    | status | memory =>
      first
      | cases executed
      | simp only [exec, Option.ite_none_right_eq_some, Option.some.injEq, Prod.mk.injEq] at executed ⊢
        obtain ⟨fits, rfl, rfl⟩ := executed
        exact ⟨⟨fits, rfl, rfl⟩, rfl⟩
    | _ => cases executed
  | dir | select =>
    cases input <;> cases executed
    exact ⟨rfl, rfl⟩
  | _ =>
    cases executed
    exact ⟨rfl, rfl⟩

/-- What has to be known of the two states where an operation might show a difference. -/
def Op.Fits (client client' : Client) : Op → Prop
  | .member _ | .dir => False
  | .library this .init => Constructed this client.log ∨
    (client.sftp this).readThreadState = .uninitialized ∧ (client.sftp this).readThreadCommand = .wait
  | .assign this (.readThreadState _) => Wired (client.sftp this) (client'.sftp this)
  | _ => True

theorem writes_other {o : Op} {sftp : Ptr → Sftp} (other : ∀ assigned, o ≠ .assign object assigned) :
    o.writes sftp object = sftp object := by
  cases o with
  | assign this assigned =>
    refine Function.update_of_ne ?_ _ _
    rintro rfl
    exact other assigned rfl
  | _ => rfl

theorem writes_keeps (property : Sftp → Sftp → Prop) {o : Op} {sftp sftp' : Ptr → Sftp}
    (kept : ∀ assigned : Assign, property (assigned.apply (sftp object)) (assigned.apply (sftp' object)))
    (holds : property (sftp object) (sftp' object)) : property (o.writes sftp object) (o.writes sftp' object) := by
  by_cases assigns : ∃ assigned, o = .assign object assigned
  · obtain ⟨assigned, rfl⟩ := assigns
    simp only [Op.writes, Function.update_self]
    exact kept assigned
  · have other (assigned : Assign) : o ≠ .assign object assigned := fun same => assigns ⟨assigned, same⟩
    rwa [writes_other other, writes_other other]

theorem constructed_grows {log more : List Event} (constructed : Constructed object log) :
    Constructed object (log ++ more) := by
  obtain ⟨thread, answer, member⟩ := constructed
  exact ⟨thread, answer, List.mem_append_left _ member⟩

theorem constructed_concat {log : List Event} {event : Event} : Constructed object (log ++ [event]) ↔
    Constructed object log ∨ ∃ thread answer, event = .library thread object .init answer := by
  simp [Constructed, List.mem_append, exists_or, eq_comm]

theorem exec_constructed {o : Op} {input : Input} {reply : o.Reply} {after : Client}
    (executed : exec thread o input client = some (reply, after)) (now : Constructed object after.log) :
    Constructed object client.log ∨ o = .library object .init := by
  obtain ⟨events, log, logs⟩ := exec_log executed
  rw [log] at now
  cases o with
  | library this call =>
    obtain ⟨answer, _, rfl⟩ := logs
    refine (constructed_concat.mp now).imp_right ?_
    rintro ⟨_, _, same⟩
    cases same
    rfl
  | waited | report | noMessage =>
    obtain rfl : events = _ := logs
    exact (constructed_concat.mp now).imp_right fun ⟨_, _, same⟩ => by cases same
  | _ =>
    obtain rfl : events = [] := logs
    exact .inl (List.append_nil client.log ▸ now)

theorem exec_connected {o : Op} {input : Input} {reply : o.Reply} {after : Client}
    (executed : exec thread o input client = some (reply, after)) (now : Connected object after) :
    Connected object client := by
  obtain ⟨actor, member⟩ := now
  obtain ⟨events, log, logs⟩ := exec_log executed
  rw [log] at member
  refine ⟨actor, (List.mem_append.mp member).resolve_right fun late => ?_⟩
  cases o with
  | library =>
    obtain ⟨answer, _, rfl⟩ := logs
    cases List.mem_singleton.mp late
  | waited | report | noMessage =>
    obtain rfl : events = _ := logs
    cases List.mem_singleton.mp late
  | _ =>
    obtain rfl : events = [] := logs
    cases late

/-- An operation that fits answers the same in both runs, and leaves them related. -/
theorem exec_related {o : Op} {input input' : Input} {reply : o.Reply} {after : Client}
    (related : Related memory memory' client client') (fits : o.Fits client client') (alike : input.Alike input')
    (executed : exec thread o input client = some (reply, after)) :
    ∃ after', exec thread o input' client' = some (reply, after') ∧ Related memory memory' after after' ∧
      Settled (client, client') (after, after') := by
  have reads (object : Ptr) : o ≠ .member object := by
    rintro rfl
    exact fits
  have direction : o ≠ .dir := by
    rintro rfl
    exact fits
  obtain ⟨executed', writes⟩ := exec_holding client'.sftp reads executed
  have agrees (object : Ptr) (member : Unset) (agree : member.Agree (client.sftp object) (client'.sftp object)) :
      member.Agree (after.sftp object) (o.writes client'.sftp object) := by
    rw [writes]
    exact writes_keeps (fun first second => member.Agree first second) (fun assigned => agree.apply assigned) agree
  have constructed (object : Ptr) (before : Constructed object client.log) : Constructed object after.log := by
    obtain ⟨events, log, _⟩ := exec_log executed
    rw [log]
    exact constructed_grows before
  have begun (object : Ptr) (now : Constructed object after.log) (busy : (client.sftp object).readThreadState = .open_ ∨
      (client.sftp object).readThreadCommand = .read) : Constructed object client.log := by
    rcases exec_constructed executed now with before | rfl
    · exact before
    · rcases fits with before | ⟨state, command⟩
      · exact before
      · simp [state, command] at busy
  refine ⟨{ after with sftp := o.writes client'.sftp }, ?_, ⟨rfl, ?_, ?_, ?_, ?_, ?_⟩, agrees, constructed⟩
  · rw [exec_alike direction alike, related.rest]
    exact executed'
  · intro object
    rw [writes]
    exact writes_keeps Sftp.Alike (fun assigned => (related.alike object).apply assigned) (related.alike object)
  · exact fun object member same => agrees object member (related.agree object member same)
  · intro object now open_
    have wired : Wired (client.sftp object) (client'.sftp object) := by
      rw [writes] at open_
      by_cases assigns : ∃ assigned, o = .assign object assigned
      · obtain ⟨assigned, rfl⟩ := assigns
        rw [Op.writes, Function.update_self] at open_
        cases assigned with
        | readThreadState => exact fits
        | initializers => cases open_
        | _ => exact related.opened object (begun object now (.inl open_)) open_
      · rw [writes_other fun assigned same => assigns ⟨assigned, same⟩] at open_
        exact related.opened object (begun object now (.inl open_)) open_
    exact fun member set => agrees object member (wired member set)
  · intro object now read
    rw [writes] at read
    by_cases assigns : ∃ assigned, o = .assign object assigned
    · obtain ⟨assigned, rfl⟩ := assigns
      rw [Op.writes, Function.update_self] at read
      cases assigned with
      | initializers => cases read
      | _ => exact related.commanded object (begun object now (.inr read)) read
    · rw [writes_other fun assigned same => assigns ⟨assigned, same⟩] at read
      exact related.commanded object (begun object now (.inr read)) read
  · intro object connected
    obtain ⟨begun, wired⟩ := related.connected object (exec_connected executed connected)
    exact ⟨constructed object begun, fun member set => agrees object member (wired member set)⟩

theorem Related.goes {after : Client} {event : Event} (related : Related memory memory' client client')
    (sftp : after.sftp = client.sftp) (log : after.log = client.log ++ [event])
    (begins : ∀ actor object answer, event ≠ .library actor object .init answer)
    (returns : ∀ actor object, event = .returned actor (.connected object) →
      Constructed object client.log ∧ Wired (client.sftp object) (client'.sftp object)) :
    (memories memory memory' build).Moves client client' after { after with sftp := client'.sftp } := by
  have before (object : Ptr) (now : Constructed object after.log) : Constructed object client.log := by
    rw [log] at now
    exact (constructed_concat.mp now).resolve_right fun ⟨actor, answer, same⟩ => begins actor object answer same
  have later (object : Ptr) (now : Constructed object client.log) : Constructed object after.log :=
    log ▸ constructed_grows now
  refine ⟨⟨rfl, ?_, ?_, ?_, ?_, ?_⟩, fun object member agree => ?_, later⟩
  · rw [sftp]
    exact related.alike
  · rw [sftp]
    exact related.agree
  · rw [sftp]
    exact fun object now => related.opened object (before object now)
  · rw [sftp]
    exact fun object now => related.commanded object (before object now)
  · rintro object ⟨actor, member⟩
    rw [log] at member
    rw [sftp]
    rcases List.mem_append.mp member with old | new
    · obtain ⟨begun, wired⟩ := related.connected object ⟨actor, old⟩
      exact ⟨later object begun, wired⟩
    · obtain ⟨begun, wired⟩ := returns actor object (List.mem_singleton.mp new).symm
      exact ⟨later object begun, wired⟩
  · rw [sftp]
    exact agree

theorem Related.record {event : Event} (related : Related memory memory' client client')
    (begins : ∀ actor object answer, event ≠ .library actor object .init answer)
    (returns : ∀ actor object, event ≠ .returned actor (.connected object)) :
    (memories memory memory' build).Moves client client' (client.record event) (client'.record event) := by
  have goes := @Related.goes _ _ build _ _ (client.record event) event related rfl rfl begins
    fun actor object same => (returns actor object same).elim
  rwa [show { client.record event with sftp := client'.sftp } = client'.record event by rw [related.rest]; rfl] at goes

theorem Related.spawned {child : ThreadId} {entry : Entry} (related : Related memory memory' client client') :
    (memories memory memory' build).Moves client client' (spawned thread child entry client)
      (spawned thread child entry client') := by
  have goes := @Related.goes _ _ build _ _ (Transfer.spawned thread child entry client)
    (.spawned thread child entry) related rfl rfl
    nofun nofun
  rwa [show { Transfer.spawned thread child entry client with sftp := client'.sftp } =
    Transfer.spawned thread child entry client' by rw [related.rest]; rfl] at goes

theorem Related.command {this : Ptr} {command : ReadThreadCommand} (related : Related memory memory' client client')
    (read : command = .read → Unset.recvBuffer.Agree (memory this) (memory' this)) :
    (memories memory memory' build).Moves client client' (client.update this ({ · with readThreadCommand := command }))
      (client'.update this ({ · with readThreadCommand := command })) := by
  have agrees (object : Ptr) (member : Unset) (agree : member.Agree (client.sftp object) (client'.sftp object)) :
      member.Agree ((client.update this ({ · with readThreadCommand := command })).sftp object)
        ((client'.update this ({ · with readThreadCommand := command })).sftp object) := by
    by_cases same : object = this
    · subst same
      simp only [Client.update, Function.update_self]
      cases member <;> exact agree
    · simpa only [Client.update, Function.update_of_ne same] using agree
  refine ⟨⟨?_, fun object => ?_, ?_, fun object begun => ?_, fun object begun => ?_, ?_⟩, agrees, fun _ => id⟩
  · simp only [Client.update]
    rw [related.rest]
  · obtain ⟨same, state, session⟩ := related.alike object
    by_cases mine : object = this
    · subst mine
      simp only [Client.update, Function.update_self]
      exact ⟨rfl, state, session⟩
    · simpa only [Client.update, Function.update_of_ne mine] using related.alike object
  · exact fun object member same => agrees object member (related.agree object member same)
  · intro open_
    refine fun member set => agrees object member (related.opened object begun ?_ member set)
    by_cases mine : object = this
    · subst mine
      simpa [Client.update] using open_
    · simpa only [Client.update, Function.update_of_ne mine] using open_
  · by_cases mine : object = this
    · subst mine
      simpa [Client.update] using read
    · simpa only [Client.update, Function.update_of_ne mine] using related.commanded object begun
  · intro object connected
    obtain ⟨begun, wired⟩ := related.connected object connected
    exact ⟨begun, fun member set => agrees object member (wired member set)⟩

end steps

end PowerBoot.Transfer
