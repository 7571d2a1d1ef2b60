import PowerBoot.Transfer.Authentication

/-! Who uses the session of an object. The constructor comes first and the read thread after it,
which goes on beside the methods of the object, but once the object is open nothing is left to
it but to end. -/

namespace PowerBoot.Transfer
open Coop Code

/-- The call that a thread is executing, after an event. -/
def Event.callAfter (thread : ThreadId) (call : Option Entry) : Event → Option Entry
  | .called actor entry => if actor = thread then some entry else call
  | .returned actor _ | .threw actor => if actor = thread then none else call
  | _ => call

def callOf (thread : ThreadId) (log : List Event) : Option Entry :=
  log.foldl (fun call event => event.callAfter thread call) none

def Entry.Serves (this : Ptr) : Entry → Prop
  | .operate object _ | .destroy object => object = this
  | _ => False

/-- The thread is inside a method of the object. -/
def Operating (this : Ptr) (thread : ThreadId) (log : List Event) : Prop :=
  ∃ entry, callOf thread log = some entry ∧ entry.Serves this

/-- The constructor has returned. -/
def Built (user : ThreadId) (this : Ptr) (log : List Event) : Prop :=
  ∃ past value rest, log = past ++ .returned user value :: rest ∧ callOf user past = some (.construct this)

/-- A thread constructs the object and connects it, both once, and calls its methods after
that. -/
def solely (build : Build) (user : ThreadId) (this : Ptr) : Choices (kernel build) where
  answers _ _ _ _ := True
  calls thread entry client := match entry with
    | .construct object => object = this ∧ thread = user ∧ ∀ actor entry, .called actor entry ∉ client.log
    | .connect object _ => object = this ∧ thread = user ∧ Built user this client.log ∧
      ∀ actor options, .called actor (.connect this options) ∉ client.log
    | .operate object _ | .destroy object => object = this ∧ thread = user ∧ Connected this client
    | .readThread .. => False
  moves _ _ := False

/-- The thread that calls the library. -/
def Event.caller : Event → Option ThreadId
  | .library thread .. => some thread
  | _ => none

/-- The thread begins, or it begins a call. -/
def Event.begins (thread : ThreadId) : Event → Prop
  | .called actor _ | .spawned _ actor _ => actor = thread
  | _ => False

/-- The thread executes `read_thread`: the one that has been created for it or, in the direct
build, the one that is inside `connect`. -/
def InReadThread (build : Build) (user : ThreadId) (this : Ptr) (thread : ThreadId) (log : List Event) : Prop :=
  match build with
  | .retro => ∃ options, .spawned user thread (.readThread this options) ∈ log
  | .direct _ => thread = user ∧ ∃ options, callOf user log = some (.connect this options)

/-- Whenever another thread called the library, this one has begun what it does since then. -/
def Sole (thread : ThreadId) (log : List Event) : Prop :=
  ∀ early event between other, log = early ++ event :: between → event.caller = some other → other ≠ thread →
    ∃ began ∈ between, began.begins thread

/-- Who calls the library: the constructor until it has returned, then `read_thread` until
`connect` has returned, and the methods after that. What a thread asks of the library in one
call, or as a read thread, is not interleaved with what another asks. -/
structure Exclusive (build : Build) (user : ThreadId) (this : Ptr) (past : List Event) (thread : ThreadId) : Prop where
  building : ¬ Built user this past → thread = user ∧ callOf user past = some (.construct this)
  connecting : Built user this past → (¬ ∃ caller, .returned caller (.connected this) ∈ past) →
    InReadThread build user this thread past
  connected : (∃ caller, .returned caller (.connected this) ∈ past) → thread = user ∧ Operating this user past
  sole : Sole thread past

/-- A call of the library that nobody else is in the way of. -/
def Exclusively (build : Build) (user : ThreadId) (this : Ptr) (past : List Event) (event : Event) : Prop :=
  ∀ thread, event.caller = some thread → Exclusive build user this past thread

/-- Between the states there are events alone. -/
def Silent (before after : Client) : Prop := after = { before with log := after.log }

/-- Between the states nobody calls the library. -/
def Uncalled (before after : Client) : Prop :=
  ∃ more, after.log = before.log ++ more ∧ ∀ event ∈ more, event.caller = none

structure Excluded (build : Build) (user : ThreadId) (this : Ptr) (client : Client) : Prop where
  exclusive : Throughout (Exclusively build user this) client.log
  connected : Connected this client → Built user this client.log ∧ (client.sftp this).readThreadState = .open_
  waits : Built user this client.log → (client.sftp this).readThreadCommand = .wait
  closed : owner this client.log = none → Built user this client.log →
    (client.sftp this).readThreadState = .uninitialized
  owned : ∀ thread, owner this client.log = some thread → Built user this client.log ∧
    ∃ actor options, .called actor (.connect this options) ∈ client.log

/-- What a thread owes the others: before the object is built all of it to the thread that
builds it, the state of the set-up to the thread that is responsible for that, and the library
to each of them and, after the set-up, to the thread that calls the methods. -/
structure Leaves (user : ThreadId) (this : Ptr) (thread : ThreadId) (before after : Client) : Prop where
  building : thread = user → ¬ Built user this before.log → (owner this after.log = owner this before.log ∧
    ¬ Built user this after.log ∧ after.sftp this = before.sftp this) ∧ Uncalled before after
  owns : owner this before.log = some thread → owner this after.log = some thread ∧
    (after.sftp this).readThreadState = (before.sftp this).readThreadState ∧
    ((before.sftp this).readThreadState = .uninitialized → Uncalled before after)
  serves : thread = user → Connected this before → Uncalled before after

/-- Once the object is open, a thread that is in none of its methods changes nothing. -/
structure Withdraws (build : Build) (user : ThreadId) (this : Ptr) (thread : ThreadId) (before after : Client) :
    Prop where
  excluded : Excluded build user this after
  silent : Built user this before.log → (before.sftp this).readThreadState = .open_ →
    ¬ Operating this thread before.log → Silent before after

/-- The thread is responsible for a set-up, which is not at its end, and has the library to itself. -/
structure Owns (this : Ptr) (thread : ThreadId) (client : Client) : Prop where
  owner : Transfer.owner this client.log = some thread
  state : (client.sftp this).readThreadState = .uninitialized
  sole : Sole thread client.log

/-- A thread that sets the object up. -/
structure Prepares (build : Build) (user : ThreadId) (this : Ptr) (thread : ThreadId) (client : Client) : Prop
    extends Owns this thread client where
  reads : InReadThread build user this thread client.log

/-- A thread that executes a method of the object, which is connected. -/
structure InMethod (user : ThreadId) (this : Ptr) (client : Client) : Prop where
  connected : Connected this client
  operating : Operating this user client.log
  sole : Sole user client.log

def exclusion (build : Build) (user : ThreadId) (this : Ptr) : Discipline build where
  choices := solely build user this
  invariant := Excluded build user this
  keeps := Leaves user this
  step := Withdraws build user this
  idle _ _ := True
  requires entry thread client := match entry with
    | .construct object => object = this ∧ thread = user ∧ callOf user client.log = some (.construct this) ∧
      owner this client.log = none ∧ ¬ Built user this client.log ∧ Sole user client.log
    | .connect object options => object = this ∧ thread = user ∧
      callOf user client.log = some (.connect this options) ∧ Owns this user client
    | .readThread object _ => object = this ∧ Prepares build user this thread client
    | .operate object _ | .destroy object => object = this ∧ thread = user ∧ InMethod user this client

variable {build : Build} {user thread : ThreadId} {this : Ptr} {before after client : Client} {log more : List Event}
  {event : Event}

@[simp] theorem callOf_concat : callOf thread (log ++ [event]) = event.callAfter thread (callOf thread log) := by
  simp [callOf]

/-- An event that neither begins nor ends a call that returns, and makes no thread responsible. -/
def Event.Plain : Event → Prop
  | .called .. | .spawned .. | .returned .. => False
  | _ => True

theorem Event.Plain.owns (plain : event.Plain) : event.owns this = none := by
  cases event <;> first | rfl | exact plain.elim

theorem callOf_others (others : ∀ event ∈ more, event.thread ≠ thread) :
    callOf thread (log ++ more) = callOf thread log := by
  induction more generalizing log with
  | nil => rw [List.append_nil]
  | cons event more ih =>
    rw [List.append_cons, ih fun found member => others found (List.mem_cons_of_mem _ member), callOf_concat]
    have other := others event (List.mem_cons_self ..)
    cases event <;> first | rfl | exact if_neg other

theorem Operating.grows (operating : Operating this thread before.log) (grows : Grows thread before after) :
    Operating this thread after.log := by
  obtain ⟨more, log, others⟩ := grows.log
  rwa [Operating, log, callOf_others others]

theorem built_concat : Built user this (log ++ [event]) ↔
    Built user this log ∨ (∃ value, event = .returned user value) ∧ callOf user log = some (.construct this) := by
  constructor
  · rintro ⟨past, value, rest, split, call⟩
    rcases List.eq_nil_or_concat rest with rfl | ⟨between, last, rfl⟩
    · obtain ⟨rfl, same⟩ := List.append_inj' split rfl
      exact Or.inr ⟨⟨value, List.singleton_inj.mp same⟩, call⟩
    · rw [List.concat_eq_append, ← List.cons_append, ← List.append_assoc] at split
      exact Or.inl ⟨past, value, between, (List.append_inj' split rfl).1, call⟩
  · rintro (⟨past, value, rest, rfl, call⟩ | ⟨⟨value, rfl⟩, call⟩)
    · exact ⟨past, value, rest ++ [event], by simp, call⟩
    · exact ⟨log, value, [], rfl, call⟩

theorem Built.append (built : Built user this log) : Built user this (log ++ more) := by
  obtain ⟨past, value, rest, rfl, call⟩ := built
  exact ⟨past, value, rest ++ more, by simp, call⟩

theorem Built.plain (built : Built user this (log ++ [event])) (plain : event.Plain) : Built user this log := by
  refine (built_concat.mp built).resolve_right fun ends => ?_
  obtain ⟨⟨value, rfl⟩, _⟩ := ends
  exact plain

theorem Event.begins_uncalled (begins : event.begins thread) : event.caller = none := by
  cases event <;> first | rfl | exact begins.elim

namespace Sole

theorem append (sole : Sole thread log) (own : ∀ event ∈ more, ∀ other, event.caller = some other → other = thread) :
    Sole thread (log ++ more) := by
  intro early event between other split calls different
  have outside : event ∉ more := fun member => different (own event member other calls)
  rcases List.append_eq_append_iff.mp split with ⟨late, _, found⟩ | ⟨late, found, rest⟩
  · exact (outside (found ▸ List.mem_append_right _ (List.mem_cons_self ..))).elim
  · cases late with
    | nil => exact (outside ((List.nil_append more ▸ rest) ▸ List.mem_cons_self ..)).elim
    | cons head tail =>
      obtain ⟨rfl, rfl⟩ := List.cons.inj rest
      obtain ⟨began, member, begins⟩ := sole early event tail other found calls different
      exact ⟨began, List.mem_append_left _ member, begins⟩

theorem begins (begins : event.begins thread) : Sole thread (log ++ [event]) := by
  intro early found between other split calls _
  rcases List.eq_nil_or_concat between with rfl | ⟨rest, last, rfl⟩
  · obtain ⟨_, same⟩ := List.append_inj' split rfl
    cases List.singleton_inj.mp same
    cases (Event.begins_uncalled begins).symm.trans calls
  · rw [List.concat_eq_append, ← List.cons_append, ← List.append_assoc] at split
    obtain ⟨_, same⟩ := List.append_inj' split rfl
    obtain rfl := List.singleton_inj.mp same
    exact ⟨event, by simp, begins⟩

theorem uncalled (sole : Sole thread before.log) (uncalled : Uncalled before after) : Sole thread after.log := by
  obtain ⟨more, log, none⟩ := uncalled
  rw [log]
  refine sole.append fun event member other calls => ?_
  cases (none event member).symm.trans calls

end Sole

namespace Uncalled

theorem refl (client : Client) : Uncalled client client := ⟨[], (List.append_nil _).symm, by simp⟩

theorem trans {first middle last : Client} (early : Uncalled first middle) (late : Uncalled middle last) :
    Uncalled first last := by
  obtain ⟨more, log, none⟩ := early
  obtain ⟨rest, grown, nothing⟩ := late
  refine ⟨more ++ rest, by rw [grown, log, List.append_assoc], fun event member => ?_⟩
  exact (List.mem_append.mp member).elim (none event) (nothing event)

theorem record (none : event.caller = none) : Uncalled client (client.record event) := by
  refine ⟨[event], rfl, fun found member => ?_⟩
  rw [List.mem_singleton.mp member, none]

end Uncalled

theorem Op.Logs.single {o : Op} {reply : o.Reply} {events : List Event} (logs : o.Logs thread reply events) :
    events = [] ∨ ∃ event, events = [event] ∧ event.Plain ∧ (∀ actor call, event.callAfter actor call = call) ∧
      ∀ actor, event.caller = some actor → actor = thread := by
  cases o with
  | library =>
    obtain ⟨answer, _, rfl⟩ := logs
    exact Or.inr ⟨_, rfl, trivial, fun _ _ => rfl, fun _ same => by cases same; rfl⟩
  | waited | report | noMessage =>
    cases (show events = _ from logs)
    exact Or.inr ⟨_, rfl, trivial, fun _ _ => rfl, fun _ same => by cases same⟩
  | _ => exact Or.inl logs

theorem exec_sftp {o : Op} {input : Input} {reply : o.Reply}
    (executed : exec thread o input before = some (reply, after))
    (kept : ∀ object assigned, o ≠ .assign object assigned) : after.sftp = before.sftp := by
  cases o with
  | library =>
    obtain ⟨_, _, _, _, rfl⟩ := exec_library.mp executed
    rfl
  | setRc | waited | report | noMessage =>
    cases executed
    rfl
  | assign object assigned => exact (kept object assigned rfl).elim
  | newThread => rw [(exec_newThread executed).2.2]
  | _ => rw [exec_steady executed trivial]

/-- An event that changes nothing of who uses the object. -/
structure Event.Mild (build : Build) (user : ThreadId) (this : Ptr) (log : List Event) (event : Event) : Prop where
  owns : event.owns this = none
  returns : ∀ caller, event ≠ .returned caller (.connected this)
  built : Built user this (log ++ [event]) → Built user this log
  exclusive : Exclusively build user this log event

theorem Event.Plain.mild (plain : event.Plain) (exclusive : Exclusively build user this log event) :
    event.Mild build user this log :=
  ⟨plain.owns, fun _ same => by subst same; exact plain, fun built => built.plain plain, exclusive⟩

/-- One event or none that leaves the state of the set-up and the command alone. -/
theorem Excluded.goesOn {events : List Event} (excluded : Excluded build user this before)
    (log : after.log = before.log ++ events)
    (mild : events = [] ∨ ∃ event, events = [event] ∧ event.Mild build user this before.log)
    (state : (after.sftp this).readThreadState = (before.sftp this).readThreadState)
    (command : (after.sftp this).readThreadCommand = (before.sftp this).readThreadCommand) :
    Excluded build user this after ∧ owner this after.log = owner this before.log ∧
      (Built user this after.log → Built user this before.log) := by
  rcases mild with rfl | ⟨event, rfl, mild⟩
  · rw [List.append_nil] at log
    obtain ⟨all, connected, waits, closed, owned⟩ := excluded
    exact ⟨⟨log ▸ all, by rwa [Connected, log, state], by rwa [log, command], by rwa [log, state], by rwa [log]⟩,
      by rw [log], by rw [log]; exact id⟩
  have same : owner this after.log = owner this before.log := by
    rw [log, owner_concat, mild.owns, Option.none_or]
  have built (now : Built user this after.log) : Built user this before.log := mild.built (log ▸ now)
  refine ⟨⟨log ▸ throughout_concat.mpr ⟨excluded.exclusive, mild.exclusive⟩, fun now => ?_, fun now => ?_,
    fun none now => ?_, fun actor owns => ?_⟩, same, built⟩
  · obtain ⟨caller, member⟩ := now
    rw [log] at member
    have earlier : Connected this before := by
      refine ⟨caller, (List.mem_append.mp member).resolve_right fun last => ?_⟩
      exact mild.returns caller (List.mem_singleton.mp last).symm
    exact ⟨log ▸ (excluded.connected earlier).1.append, state.trans (excluded.connected earlier).2⟩
  · exact command.trans (excluded.waits (built now))
  · exact state.trans (excluded.closed (same ▸ none) (built now))
  · obtain ⟨earlier, caller, options, member⟩ := excluded.owned actor (same ▸ owns)
    exact ⟨log ▸ earlier.append, caller, options, log ▸ List.mem_append_left _ member⟩

theorem Assign.Silent.command {assigned : Assign} (silent : assigned.Silent) (sftp : Sftp) :
    (assigned.apply sftp).readThreadCommand = sftp.readThreadCommand := by
  cases assigned with
  | initializers => cases silent { sftp with readThreadState := .open_ }
  | _ => rfl

theorem exec_silent {o : Op} {input : Input} {reply : o.Reply}
    (executed : exec thread o input before = some (reply, after))
    (silent : ∀ object assigned, o = .assign object assigned → assigned.Silent) :
    (after.sftp this).readThreadState = (before.sftp this).readThreadState ∧
      (after.sftp this).readThreadCommand = (before.sftp this).readThreadCommand := by
  by_cases assigns : ∃ object assigned, o = .assign object assigned
  · obtain ⟨object, assigned, rfl⟩ := assigns
    cases executed
    replace silent := silent object assigned rfl
    by_cases same : this = object
    · subst same
      rw [Client.update_same]
      exact ⟨silent _, silent.command _⟩
    · rw [Client.update_other same]
      exact ⟨rfl, rfl⟩
  · rw [exec_sftp executed fun object assigned same => assigns ⟨object, assigned, same⟩]
    exact ⟨rfl, rfl⟩

/-- The functions of an object but for its constructor and for the last step of a set-up. -/
def silently : Allowance signature where
  ops o := ∀ object assigned, o = .assign object assigned → assigned.Silent
  disposes _ := True
  throws := True
  exits := True

theorem Op.Minor.silent {o : Op} (minor : o.Minor) : silently.ops o := by
  rintro object assigned rfl
  exact minor.elim

/-- The thread is responsible for a set-up that is at its end. -/
def Responsible (this : Ptr) (thread : ThreadId) (client : Client) : Prop := owner this client.log = some thread

/-- A thread that executes the constructor, after the first step of it. -/
structure Builds (user : ThreadId) (this : Ptr) (client : Client) : Prop where
  call : callOf user client.log = some (.construct this)
  owner : Transfer.owner this client.log = none
  raw : ¬ Built user this client.log
  state : (client.sftp this).readThreadState = .uninitialized
  command : (client.sftp this).readThreadCommand = .wait
  sole : Sole user client.log

theorem Owns.waits (owns : Owns this thread before) (leaves : Leaves user this thread before after) :
    Owns this thread after := by
  obtain ⟨owner, state, uncalled⟩ := leaves.owns owns.owner
  exact ⟨owner, state.trans owns.state, owns.sole.uncalled (uncalled owns.state)⟩

theorem InReadThread.append (reads : InReadThread build user this thread log)
    (call : callOf thread (log ++ more) = callOf thread log) : InReadThread build user this thread (log ++ more) := by
  cases build with
  | retro =>
    obtain ⟨options, member⟩ := reads
    exact ⟨options, List.mem_append_left _ member⟩
  | direct =>
    obtain ⟨rfl, options, before⟩ := reads
    exact ⟨rfl, options, call.trans before⟩

theorem Prepares.waits (prepares : Prepares build user this thread before) (grows : Grows thread before after)
    (leaves : Leaves user this thread before after) : Prepares build user this thread after := by
  obtain ⟨more, log, others⟩ := grows.log
  exact ⟨prepares.toOwns.waits leaves, log ▸ prepares.reads.append (callOf_others others)⟩

theorem InMethod.waits (inside : InMethod user this before) (grows : Grows user before after)
    (leaves : Leaves user this user before after) : InMethod user this after :=
  ⟨inside.connected.grows grows, inside.operating.grows grows,
    inside.sole.uncalled (leaves.serves rfl inside.connected)⟩

theorem exclusion_regular : (exclusion build user this).Regular where
  refl _ client := ⟨fun _ raw => ⟨⟨rfl, raw, rfl⟩, .refl client⟩, fun owns => ⟨owns, rfl, fun _ => .refl client⟩,
    fun _ _ => .refl client⟩
  trans {thread first middle last} early late := by
    refine ⟨fun same raw => ?_, fun owns => ?_, fun same connected => ?_⟩
    · obtain ⟨⟨owner, raw, members⟩, uncalled⟩ := early.building same raw
      obtain ⟨⟨later, raw, same⟩, silent⟩ := late.building same raw
      exact ⟨⟨later.trans owner, raw, same.trans members⟩, uncalled.trans silent⟩
    · obtain ⟨first, state, uncalled⟩ := early.owns owns
      obtain ⟨second, same, silent⟩ := late.owns first
      exact ⟨second, same.trans state, fun closed => (uncalled closed).trans (silent (state.trans closed))⟩
    · have uncalled := early.serves same connected
      obtain ⟨more, log, _⟩ := uncalled
      obtain ⟨caller, member⟩ := connected
      exact (early.serves same ⟨caller, member⟩).trans (late.serves same ⟨caller, log ▸ List.mem_append_left _ member⟩)
  fresh _ _ := trivial
  idles _ _ _ := trivial
  readies {entry thread before after} grows keeps ready := by
    cases entry with
    | construct object =>
      obtain ⟨rfl, rfl, call, none, raw, sole⟩ := ready
      obtain ⟨more, log, others⟩ := grows.log
      obtain ⟨⟨same, raw, _⟩, uncalled⟩ := keeps.building rfl raw
      exact ⟨rfl, rfl, by rw [log, callOf_others others, call], same.trans none, raw, sole.uncalled uncalled⟩
    | connect =>
      obtain ⟨rfl, rfl, call, owns⟩ := ready
      obtain ⟨more, log, others⟩ := grows.log
      exact ⟨rfl, rfl, by rw [log, callOf_others others, call], owns.waits keeps⟩
    | readThread => exact ⟨ready.1, ready.2.waits grows keeps⟩
    | operate | destroy =>
      obtain ⟨rfl, rfl, inside⟩ := ready
      exact ⟨rfl, rfl, inside.waits grows keeps⟩

/-- After the constructor, a thread that keeps the state of the set-up and who is responsible
for it, and that does not call the library, owes the others no more. -/
theorem Leaves.of (built : Built user this before.log) (owner : owner this after.log = owner this before.log)
    (state : (after.sftp this).readThreadState = (before.sftp this).readThreadState) (uncalled : Uncalled before after)
    (other : ThreadId) : Leaves user this other before after :=
  ⟨fun _ raw => (raw built).elim, fun owns => ⟨owner.trans owns, state, fun _ => uncalled⟩, fun _ _ => uncalled⟩

theorem Owns.closed (excluded : Excluded build user this client) (owns : Owns this thread client) :
    ¬ Connected this client := by
  intro connected
  cases (excluded.connected connected).2.symm.trans owns.state

/-- The thread that is responsible for the set-up owes the others nothing. -/
theorem Owns.leaves (excluded : Excluded build user this before) (owns : Owns this thread before) {other : ThreadId}
    (different : other ≠ thread) : Leaves user this other before after where
  building _ raw := (raw (excluded.owned thread owns.owner).1).elim
  owns others := by
    cases owns.owner.symm.trans others
    exact (different rfl).elim
  serves _ connected := (owns.closed excluded connected).elim

/-- Nor does the thread that executes the constructor. -/
theorem Builds.leaves (builds : Builds user this before)
    {other : ThreadId} (different : other ≠ user) : Leaves user this other before after where
  building same := (different same).elim
  owns others := by cases builds.owner.symm.trans others
  serves same := (different same).elim

theorem Prepares.exclusive (excluded : Excluded build user this client)
    (prepares : Prepares build user this thread client) : Exclusive build user this client.log thread :=
  ⟨fun raw => (raw (excluded.owned thread prepares.owner).1).elim, fun _ _ => prepares.reads,
    fun connected => (prepares.closed excluded connected).elim, prepares.sole⟩

theorem Builds.exclusive (excluded : Excluded build user this client) (builds : Builds user this client) :
    Exclusive build user this client.log user :=
  ⟨fun _ => ⟨rfl, builds.call⟩, fun built => (builds.raw built).elim,
    fun connected => (builds.raw (excluded.connected connected).1).elim, builds.sole⟩

theorem InMethod.exclusive (excluded : Excluded build user this client) (inside : InMethod user this client) :
    Exclusive build user this client.log user :=
  ⟨fun raw => (raw (excluded.connected inside.connected).1).elim, fun _ open_ => (open_ inside.connected).elim,
    fun _ => ⟨rfl, inside.operating⟩, inside.sole⟩

/-- The errors of a thread, and the events by which it leaves its code without a result. -/
def Event.Abandons (thread : ThreadId) (event : Event) : Prop :=
  event = .threw thread ∨ event = .exited thread ∨ (∃ other, event = .disposed thread other) ∨
    ∃ format arguments, event = .reported thread format arguments

theorem Event.Abandons.plain (abandons : event.Abandons thread) : event.Plain ∧ event.thread = thread ∧
    event.caller = none := by
  rcases abandons with rfl | rfl | ⟨other, rfl⟩ | ⟨format, arguments, rfl⟩ <;> exact ⟨trivial, rfl, rfl⟩

theorem Excluded.abandons (excluded : Excluded build user this client) (abandons : event.Abandons thread) :
    Excluded build user this (client.record event) ∧ owner this (client.record event).log = owner this client.log ∧
      (Built user this (client.record event).log → Built user this client.log) := by
  obtain ⟨plain, _, none⟩ := abandons.plain
  refine excluded.goesOn rfl (.inr ⟨event, rfl, plain.mild fun actor calls => ?_⟩) rfl rfl
  cases none.symm.trans calls

theorem Excluded.ends (excluded : Excluded build user this client) (built : Built user this client.log)
    (abandons : event.Abandons thread) :
    (exclusion build user this).rules.Ends thread client (client.record event) := by
  obtain ⟨kept, owner, _⟩ := excluded.abandons abandons
  obtain ⟨_, own, none⟩ := abandons.plain
  exact Discipline.ends_record own kept fun other _ => Leaves.of built owner rfl (.record none) other

theorem Connected.earlier (connected : Connected this after) (log : after.log = before.log ++ [event])
    (other : ∀ caller, event ≠ .returned caller (.connected this)) : Connected this before := by
  obtain ⟨caller, member⟩ := connected
  refine ⟨caller, (List.mem_append.mp (log ▸ member)).resolve_right fun now => ?_⟩
  exact other caller (List.mem_singleton.mp now).symm

section bears
variable {start now : Client}

/-- What an operation of `silently` does, where its call is one that may be made. -/
theorem exec_excluded {o : Op} {input : Input} {reply : o.Reply} (may : silently.ops o)
    (executed : exec thread o input before = some (reply, after)) (excluded : Excluded build user this before)
    (made : Exclusive build user this before.log thread) :
    (Excluded build user this after ∧ owner this after.log = owner this before.log ∧
      (Built user this after.log → Built user this before.log)) ∧
    callOf thread after.log = callOf thread before.log ∧ Sole thread after.log ∧
      (after.sftp this).readThreadState = (before.sftp this).readThreadState ∧
      (after.sftp this).readThreadCommand = (before.sftp this).readThreadCommand := by
  obtain ⟨events, log, logs⟩ := exec_log executed
  obtain ⟨state, command⟩ := @exec_silent thread this before after o input reply executed may
  have single := logs.single
  refine ⟨excluded.goesOn log (single.imp_right fun found => ?_) state command, ?_, ?_, state, command⟩
  · obtain ⟨event, rfl, plain, _, own⟩ := found
    exact ⟨event, rfl, plain.mild fun actor calls => own actor calls ▸ made⟩
  · rw [log]
    rcases single with rfl | ⟨found, rfl, _, same, _⟩
    · rw [List.append_nil]
    · rw [callOf_concat, same]
  · rw [log]
    refine made.sole.append fun event member other calls => ?_
    rcases single with rfl | ⟨found, rfl, _, _, own⟩
    · exact (List.not_mem_nil member).elim
    · exact own other (List.mem_singleton.mp member ▸ calls)

theorem preparing_bears :
    (exclusion build user this).rules.Bears thread silently (Prepares build user this thread) where
  op o input now reply after may _ executed kept prepares := by
    obtain ⟨⟨excluded, owner, _⟩, call, sole, state, _⟩ := exec_excluded may executed kept (prepares.exclusive kept)
    refine ⟨⟨excluded, fun _ open_ => ?_⟩, ?_, ⟨⟨owner.trans prepares.owner, state.trans prepares.state, sole⟩, ?_⟩,
      trivial⟩
    · cases prepares.state.symm.trans open_
    · exact Discipline.ends_op executed excluded fun other different => prepares.leaves kept different
    · obtain ⟨events, log, _⟩ := exec_log executed
      rw [log] at call ⊢
      exact prepares.reads.append call
  waits _ _ _ moved _ prepares := prepares.waits moved.1 moved.2
  threw _ now kept prepares := ⟨kept.ends (kept.owned thread prepares.owner).1 (.inl rfl), trivial⟩
  exited _ now kept prepares := kept.ends (kept.owned thread prepares.owner).1 (.inr (.inl rfl))
  spawned _ _ _ never := never.elim
  disposed other now _ kept prepares := by
    have abandons : (Event.disposed thread other).Abandons thread := .inr (.inr (.inl ⟨other, rfl⟩))
    obtain ⟨excluded, owner, _⟩ := kept.abandons abandons
    refine ⟨⟨excluded, fun _ _ _ => rfl⟩, kept.ends (kept.owned thread prepares.owner).1 abandons, fun _ => ?_⟩
    exact ⟨⟨owner.trans prepares.owner, prepares.state, prepares.sole.uncalled (.record rfl)⟩,
      prepares.reads.append callOf_concat⟩

theorem serving_bears : (exclusion build user this).rules.Bears user silently (InMethod user this) where
  op o input now reply after may _ executed kept serves := by
    obtain ⟨⟨excluded, owner, _⟩, call, sole, state, _⟩ := exec_excluded may executed kept (serves.exclusive kept)
    obtain ⟨built, open_⟩ := kept.connected serves.connected
    refine ⟨⟨excluded, fun _ _ never => (never serves.operating).elim⟩, ?_, ⟨?_, ?_, sole⟩, trivial⟩
    · refine Discipline.ends_op executed excluded fun other different =>
        ⟨fun _ raw => (raw built).elim, fun owns => ⟨owner.trans owns, state, fun closed => ?_⟩,
          fun same => (different same).elim⟩
      cases open_.symm.trans closed
    · obtain ⟨events, log, _⟩ := exec_log executed
      obtain ⟨caller, member⟩ := serves.connected
      exact ⟨caller, log ▸ List.mem_append_left _ member⟩
    · rw [Operating, call]
      exact serves.operating
  waits _ _ _ moved _ serves := serves.waits moved.1 moved.2
  threw _ now kept serves := ⟨kept.ends (kept.connected serves.connected).1 (.inl rfl), trivial⟩
  exited _ now kept serves := kept.ends (kept.connected serves.connected).1 (.inr (.inl rfl))
  spawned _ _ _ never := never.elim
  disposed other now _ kept serves := by
    have abandons : (Event.disposed user other).Abandons user := .inr (.inr (.inl ⟨other, rfl⟩))
    refine ⟨⟨(kept.abandons abandons).1, fun _ _ never => (never serves.operating).elim⟩,
      kept.ends (kept.connected serves.connected).1 abandons, fun _ => ⟨?_, ?_, serves.sole.uncalled (.record rfl)⟩⟩
    · obtain ⟨caller, member⟩ := serves.connected
      exact ⟨caller, List.mem_append_left _ member⟩
    · obtain ⟨entry, call, method⟩ := serves.operating
      exact ⟨entry, callOf_concat.trans call, method⟩

theorem building_bears : (exclusion build user this).rules.Bears user silently (Builds user this) where
  op o input now reply after may _ executed kept builds := by
    obtain ⟨⟨excluded, owner, raw⟩, call, sole, state, command⟩ := exec_excluded may executed kept
      (builds.exclusive kept)
    refine ⟨⟨excluded, fun built => (builds.raw built).elim⟩, ?_, ?_, trivial⟩
    · exact Discipline.ends_op executed excluded fun other different => builds.leaves different
    · exact ⟨call.trans builds.call, owner.trans builds.owner, fun built => builds.raw (raw built),
        state.trans builds.state, command.trans builds.command, sole⟩
  waits before after _ moved _ builds := by
    obtain ⟨more, log, others⟩ := moved.1.log
    obtain ⟨⟨owner, raw, members⟩, uncalled⟩ := moved.2.building rfl builds.raw
    exact ⟨by rw [log, callOf_others others, builds.call], owner.trans builds.owner, raw, members ▸ builds.state,
      members ▸ builds.command, builds.sole.uncalled uncalled⟩
  threw _ now kept builds := by
    obtain ⟨excluded, _, _⟩ := kept.abandons (.inl rfl)
    exact ⟨Discipline.ends_record rfl excluded fun other different => builds.leaves different, trivial⟩
  exited _ now kept builds := by
    obtain ⟨excluded, _, _⟩ := kept.abandons (.inr (.inl rfl))
    exact Discipline.ends_record rfl excluded fun other different => builds.leaves different
  spawned _ _ _ never := never.elim
  disposed other now _ kept builds := by
    obtain ⟨excluded, owner, raw⟩ := kept.abandons (.inr (.inr (.inl ⟨other, rfl⟩)))
    refine ⟨⟨excluded, fun _ _ _ => rfl⟩, ?_, fun _ => ?_⟩
    · exact Discipline.ends_record rfl excluded fun other different => builds.leaves different
    · exact ⟨callOf_concat.trans builds.call, owner.trans builds.owner, fun built => builds.raw (raw built),
        builds.state, builds.command, builds.sole.uncalled (.record rfl)⟩

/-- The end of the read thread. -/
def closing : Allowance signature where
  ops o := o.Steady ∨ ∃ format arguments, o = .report format arguments
  disposes _ := True
  exits := True

theorem closing_bears : (exclusion build user this).rules.Bears thread closing (Responsible this thread) where
  op o input now reply after may _ executed kept owns := by
    have built := (kept.owned thread owns).1
    rcases may with steady | ⟨format, arguments, rfl⟩
    · obtain rfl := exec_steady executed steady
      exact ⟨⟨kept, fun _ _ _ => rfl⟩, .refl exclusion_regular.orderly kept, owns, trivial⟩
    · cases executed
      have abandons : (Event.reported thread format arguments).Abandons thread := .inr (.inr (.inr ⟨_, _, rfl⟩))
      obtain ⟨excluded, owner, _⟩ := kept.abandons abandons
      exact ⟨⟨excluded, fun _ _ _ => rfl⟩, kept.ends built abandons, owner.trans owns, trivial⟩
  waits _ _ _ moved _ owns := (moved.2.owns owns).1
  threw never := never.elim
  exited _ now kept owns := kept.ends (kept.owned thread owns).1 (.inr (.inl rfl))
  spawned _ _ _ never := never.elim
  disposed other now _ kept owns := by
    have abandons : (Event.disposed thread other).Abandons thread := .inr (.inr (.inl ⟨other, rfl⟩))
    obtain ⟨excluded, owner, _⟩ := kept.abandons abandons
    exact ⟨⟨excluded, fun _ _ _ => rfl⟩, kept.ends (kept.owned thread owns).1 abandons, fun _ => owner.trans owns⟩

theorem silently_permits : Permits build this fun {_} code => code.Within silently :=
  permits_within (fun _ minor => minor.silent) (by simp [silently]) (by simp [silently]) trivial
    (fun _ _ _ => trivial) fun _ => trivial

theorem silently_methods : Methods build this fun {_} code => code.Within silently :=
  silently_permits.methods fun _ _ => perform_within (by simp [silently])

theorem silently_sets : SettingUp build this fun {_} code => code.Within silently :=
  settingUp_within (fun _ minor => minor.silent) (by simp [silently]) (by simp [silently]) trivial
    (by simp [silently]) (by simp [silently]) (fun _ _ _ => trivial) fun _ => trivial

theorem readErrorThrow_closing {format : String} {arguments : List String} :
    (readErrorThrow build format arguments).Within closing := by
  refine .op (.inr ⟨_, _, rfl⟩) fun _ _ => yieldToAnyThread_within.bind fun _ => leave_within (fun _ => ?_) fun _ =>
    trivial
  refine ⟨.inl trivial, fun name _ => ?_⟩
  cases name with
  | some name => exact ⟨trivial, trivial⟩
  | none => trivial

/-- Nothing tells the read thread to read, so an open object is the end of it. -/
theorem serve_responsible
    (works : (exclusion build user this).rules.Works thread (Responsible this thread) start now) :
    (exclusion build user this).rules.Holds thread (serve build this)
      (fun _ => (exclusion build user this).rules.Works thread (Responsible this thread)) start now := by
  refine ⟨fun _ => (exclusion build user this).rules.Works thread (Responsible this thread), works,
    fun _ start now works => ?_⟩
  have kept := works.ends.invariant
  have stepped : Withdraws build user this thread now now := ⟨kept, fun _ _ _ => rfl⟩
  refine @Discipline.holds_read _ _ _ _ _ _ (.member this) _ _ _ (fun _ => rfl) stepped ?_
  have command : (now.sftp this).readThreadCommand ≠ .read := by
    rw [kept.waits (kept.owned thread works.holds).1]
    simp
  simp only [command, false_and, if_false, pure_eq, bind_eq, pure_bind]
  exact closing_bears.holds exclusion_regular.orderly readErrorThrow_closing works

theorem setUp_prepares {options : ConnectionOptions}
    (works : (exclusion build user this).rules.Works thread (Prepares build user this thread) start now) :
    (exclusion build user this).rules.Holds thread (setUp build this options)
      (fun _ => (exclusion build user this).rules.Works thread (Responsible this thread)) start now := by
  let opens (code : Program Unit) : Prop := ∀ start now,
    (exclusion build user this).rules.Works thread (Prepares build user this thread) start now →
    (exclusion build user this).rules.Holds thread code
      (fun _ => (exclusion build user this).rules.Works thread (Responsible this thread)) start now
  refine @SettingUp.setUp build this _ options silently_sets opens ?_ ?_ start now works
  · intro α code rest within later start now works
    exact preparing_bears.plain exclusion_regular.orderly within works later
  · intro start now works input reply after _ executed
    cases executed
    have kept := works.ends.invariant
    have prepares := works.holds
    have excluded : Excluded build user this (now.update this (Assign.readThreadState .open_).apply) := by
      refine ⟨kept.exclusive, fun connected => (prepares.closed kept connected).elim, fun built => ?_,
        fun none => ?_, kept.owned⟩
      · rw [Client.update_same]
        exact kept.waits built
      · cases prepares.owner.symm.trans none
    refine ⟨⟨excluded, fun _ open_ => ?_⟩, works.step exclusion_regular.orderly ⟨excluded, fun other different =>
      ⟨⟨rfl, [], (List.append_nil _).symm, by simp⟩, prepares.leaves kept different⟩⟩ prepares.owner⟩
    cases prepares.state.symm.trans open_

theorem readThread_prepares {options : ConnectionOptions}
    (works : (exclusion build user this).rules.Works thread (Prepares build user this thread) start now) :
    (exclusion build user this).rules.Holds thread (readThread build this options)
      (fun _ => (exclusion build user this).rules.Works thread (Responsible this thread)) start now := by
  have kept := works.ends.invariant
  have stepped : Withdraws build user this thread now now := ⟨kept, fun _ _ _ => rfl⟩
  refine @Discipline.holds_read _ _ _ _ _ _ (.member this) _ _ _ (fun _ => rfl) stepped ?_
  split
  · exact works.mono works.holds.owner
  · exact ((setUp_prepares works).mono fun _ start now works => serve_responsible works).bind

/-- The object is built, and open. -/
def Opened (user : ThreadId) (this : Ptr) (client : Client) : Prop :=
  Built user this client.log ∧ (client.sftp this).readThreadState = .open_

theorem waiting_built (works : (exclusion build user this).rules.Works thread (Built user this ·.log) start now) :
    (exclusion build user this).rules.Holds thread
      (repeatWhile (do return (← perform (.member this)).readThreadState ≠ .open_) (yieldToAnyThread build))
      (fun _ => (exclusion build user this).rules.Works thread (Opened user this)) start now := by
  refine ⟨fun _ => (exclusion build user this).rules.Works thread (Built user this ·.log), works,
    fun _ start now works => ?_⟩
  have stepped : Withdraws build user this thread now now := ⟨works.ends.invariant, fun _ _ _ => rfl⟩
  refine @Discipline.holds_read _ _ _ _ _ _ (.member this) _ _ _ (fun _ => rfl) stepped ?_
  by_cases open_ : (now.sftp this).readThreadState = .open_
  · simp only [pure_eq, bind_eq, open_]
    exact works.mono ⟨works.holds, open_⟩
  · simp only [pure_eq, bind_eq, ne_eq, open_, not_false_eq_true, decide_true, if_true]
    refine Discipline.holds_yieldToAnyThread works exclusion_regular (fun before after _ grows _ built => ?_)
      fun start now works => works
    obtain ⟨more, log, _⟩ := grows.log
    exact log ▸ built.append

theorem connect_prepares {options : ConnectionOptions}
    (works : (exclusion build user this).rules.Works user (fun client =>
      callOf user client.log = some (.connect this options) ∧ Owns this user client) start now) :
    (exclusion build user this).rules.Holds user (connect build this options)
      (fun _ => (exclusion build user this).rules.Works user (Opened user this)) start now := by
  have kept := works.ends.invariant
  obtain ⟨call, owns⟩ := works.holds
  obtain ⟨built, called⟩ := kept.owned user owns.owner
  cases build with
  | direct =>
    refine ((readThread_prepares (works.mono ⟨owns, rfl, options, call⟩)).mono fun _ start now works => ?_).bind
    exact waiting_built (works.mono (works.ends.invariant.owned user works.holds).1)
  | retro =>
    intro input err after _ executed
    obtain ⟨_, _, rfl⟩ := exec_newThread executed
    let unread : Client := { now with readThreadId := none }
    have quiet : Excluded .retro user this unread :=
      ⟨kept.exclusive, kept.connected, kept.waits, kept.closed, kept.owned⟩
    have owns : Owns this user unread := ⟨owns.owner, owns.state, owns.sole⟩
    replace works : (exclusion .retro user this).rules.Works user (Built user this ·.log) start unread :=
      works.step exclusion_regular.orderly ⟨quiet, fun other different =>
        ⟨⟨rfl, [], (List.append_nil _).symm, by simp⟩, works.holds.2.leaves kept different⟩⟩ built
    refine ⟨⟨quiet, fun _ open_ => ?_⟩, ?_⟩
    · cases owns.state.symm.trans open_
    by_cases negative : err < 0
    · simp only [Code.pure_bind, if_pos negative]
      refine Discipline.holds_yieldToAnyThread works exclusion_regular (fun before later _ grows _ built => ?_)
        fun start now works => waiting_built works
      obtain ⟨more, log, _⟩ := grows.log
      exact log ▸ built.append
    · simp only [Code.pure_bind, if_neg negative]
      intro child other fresh
      have log : (spawned user child (.readThread this options) unread).log =
        unread.log ++ [.spawned user child (.readThread this options)] := rfl
      have owner : owner this (spawned user child (.readThread this options) unread).log = some child := by
        rw [log, owner_concat]
        simp [Event.owns]
      have excluded : Excluded .retro user this (spawned user child (.readThread this options) unread) := by
        refine ⟨throughout_concat.mpr ⟨quiet.exclusive, fun _ calls => by cases calls⟩, fun connected => ?_,
          fun _ => quiet.waits built, fun none => ?_, fun actor _ => ?_⟩
        · exact (owns.closed quiet (connected.earlier log (by simp))).elim
        · cases owner.symm.trans none
        · obtain ⟨caller, options, member⟩ := called
          exact ⟨log ▸ built.append, caller, options, log ▸ List.mem_append_left _ member⟩
      have prepares : Prepares .retro user this child (spawned user child (.readThread this options) unread) :=
        ⟨⟨owner, owns.state, .begins rfl⟩, options, log ▸ List.mem_append_right _ (List.mem_singleton_self _)⟩
      refine ⟨⟨excluded, fun _ open_ => ?_⟩, works.ends.trans exclusion_regular.orderly ⟨excluded,
        fun other different => ⟨⟨rfl, [_], rfl, ?_⟩, owns.leaves quiet different⟩⟩,
        ⟨rfl, prepares⟩, waiting_built (.begins exclusion_regular.orderly excluded (log ▸ built.append))⟩
      · cases owns.state.symm.trans open_
      · simpa [Event.thread] using Ne.symm different

end bears

theorem Built.called (built : Built user this log) : ∃ actor entry, .called actor entry ∈ log := by
  obtain ⟨past, value, rest, rfl, call⟩ := built
  suffices ∃ actor entry, Event.called actor entry ∈ past by
    obtain ⟨actor, entry, member⟩ := this
    exact ⟨actor, entry, List.mem_append_left _ member⟩
  clear value rest
  induction past using List.reverseRecOn with
  | nil => cases call
  | append_singleton past event ih =>
    rw [callOf_concat] at call
    cases event with
    | called actor entry => exact ⟨actor, entry, List.mem_append_right _ (List.mem_singleton_self _)⟩
    | returned actor value | threw actor =>
      simp only [Event.callAfter] at call
      split at call
      · cases call
      · obtain ⟨actor, entry, member⟩ := ih call
        exact ⟨actor, entry, List.mem_append_left _ member⟩
    | _ =>
      obtain ⟨actor, entry, member⟩ := ih call
      exact ⟨actor, entry, List.mem_append_left _ member⟩

/-- A call that is not the constructor's returns. -/
theorem Excluded.returned {value : Value} (excluded : Excluded build user this client)
    (built : Built user this client.log)
    (open_ : value = .connected this → (client.sftp this).readThreadState = .open_) :
    Excluded build user this (client.record (.returned thread value)) where
  exclusive := throughout_concat.mpr ⟨excluded.exclusive, fun _ calls => by cases calls⟩
  connected connected := by
    obtain ⟨caller, member⟩ := connected
    refine ⟨built.append, ?_⟩
    rcases List.mem_append.mp member with earlier | now
    · exact (excluded.connected ⟨caller, earlier⟩).2
    · cases List.mem_singleton.mp now
      exact open_ rfl
  waits _ := excluded.waits built
  closed none _ := excluded.closed ((owner_concat.trans (Option.none_or ..)).symm.trans none) built
  owned actor owns := by
    obtain ⟨_, caller, options, member⟩ := excluded.owned actor
      ((owner_concat.trans (Option.none_or ..)).symm.trans owns)
    exact ⟨built.append, caller, options, List.mem_append_left _ member⟩

/-- The constructor returns. -/
theorem Builds.returned (builds : Builds user this client) (excluded : Excluded build user this client) :
    Excluded build user this (client.record (.returned user .none)) where
  exclusive := throughout_concat.mpr ⟨excluded.exclusive, fun _ calls => by cases calls⟩
  connected connected := (builds.raw (excluded.connected (connected.earlier rfl (by simp))).1).elim
  waits _ := builds.command
  closed _ _ := builds.state
  owned actor owns := by
    cases builds.owner.symm.trans ((owner_concat.trans (Option.none_or ..)).symm.trans owns)

section called
variable {options : ConnectionOptions}

theorem Excluded.free (excluded : Excluded build user this client)
    (unconnected : ∀ actor options, .called actor (.connect this options) ∉ client.log) :
    owner this client.log = none := by
  cases owns : owner this client.log with
  | none => rfl
  | some thread =>
    obtain ⟨_, actor, options, member⟩ := excluded.owned thread owns
    exact (unconnected actor options member).elim

theorem Excluded.constructing (excluded : Excluded build user this client)
    (first : ∀ actor entry, .called actor entry ∉ client.log) :
    Excluded build user this (client.record (.called user (.construct this))) ∧
      (exclusion build user this).requires (.construct this) user (client.record (.called user (.construct this))) ∧
      ∀ other, other ≠ user → Leaves user this other client (client.record (.called user (.construct this))) := by
  have raw (built : Built user this client.log) : False := by
    obtain ⟨actor, entry, member⟩ := built.called
    exact first actor entry member
  have later (built : Built user this (client.log ++ [.called user (.construct this)])) : False := by
    refine (built_concat.mp built).elim raw fun ends => ?_
    obtain ⟨⟨value, same⟩, _⟩ := ends
    cases same
  have free := excluded.free fun actor options => first actor _
  have same : owner this (client.log ++ [.called user (.construct this)]) = none := owner_concat.trans free
  refine ⟨⟨throughout_concat.mpr ⟨excluded.exclusive, fun _ calls => by cases calls⟩, fun connected => ?_,
    fun built => (later built).elim, fun _ built => (later built).elim, fun thread owns => ?_⟩,
    ⟨rfl, rfl, by simp [Event.callAfter], same, later, .begins rfl⟩, fun other different =>
    ⟨fun same => (different same).elim, fun owns => ?_, fun same => (different same).elim⟩⟩
  · exact (raw (excluded.connected (connected.earlier rfl (by simp))).1).elim
  · cases same.symm.trans owns
  · cases free.symm.trans owns

theorem Excluded.connecting (excluded : Excluded build user this client) (built : Built user this client.log)
    (unconnected : ∀ actor options, .called actor (.connect this options) ∉ client.log) :
    Excluded build user this (client.record (.called user (.connect this options))) ∧
      (exclusion build user this).requires (.connect this options) user
        (client.record (.called user (.connect this options))) ∧
      ∀ other, other ≠ user → Leaves user this other client (client.record (.called user (.connect this options))) := by
  have free := excluded.free unconnected
  have owns : owner this (client.log ++ [.called user (.connect this options)]) = some user := by
    rw [owner_concat]
    simp [Event.owns]
  refine ⟨⟨throughout_concat.mpr ⟨excluded.exclusive, fun _ calls => by cases calls⟩, fun connected => ?_,
    fun _ => excluded.waits built, fun free => ?_, fun thread _ => ⟨built.append, user, options, ?_⟩⟩,
    ⟨rfl, rfl, by simp [Event.callAfter], owns, excluded.closed free built, .begins rfl⟩, fun other different =>
    ⟨fun _ raw => (raw built).elim, fun others => ?_, fun same => (different same).elim⟩⟩
  · exact ⟨built.append, (excluded.connected (connected.earlier rfl (by simp))).2⟩
  · cases owns.symm.trans free
  · exact List.mem_append_right _ (List.mem_singleton_self _)
  · cases free.symm.trans others

theorem Excluded.operating {entry : Entry} (excluded : Excluded build user this client)
    (connected : Connected this client)
    (serves : entry.Serves this) :
    Excluded build user this (client.record (.called user entry)) ∧
      (exclusion build user this).requires entry user (client.record (.called user entry)) ∧
      ∀ other, other ≠ user → Leaves user this other client (client.record (.called user entry)) := by
  have built := (excluded.connected connected).1
  have owns : (Event.called user entry).owns this = none := by
    cases entry <;> first | rfl | exact serves.elim
  have log : (client.record (.called user entry)).log = client.log ++ [.called user entry] := rfl
  obtain ⟨kept, owner, _⟩ := excluded.goesOn log
    (.inr ⟨_, rfl, owns, by simp, fun _ => built, fun _ calls => by cases calls⟩) rfl rfl
  obtain ⟨caller, member⟩ := connected
  have inside : InMethod user this (client.record (.called user entry)) :=
    ⟨⟨caller, List.mem_append_left _ member⟩, ⟨entry, by simp [Client.record, Event.callAfter], serves⟩, .begins rfl⟩
  refine ⟨kept, ?_, fun other _ => Leaves.of built owner rfl (.record rfl) other⟩
  cases entry with
  | operate | destroy => exact ⟨serves, rfl, inside⟩
  | _ => exact serves.elim

end called

theorem construct_builds {start now : Client} (call : callOf user now.log = some (.construct this))
    (free : owner this now.log = none) (raw : ¬ Built user this now.log) (sole : Sole user now.log)
    (ends : (exclusion build user this).rules.Ends user start now) :
    (exclusion build user this).rules.Holds user (construct build this)
      (fun _ => (exclusion build user this).rules.Works user (Builds user this)) start now := by
  have orderly := (@exclusion_regular build user this).orderly
  have kept := ends.invariant
  intro input reply after _ executed
  cases executed
  have excluded : Excluded build user this (now.update this Assign.initializers.apply) :=
    ⟨kept.exclusive, fun connected => (raw (kept.connected connected).1).elim, fun built => (raw built).elim,
      fun _ built => (raw built).elim, kept.owned⟩
  refine ⟨⟨excluded, fun built => (raw built).elim⟩, ?_⟩
  have works : (exclusion build user this).rules.Works user (Builds user this) start
      (now.update this Assign.initializers.apply) := by
    refine ⟨ends.trans orderly ⟨excluded, fun other different => ⟨⟨rfl, [], (List.append_nil _).symm, by simp⟩,
      fun same => (different same).elim, fun owns => ?_, fun same => (different same).elim⟩⟩, call, free, raw, ?_, ?_,
      sole⟩
    · cases free.symm.trans owns
    · rw [Client.update_same]
      rfl
    · rw [Client.update_same]
      rfl
  have permits := @silently_permits build this
  refine building_bears.holds orderly ?_ works
  have called (call : Call) : (library this call).Within silently := perform_within (by simp [silently])
  refine permits.bind (permits.pure ()) fun _ => permits.bind (called _) fun rc => ?_
  refine permits.bind (permits.blind _ trivial) fun _ => permits.bind (permits.when fun _ => permits.errorThrow _ _)
    fun _ => ?_
  refine permits.bind (called _) fun session => ?_
  refine permits.bind (perform_within ?_) fun _ => permits.bind (permits.when fun _ => ?_) fun _ =>
    called _
  · rintro object assigned same sftp
    cases same
    rfl
  · refine permits.bind (permits.blind _ trivial) fun rc => ?_
    exact permits.bind (permits.message (.inr permits.noMessage)) fun _ => permits.errorThrow _ _

/-- A call that returns ends after the constructor, and `connect` in the open state. -/
theorem exclusion_returns {value : Value} {start now : Client}
    (ends : (exclusion build user this).rules.Ends thread start now) (built : Built user this now.log)
    (open_ : value = .connected this → (now.sftp this).readThreadState = .open_) :
    (exclusion build user this).rules.Returns thread value start now := by
  have owner : owner this (now.record (.returned thread value)).log = owner this now.log :=
    owner_concat.trans (Option.none_or ..)
  have orderly := (@exclusion_regular build user this).orderly
  exact ⟨ends.trans orderly (Discipline.ends_record rfl (ends.invariant.returned built open_) fun other _ =>
    Leaves.of built owner rfl (.record rfl) other), trivial⟩

theorem exclusion_methods {α : Type} {part : Program α} {value : α → Value}
    (within : part.Within silently) (other : ∀ result, value result ≠ .connected this)
    (kept : Excluded build user this client) (inside : InMethod user this client) :
    (exclusion build user this).rules.Holds user (part.bind fun result => .pure (value result))
      ((exclusion build user this).rules.Returns user) client client := by
  have orderly := (@exclusion_regular build user this).orderly
  apply Rules.Holds.bind
  apply (serving_bears.holds orderly within (.begins orderly kept inside)).mono
  intro result start now works
  exact exclusion_returns works.ends (works.ends.invariant.connected works.holds.connected).1 fun same =>
    (other result same).elim

theorem exclusion_sound : (exclusion build user this).rules.Sound := by
  have orderly := (@exclusion_regular build user this).orderly
  refine exclusion_regular.sound ?_ ?_ ?_
  · intro actor entry client allowed kept _ outside
    cases entry with
    | readThread => exact allowed.elim
    | construct object =>
      obtain ⟨rfl, rfl, first⟩ := allowed
      exact kept.constructing first
    | connect object options =>
      obtain ⟨rfl, rfl, built, unconnected⟩ := allowed
      exact kept.connecting built unconnected
    | operate | destroy =>
      obtain ⟨rfl, rfl, connected⟩ := allowed
      exact kept.operating connected rfl
  · intro object command client never
    exact never.elim
  · intro entry actor client kept ready
    cases entry with
    | construct object =>
      obtain ⟨rfl, rfl, call, free, raw, sole⟩ := ready
      apply Rules.Holds.bind
      apply (construct_builds call free raw sole (.refl orderly kept)).mono
      intro value start now works
      exact ⟨works.ends.trans orderly (Discipline.ends_record rfl (works.holds.returned works.ends.invariant)
        fun other different => works.holds.leaves different), trivial⟩
    | connect object options =>
      obtain ⟨rfl, rfl, call, owns⟩ := ready
      apply Rules.Holds.bind
      apply (connect_prepares (.begins orderly kept ⟨call, owns⟩)).mono
      exact fun value start now works => exclusion_returns works.ends works.holds.1 fun _ => works.holds.2
    | readThread object options =>
      obtain ⟨rfl, prepares⟩ := ready
      apply Rules.Holds.bind
      apply (readThread_prepares (.begins orderly kept prepares)).mono
      intro value start now works
      exact exclusion_returns works.ends (works.ends.invariant.owned actor works.holds).1 fun same => by cases same
    | operate object operation =>
      obtain ⟨rfl, rfl, inside⟩ := ready
      obtain ⟨_, part, value, whole, within, other⟩ := silently_methods.parts operation
      rw [show body build (.operate object operation) = _ from whole]
      exact exclusion_methods within (fun result => other result object) kept inside
    | destroy object =>
      obtain ⟨rfl, rfl, inside⟩ := ready
      refine exclusion_methods ?_ (fun _ same => by cases same) kept inside
      exact silently_methods.destroy (perform_within (by simp [silently]))

theorem Excluded.first (empty : client.log = []) : Excluded build user this client where
  exclusive := empty ▸ .nil
  connected connected := by
    obtain ⟨caller, member⟩ := connected
    rw [empty] at member
    cases member
  waits built := by
    obtain ⟨_, _, member⟩ := built.called
    rw [empty] at member
    cases member
  closed _ built := by
    obtain ⟨_, _, member⟩ := built.called
    rw [empty] at member
    cases member
  owned thread owns := by
    rw [empty] at owns
    cases owns

theorem exclusion_safe {count : Nat} (starts : client.Starts count) :
    (exclusion build user this).rules.Safe (World.initial client count) :=
  @Discipline.starts_safe build (exclusion build user this) client count starts (.first starts.log) fun _ => trivial

theorem excluded_everywhere {count : Nat} (starts : client.Starts count) {world : World (kernel build)}
    (reached : (solely build user this).Reaches (World.initial client count) world) :
    Excluded build user this world.state :=
  exclusion_sound.everywhere (exclusion_safe starts) rfl (fun _ kept => kept) (fun _ _ _ stepped => stepped.excluded)
    reached

/-- In every run in which one thread constructs, connects and uses an object, the library is
called by the constructor, the read thread and the methods only, each with all of it to itself,
although the read thread goes on beside the methods. -/
theorem session_exclusive {count : Nat} (starts : client.Starts count) {world : World (kernel build)}
    (reached : (solely build user this).Reaches (World.initial client count) world) :
    Throughout (Exclusively build user this) world.state.log := (excluded_everywhere starts reached).exclusive

section runs

/-- Whether the constructor has returned on thread 0, looked up event by event. -/
def builtTest (log : List Event) : Bool :=
  (List.range log.length).any fun count => match log[count]?, callOf 0 (log.take count) with
    | some (.returned 0 _), some (.construct 0) => true
    | _, _ => false

theorem built_of_test (passed : builtTest log = true) : Built 0 0 log := by
  obtain ⟨count, within, found⟩ := List.any_eq_true.mp passed
  split at found
  next value at_ call =>
    obtain ⟨inside, same⟩ := List.getElem?_eq_some_iff.mp at_
    refine ⟨log.take count, value, log.drop (count + 1), ?_, call⟩
    rw [← same, List.getElem_cons_drop, List.take_append_drop]
  · cases found

/-- The calls of object 0, by thread 0, in an order that its runs allow. -/
def solelyTest (action : Action (kernel build)) (world : World (kernel build)) : Bool :=
  match action with
  | .call thread (.construct this) => this = 0 && thread = 0 && world.state.log.isEmpty
  | .call thread (.connect this _) => this = 0 && thread = 0 && builtTest world.state.log &&
    world.state.log.all fun event => match event with
      | .called _ (.connect ..) => false
      | _ => true
  | .call thread (.operate this _) => this = 0 && thread = 0 && world.state.log.any fun event => match event with
    | .returned _ (.connected 0) => true
    | _ => false
  | .call .. | .environment _ => false
  | _ => true

theorem solelyTest_allows (action : Action (kernel build)) (world : World (kernel build))
    (passed : solelyTest action world = true) : (solely build 0 0).Allows action world := by
  cases action with
  | call thread entry =>
    cases entry with
    | construct object =>
      obtain ⟨⟨rfl, rfl⟩, empty⟩ : (object = 0 ∧ thread = 0) ∧ world.state.log = [] := by
        simpa [solelyTest] using passed
      refine ⟨rfl, rfl, ?_⟩
      rw [empty]
      exact fun _ _ => List.not_mem_nil
    | connect object options =>
      simp only [solelyTest, Bool.and_eq_true, decide_eq_true_eq] at passed
      obtain ⟨⟨⟨rfl, rfl⟩, built⟩, first⟩ := passed
      refine ⟨rfl, rfl, built_of_test built, fun actor options member => ?_⟩
      cases List.all_eq_true.mp first _ member
    | operate object operation =>
      simp only [solelyTest, Bool.and_eq_true, decide_eq_true_eq] at passed
      obtain ⟨⟨rfl, rfl⟩, connected⟩ := passed
      obtain ⟨event, member, found⟩ := List.any_eq_true.mp connected
      split at found
      next caller => exact ⟨rfl, rfl, caller, member⟩
      · cases found
    | readThread | destroy => cases passed
  | «continue» => exact fun _ _ _ _ _ => trivial
  | resume => trivial
  | environment => cases passed

/-- The library answers the constructor, the set-up and one question for the attributes of a file. -/
def servable : Client := answering 0 ([⟨.init, (0 : Int), 0⟩, ⟨.sessionInit, some 9, 0⟩, ⟨.sessionSetBlocking, (), 0⟩,
  ⟨.sftpStat, (⟨0, {}⟩ : Filled Attributes), 0⟩] ++ (accepting.session 0).script)

/-- Object 0 is constructed, connected and asked for the attributes of a file. -/
def serves : List (Action (kernel .retro)) :=
  calling .retro 0 (.construct 0) (steps [7]) ++ connects ++ calling .retro 0 (.operate 0 (.stat [97]))
    (steps [5, 2, 6])

def served : World (kernel .retro) := (World.initial servable 1).after serves

theorem served_reached : (solely .retro 0 0).Reaches (World.initial servable 1) served := by
  exact .tested _ solelyTest_allows (by decide +kernel)

theorem session_exclusive_once : Throughout (Exclusively .retro 0 0) served.state.log ∧
    served.state.log.getLast? = some (.returned 0 (.attributes {})) :=
  ⟨@session_exclusive .retro 0 0 servable 1 ⟨rfl, Nat.zero_lt_one⟩ served served_reached, rfl⟩

end runs

end PowerBoot.Transfer
