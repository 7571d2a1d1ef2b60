import PowerBoot.Coop.Undisturbed
import PowerBoot.Transfer.Exclusion

/-! The methods of a connected object beside its read thread. Each call of a method, with
all that it asks of the library and what it ends with, is one that could be made alone. -/

namespace PowerBoot.Transfer
open Coop Code

/-- The events of one thread. -/
def own (thread : ThreadId) (log : List Event) : List Event := log.filter fun event => event.thread = thread

/-- The events that are the last of a call. -/
def Event.leaves : Event → Bool
  | .returned .. | .threw _ | .exited _ | .disposed .. => true
  | _ => false

/-- The code that a call has come to with such an event. -/
def Event.Leaving (rest : Program Value) : Event → Prop
  | .returned _ value => rest = .pure value
  | .threw _ => rest = .throw
  | .exited _ => rest = .exit
  | .disposed _ other => ∃ next, rest = .dispose other next
  | _ => False

/-- Nobody but the thread calls the library. -/
def Untouched (user : ThreadId) (log : List Event) : Prop :=
  ∀ event ∈ log, ∀ caller, event.caller = some caller → caller = user

/-- The event is the next one of a call that began in such a state. Since then nobody else has
called the library, and the thread has executed all up to here from that state on as it would
without anyone beside it. -/
def Lone (build : Build) (user : ThreadId) (entry : Entry) (began : Client → Prop) (past : List Event) (event : Event) :
    Prop :=
  ∃ (begun : Client) (rest : Program Value) (last : Client) (early more : List Event),
    past = early ++ .called user entry :: more ∧ Untouched user more ∧
    began begun ∧ begun.log = early ++ [.called user entry] ∧
    Runs (K := kernel build) user (body build entry) begun rest last ∧
    (event.leaves = true → event.Leaving rest ∧ last.log = begun.log ++ own user more) ∧
    (event.leaves = false → last.log = begun.log ++ own user (more ++ [event]))

def Undisturbed (build : Build) (user : ThreadId) (this : Ptr) (began : ThreadId → Entry → Client → Prop)
    (past : List Event) (event : Event) : Prop :=
  event.thread = user → ∀ entry, callOf user past = some entry → entry.Serves this →
    Lone build user entry (began user entry) past event

/-- The client is as the lone thread has left it, but for the events of the others, which have
not called the library. -/
structure Sees (user : ThreadId) (this : Ptr) (entry : Entry) (begun ghost now : Client) : Prop where
  silent : Silent ghost now
  log : ∃ more, now.log = begun.log ++ more ∧ ghost.log = begun.log ++ own user more ∧ Untouched user more
  call : callOf user now.log = some entry
  connected : Connected this now

/-- The thread has called a method of the object, and has done nothing since then. The others
have recorded events, but no call of the library. -/
structure Begins (user : ThreadId) (this : Ptr) (entry : Entry) (began : Client → Prop) (client : Client) : Prop where
  connected : Connected this client
  since : ∃ begun early, began begun ∧ begun.log = early ++ [.called user entry] ∧ Silent begun client ∧
    ∃ more, client.log = begun.log ++ more ∧ (∀ event ∈ more, event.thread ≠ user) ∧ ∀ event ∈ more, event.caller = none

/-- All calls are made by one thread, and those of the methods once the object is connected. -/
def Admitted (user : ThreadId) (this : Ptr) (past : List Event) (event : Event) : Prop :=
  ∀ thread entry, event = .called thread entry →
    thread = user ∧ (entry.Serves this → ∃ caller, .returned caller (.connected this) ∈ past)

structure Solitary (build : Build) (user : ThreadId) (this : Ptr) (began : ThreadId → Entry → Client → Prop)
    (client : Client) : Prop where
  undisturbed : Throughout (Undisturbed build user this began) client.log
  admitted : Throughout (Admitted user this) client.log
  main : client.mainThreadId = user

/-- What the others leave alone while the thread is in a method of the object. -/
structure StandsAside (user : ThreadId) (this : Ptr) (before after : Client) : Prop where
  silent : Silent before after
  connected : Connected this after
  operating : Operating this user after.log
  uncalled : Uncalled before after

def solitude (build : Build) (user : ThreadId) (this : Ptr) (began : ThreadId → Entry → Client → Prop) :
    Discipline build where
  choices := (((solely build user this).calling began).keeping (Withdraws build user this)).knowing
    (Excluded build user this)
  invariant := Solitary build user this began
  keeps thread before after := thread = user → Connected this before → Operating this user before.log →
    StandsAside user this before after
  step _ _ after := Solitary build user this began after
  idle thread client := callOf thread client.log = none
  requires entry thread client := match entry with
    | .readThread .. => thread ≠ user ∧ ¬ Operating this thread client.log
    | .construct _ | .connect .. => thread = user ∧ ¬ Operating this thread client.log
    | .operate object _ | .destroy object => object = this ∧ thread = user ∧ Begins user this entry (began user entry)
      client

variable {build : Build} {user thread : ThreadId} {this : Ptr} {entry : Entry}
  {began : ThreadId → Entry → Client → Prop} {before after client begun ghost : Client}
  {log more : List Event} {event : Event}

/-- What an operation does goes by no event of the past. -/
theorem exec_relog {o : Op} {input : Input} {reply : o.Reply}
    (executed : exec thread o input before = some (reply, after)) (log : List Event) :
    ∃ events, after.log = before.log ++ events ∧
      exec thread o input { before with log } = some (reply, { after with log := log ++ events }) := by
  cases o with
  | library =>
    obtain ⟨answer, script, answered, given, rfl⟩ := exec_library.mp executed
    exact ⟨_, rfl, exec_library.mpr ⟨answer, script, answered, given, rfl⟩⟩
  | waited | report | noMessage =>
    cases executed
    exact ⟨_, rfl, rfl⟩
  | assign | setRc | mainThreadId | readThreadId | member | rc | sessionLastErrno =>
    cases executed
    exact ⟨[], (List.append_nil _).symm, by rw [List.append_nil]; rfl⟩
  | dir | select =>
    cases input <;> cases executed
    exact ⟨[], (List.append_nil _).symm, by rw [List.append_nil]; rfl⟩
  | newThread =>
    cases input with
    | status err =>
      simp only [exec] at executed ⊢
      split at executed
      next holds =>
        cases executed
        exact ⟨[], by simp [holds]⟩
      · cases executed
    | _ => cases executed
  | memory =>
    cases input with
    | memory bytes =>
      simp only [exec] at executed ⊢
      split at executed
      next holds =>
        cases executed
        exact ⟨[], by simp [holds]⟩
      · cases executed
    | _ => cases executed

theorem own_append : own thread (log ++ more) = own thread log ++ own thread more := List.filter_append ..

theorem own_all (mine : ∀ event ∈ more, event.thread = thread) : own thread more = more :=
  List.filter_eq_self.mpr fun event member => decide_eq_true (mine event member)

theorem own_none (others : ∀ event ∈ more, event.thread ≠ thread) : own thread more = [] :=
  List.filter_eq_nil_iff.mpr fun event member => by simpa using others event member

theorem callOf_called {name : ThreadId} (call : callOf name log = some entry) : .called name entry ∈ log := by
  induction log using List.reverseRecOn with
  | nil => cases call
  | append_singleton log event ih =>
    rw [callOf_concat] at call
    cases event with
    | called actor found =>
      simp only [Event.callAfter] at call
      split at call
      next same =>
        cases call
        exact List.mem_append_right _ (by simp [same])
      · exact List.mem_append_left _ (ih call)
    | returned actor value | threw actor =>
      simp only [Event.callAfter] at call
      split at call
      · cases call
      · exact List.mem_append_left _ (ih call)
    | _ => exact List.mem_append_left _ (ih call)

theorem callOf_unknown (unknown : ¬ client.Knows thread) : callOf thread client.log = none := by
  cases call : callOf thread client.log with
  | none => rfl
  | some entry => exact (unknown (Or.inr ⟨_, callOf_called call, rfl⟩)).elim

theorem Silent.trans {first middle last : Client} (early : Silent first middle) (late : Silent middle last) :
    Silent first last := by
  rw [Silent, late, early]

theorem callOf_begun : callOf user (log ++ [.called user entry]) = some entry := by
  rw [callOf_concat]
  exact if_pos rfl

theorem Begins.operating {serving : Client → Prop} (begins : Begins user this entry serving client)
    (serves : entry.Serves this) : Operating this user client.log := by
  obtain ⟨begun, early, _, began, _, more, log, others, _⟩ := begins.since
  exact ⟨entry, by rw [log, began, callOf_others others, callOf_begun], serves⟩

theorem Begins.waits {serving : Client → Prop} (begins : Begins user this entry serving before)
    (serves : entry.Serves this) (grows : Grows user before after)
    (aside : Connected this before → Operating this user before.log → StandsAside user this before after) :
    Begins user this entry serving after := by
  obtain ⟨silent, connected, _, uncalled⟩ := aside begins.connected (begins.operating serves)
  obtain ⟨begun, early, marked, began, quiet, more, log, others, none⟩ := begins.since
  obtain ⟨later, grown, rest⟩ := grows.log
  obtain ⟨same, extended, nothing⟩ := uncalled
  obtain rfl := List.append_cancel_left (grown.symm.trans extended)
  refine ⟨connected, begun, early, marked, began, quiet.trans silent, more ++ later, by rw [grown, log,
    List.append_assoc], fun event member => ?_, fun event member => ?_⟩
  · exact (List.mem_append.mp member).elim (others event) (rest event)
  · exact (List.mem_append.mp member).elim (none event) (nothing event)

theorem solitude_regular : (solitude build user this began).Regular where
  refl _ client _ connected operating := ⟨rfl, connected, operating, .refl client⟩
  trans early late same connected operating := by
    obtain ⟨first, connected, operating, uncalled⟩ := early same connected operating
    obtain ⟨second, connected, operating, silent⟩ := late same connected operating
    exact ⟨first.trans second, connected, operating, uncalled.trans silent⟩
  fresh _ unknown := callOf_unknown unknown
  idles grows _ idle := by
    obtain ⟨more, log, others⟩ := grows.log
    exact (congrArg (callOf _) log).trans ((callOf_others others).trans idle)
  readies {entry thread before after} grows keeps ready := by
    have outside (ready : ¬ Operating this thread before.log) : ¬ Operating this thread after.log := by
      obtain ⟨more, log, others⟩ := grows.log
      rwa [Operating, log, callOf_others others]
    cases entry with
    | readThread | construct | connect => exact ⟨ready.1, outside ready.2⟩
    | operate object operation =>
      obtain ⟨rfl, rfl, begins⟩ := ready
      have serves : (Entry.operate object operation).Serves object := rfl
      exact ⟨rfl, rfl, begins.waits serves grows (keeps rfl)⟩
    | destroy object =>
      obtain ⟨rfl, rfl, begins⟩ := ready
      have serves : (Entry.destroy object).Serves object := rfl
      exact ⟨rfl, rfl, begins.waits serves grows (keeps rfl)⟩

theorem Operating.earlier {name : ThreadId} (operating : Operating this name (log ++ [event]))
    (other : ∀ actor entry, event ≠ .called actor entry) : Operating this name log := by
  obtain ⟨entry, call, serves⟩ := operating
  rw [callOf_concat] at call
  refine ⟨entry, ?_, serves⟩
  cases event with
  | called actor entry => exact (other actor entry rfl).elim
  | returned actor value | threw actor =>
    simp only [Event.callAfter] at call
    split at call
    · cases call
    · exact call
  | _ => exact call

theorem exec_callOf {o : Op} {input : Input} {reply : o.Reply} {name : ThreadId}
    (executed : exec thread o input before = some (reply, after)) : callOf name after.log = callOf name before.log := by
  obtain ⟨events, log, logs⟩ := exec_log executed
  rw [log]
  rcases logs.single with rfl | ⟨event, rfl, _, neutral, _⟩
  · rw [List.append_nil]
  · rw [callOf_concat, neutral]

theorem Op.Logs.stays {o : Op} {reply : o.Reply} {events : List Event} (logs : o.Logs thread reply events) :
    events = [] ∨ ∃ event, events = [event] ∧ event.thread = thread ∧ event.leaves = false := by
  cases o with
  | library =>
    obtain ⟨answer, _, rfl⟩ := logs
    exact Or.inr ⟨_, rfl, rfl, rfl⟩
  | waited | report | noMessage =>
    cases (show events = _ from logs)
    exact Or.inr ⟨_, rfl, rfl, rfl⟩
  | _ => exact Or.inl logs

theorem Undisturbed.outside (outside : ¬ Operating this thread log) (owner : event.thread = thread) :
    Undisturbed build user this began log event := by
  intro same entry call serves
  exact (outside ⟨entry, owner.symm.trans same ▸ call, serves⟩).elim

/-- What a thread may do that is in no method of the object. -/
def anything (user thread : ThreadId) : Allowance signature where
  ops _ := True
  entries entry := thread = user ∧ ∃ object options, entry = .readThread object options
  disposes _ := True
  throws := True
  exits := True

theorem Solitary.records (solitary : Solitary build user this began client)
    (undisturbed : Undisturbed build user this began client.log event)
    (other : ∀ actor entry, event ≠ .called actor entry) :
    Solitary build user this began (client.record event) where
  undisturbed := throughout_concat.mpr ⟨solitary.undisturbed, undisturbed⟩
  admitted := throughout_concat.mpr ⟨solitary.admitted, fun thread entry same => (other thread entry same).elim⟩
  main := solitary.main

theorem Solitary.does {o : Op} {input : Input} {reply : o.Reply} (solitary : Solitary build user this began before)
    (executed : exec thread o input before = some (reply, after))
    (undisturbed : Throughout (Undisturbed build user this began) after.log) :
    Solitary build user this began after where
  undisturbed := undisturbed
  admitted := by
    obtain ⟨events, log, logs⟩ := exec_log executed
    rcases logs.single with rfl | ⟨event, rfl, plain, _⟩
    · rw [log, List.append_nil]
      exact solitary.admitted
    · refine log ▸ throughout_concat.mpr ⟨solitary.admitted, fun thread entry same => ?_⟩
      subst same
      exact plain.elim
  main := (exec_mainThreadId executed).trans solitary.main

theorem keeps_silent {other : ThreadId} (silent : other = user → Silent before after)
    (uncalled : other = user → Uncalled before after) (grows : Grows other before after) :
    (solitude build user this began).keeps other before after := by
  rintro rfl connected operating
  exact ⟨silent rfl, connected.grows grows, operating.grows grows, uncalled rfl⟩

theorem Solitary.ends (solitary : Solitary build user this began client)
    (undisturbed : Undisturbed build user this began client.log event) (owner : event.thread = thread)
    (none : event.caller = none) (other : ∀ actor entry, event ≠ .called actor entry) :
    (solitude build user this began).rules.Ends thread client (client.record event) :=
  Discipline.ends_record owner (solitary.records undisturbed other) fun _ different =>
    keeps_silent (fun _ => rfl) (fun _ => .record none) (.record owner different)

theorem outside_bears : (solitude build user this began).rules.Bears thread (anything user thread)
    (fun client => ¬ Operating this thread client.log) where
  op o input now reply after _ answered executed kept outside := by
    obtain ⟨⟨_, steps⟩, excluded⟩ := answered
    have withdraws : Withdraws build user this thread now after := steps reply after executed
    obtain ⟨events, log, logs⟩ := exec_log executed
    have undisturbed : Throughout (Undisturbed build user this began) after.log := by
      rcases logs.stays with rfl | ⟨event, rfl, owner, _⟩
      · rw [log, List.append_nil]
        exact kept.undisturbed
      · exact log ▸ throughout_concat.mpr ⟨kept.undisturbed, .outside outside owner⟩
    refine ⟨kept.does executed undisturbed,
      Discipline.ends_op executed (kept.does executed undisturbed) fun other different => ?_, ?_, trivial⟩
    case refine_2 => rwa [Operating, exec_callOf executed]
    rintro rfl connected operating
    have grows := Grows.exec different executed
    obtain ⟨built, open_⟩ := excluded.connected connected
    refine ⟨withdraws.silent built open_ outside, connected.grows grows, operating.grows grows, events, log,
      fun event member => Option.eq_none_iff_forall_ne_some.mpr fun caller calls => ?_⟩
    rcases logs.single with rfl | ⟨found, rfl, _, _, own⟩
    · cases member
    · obtain rfl := List.mem_singleton.mp member
      obtain rfl := own caller calls
      have exclusive := withdraws.excluded.exclusive
      rw [log, throughout_concat] at exclusive
      exact different ((exclusive.2 caller calls).connected connected).1.symm
  waits before after _ moved _ outside := by
    obtain ⟨more, log, others⟩ := moved.1.log
    rwa [Operating, log, callOf_others others]
  threw _ now kept outside := by
    have idle : callOf thread (now.log ++ [.threw thread]) = none := by simp [Event.callAfter]
    exact ⟨kept.ends (.outside outside rfl) rfl rfl (by simp), idle⟩
  exited _ now kept outside := kept.ends (.outside outside rfl) rfl rfl (by simp)
  spawned child entry now may different fresh kept outside := by
    obtain ⟨rfl, object, options, rfl⟩ := may
    have undisturbed := throughout_concat.mpr
      ⟨kept.undisturbed, @Undisturbed.outside build thread thread this began now.log
      (.spawned thread child (.readThread object options)) outside rfl⟩
    have earlier (name : ThreadId)
        (operating : Operating this name (now.log ++ [.spawned thread child (.readThread object options)])) :
        Operating this name now.log := operating.earlier (by simp)
    have solitary : Solitary build thread this began (spawned thread child (.readThread object options) now) :=
      ⟨undisturbed, throughout_concat.mpr ⟨kept.admitted, by simp [Admitted]⟩, kept.main⟩
    refine ⟨solitary, ⟨solitary, fun other others => ⟨⟨rfl, [_], rfl, ?_⟩, ?_⟩⟩, ⟨different, fun operating => ?_⟩,
      fun operating => outside (earlier thread operating)⟩
    · simpa [Event.thread] using Ne.symm others
    · exact keeps_silent (fun same => (others same).elim) (fun same => (others same).elim)
        ⟨rfl, [_], rfl, by simpa [Event.thread] using Ne.symm others⟩
    · obtain ⟨entry, call, _⟩ := earlier child operating
      cases (callOf_unknown fresh).symm.trans call
  disposed other now _ kept outside := by
    refine ⟨kept.records (.outside outside rfl) (by simp), kept.ends (.outside outside rfl) rfl rfl (by simp), ?_⟩
    exact fun _ operating => outside (operating.earlier (by simp))

/-- What a method may do, which disposes of its own thread if of any. -/
def within (user : ThreadId) : Allowance signature where
  ops _ := True
  replies o reply := match o, reply with
    | .mainThreadId, main => main = user
    | _, _ => True
  disposes thread := thread = user
  throws := True
  exits := True

section methods
variable {early : List Event}

theorem Untouched.append (first : Untouched user log) (later : Untouched user more) : Untouched user (log ++ more) :=
  fun event member => (List.mem_append.mp member).elim (first event) (later event)

theorem Sees.lone {rest : Program Value} (sees : Sees user this entry begun ghost client)
    (runs : Runs (K := kernel build) user (body build entry) begun rest ghost) (marked : began user entry begun)
    (first : begun.log = early ++ [.called user entry]) (leaves : event.leaves = true) (leaving : event.Leaving rest) :
    Undisturbed build user this began client.log event := by
  intro _ found call _
  cases sees.call.symm.trans call
  obtain ⟨more, log, quiet, untouched⟩ := sees.log
  refine ⟨begun, rest, ghost, early, more, ?_, untouched, marked, first, runs, fun _ => ⟨leaving, quiet⟩,
    fun stays => ?_⟩
  · rw [log, first, List.append_assoc, List.singleton_append]
  · cases leaves.symm.trans stays

/-- What the thread does it does in the lone run too. -/
theorem Sees.does {o : Op} {input : Input} {reply : o.Reply} {events : List Event}
    (sees : Sees user this entry begun ghost before) (executed : exec user o input before = some (reply, after))
    (log : after.log = before.log ++ events) (logs : o.Logs user reply events) :
    Sees user this entry begun { after with log := ghost.log ++ events } after := by
  obtain ⟨more, loud, quiet, untouched⟩ := sees.log
  have mine : own user events = events := own_all fun event member => (logs.thread event member).1
  refine ⟨rfl, ⟨more ++ events, ?_, ?_, untouched.append fun event member caller calls => ?_⟩,
    (exec_callOf executed).trans sees.call, ?_⟩
  · rw [log, loud, List.append_assoc]
  · rw [own_append, mine, quiet, List.append_assoc]
  · rcases logs.single with rfl | ⟨found, rfl, _, _, own⟩
    · cases member
    · exact own caller (List.mem_singleton.mp member ▸ calls)
  · obtain ⟨caller, member⟩ := sees.connected
    exact ⟨caller, log ▸ List.mem_append_left _ member⟩

/-- What the others do in between is not seen. -/
theorem Sees.waits (sees : Sees user this entry begun ghost before) (grows : Grows user before after)
    (aside : StandsAside user this before after) : Sees user this entry begun ghost after := by
  obtain ⟨more, log, others⟩ := grows.log
  obtain ⟨same, grown, none⟩ := aside.uncalled
  obtain rfl := List.append_cancel_left (log.symm.trans grown)
  obtain ⟨earlier, loud, quiet, untouched⟩ := sees.log
  refine ⟨sees.silent.trans aside.silent, ⟨earlier ++ more, ?_, ?_,
    untouched.append fun event member caller calls => ?_⟩, ?_, aside.connected⟩
  · rw [log, loud, List.append_assoc]
  · rw [quiet, own_append, own_none others, List.append_nil]
  · cases (none event member).symm.trans calls
  · rw [log, callOf_others others, sees.call]

/-- The event of an operation is that of the lone run, which has come as far. -/
theorem Sees.notes {rest : Program Value} {last : Client} (sees : Sees user this entry begun ghost client)
    (marked : began user entry begun) (first : begun.log = early ++ [.called user entry])
    (runs : Runs (K := kernel build) user (body build entry) begun rest last)
    (later : last.log = begun.log ++ own user more) (log : begun.log ++ more = client.log ++ [event])
    (stays : event.leaves = false) : Undisturbed build user this began client.log event := by
  intro _ found call _
  cases sees.call.symm.trans call
  obtain ⟨past, loud, _, untouched⟩ := sees.log
  rw [loud, List.append_assoc] at log
  obtain rfl := List.append_cancel_left log
  refine ⟨begun, rest, last, early, past, ?_, untouched, marked, first, runs, fun leaves => ?_, fun _ => later⟩
  · rw [loud, first, List.append_assoc, List.singleton_append]
  · cases stays.symm.trans leaves

theorem method_undisturbed (marked : began user entry begun) (first : begun.log = early ++ [.called user entry])
    (serves : entry.Serves this) :
    (solitude build user this began).rules.Undisturbed user (within user) (Sees user this entry begun)
      (body build entry) begun where
  same o input now reply after ghost _ _ executed kept sees := by
    obtain ⟨events, log, alone⟩ := exec_relog executed ghost.log
    have ghostly : { now with log := ghost.log } = ghost := by rw [sees.silent]
    rw [ghostly] at alone
    obtain ⟨_, grown, logs⟩ := exec_log executed
    obtain rfl := List.append_cancel_left (log.symm.trans grown)
    refine ⟨?_, _, alone, sees.does executed log logs⟩
    cases o with
    | mainThreadId =>
      cases executed
      exact kept.main
    | _ => trivial
  op o input now reply after _ _ executed kept there then_ := by
    obtain ⟨_, ghost, runs, sees⟩ := there
    obtain ⟨rest, last, further, later⟩ := then_
    obtain ⟨events, log, logs⟩ := exec_log executed
    have undisturbed : Throughout (Undisturbed build user this began) after.log := by
      rcases logs.stays with rfl | ⟨event, rfl, _, stays⟩
      · rw [log, List.append_nil]
        exact kept.undisturbed
      · obtain ⟨all, whole, quiet, _⟩ := later.log
        rw [log]
        exact throughout_concat.mpr
          ⟨kept.undisturbed, sees.notes marked first further quiet (whole.symm.trans log) stays⟩
    have does := kept.does executed undisturbed
    exact ⟨does, Discipline.ends_op executed does fun other different =>
      keeps_silent (fun same => (different same).elim) (fun same => (different same).elim) (.exec different executed)⟩
  waits before after ghost _ moved _ sees :=
    sees.waits moved.1 (moved.2 rfl sees.connected ⟨entry, sees.call, serves⟩)
  threw _ now ghost kept runs sees := by
    have undisturbed : Undisturbed build user this began now.log (.threw user) := sees.lone runs marked first rfl rfl
    have idle : callOf user (now.log ++ [.threw user]) = none := by simp [Event.callAfter]
    exact ⟨kept.ends undisturbed rfl rfl (by simp), idle⟩
  exited _ now ghost kept runs sees := by
    exact kept.ends (sees.lone runs marked first rfl rfl) rfl rfl (by simp)
  spawns _ never := never
  disposed other next now ghost own kept runs sees := by
    obtain rfl := own
    have undisturbed : Undisturbed build other this began now.log (.disposed other other) :=
      sees.lone runs marked first rfl ⟨next, rfl⟩
    exact ⟨rfl, kept.records undisturbed (by simp), kept.ends undisturbed rfl rfl (by simp)⟩

end methods

theorem anything_permits : Permits build this fun {_} code => code.Within (anything user thread) :=
  permits_within (fun _ _ => trivial) (fun _ _ => trivial) trivial trivial (fun _ _ _ => trivial) fun _ => trivial

theorem anything_sets : SettingUp build this fun {_} code => code.Within (anything user thread) :=
  settingUp_within (fun _ _ => trivial) (fun _ _ => trivial) trivial trivial (fun _ => trivial) (fun _ _ => trivial)
    (fun _ _ _ => trivial) fun _ => trivial

theorem within_methods : Methods build this fun {_} code => code.Within (within user) :=
  (permits_within (fun _ _ => trivial) (fun _ _ => trivial) trivial trivial (fun _ _ same => same) fun _ =>
    trivial).methods fun _ _ => perform_within trivial

theorem construct_anything : (construct build this).Within (anything user thread) := by
  have permits := @anything_permits build user thread this
  have does (o : Op) : (perform o).Within (anything user thread) := perform_within trivial
  refine permits.bind (does _) fun _ => permits.bind (does _) fun rc => permits.bind (does _) fun _ => ?_
  refine permits.bind (permits.when fun _ => permits.errorThrow _ _) fun _ => permits.bind (does _) fun session => ?_
  refine permits.bind (does _) fun _ => permits.bind (permits.when fun _ => ?_) fun _ => does _
  refine permits.bind (does _) fun rc => permits.bind (permits.message (.inr permits.noMessage)) fun _ => ?_
  exact permits.errorThrow _ _

theorem readThread_anything {options : ConnectionOptions} :
    (readThread build this options).Within (anything user thread) := by
  have sets := @anything_sets build user thread this
  refine sets.bind sets.member fun sftp => ?_
  split
  · exact sets.pure _
  · exact sets.bind (sets.setUp sets.bind (perform_within trivial)) fun _ => sets.serve

theorem connect_anything {options : ConnectionOptions} : (connect build this options).Within (anything user user) := by
  have sets := @anything_sets build user user this
  have waiting : (repeatWhile (do return (← perform (.member this)).readThreadState ≠ .open_)
      (yieldToAnyThread build)).Within (anything user user) :=
    sets.repeatWhile (sets.bind sets.member fun _ => sets.pure _) sets.yields
  cases build with
  | direct => exact sets.bind readThread_anything fun _ => waiting
  | retro =>
    refine sets.bind (perform_within trivial) fun (err : Int) => ?_
    split
    · exact sets.bind sets.yields fun _ => waiting
    · exact ⟨⟨rfl, this, options, rfl⟩, fun _ => waiting⟩

theorem Solitary.calls (solitary : Solitary build user this began client) (idle : callOf user client.log = none)
    (ready : entry.Serves this → Connected this client) :
    Solitary build user this began (client.record (.called user entry)) where
  undisturbed := by
    refine throughout_concat.mpr ⟨solitary.undisturbed, fun _ found call _ => ?_⟩
    cases idle.symm.trans call
  admitted := by
    refine throughout_concat.mpr ⟨solitary.admitted, fun thread found same => ?_⟩
    cases same
    exact ⟨rfl, ready⟩
  main := solitary.main

/-- A call of a method is one that could be made alone. -/
theorem method_holds (serves : entry.Serves this) (may : (body build entry).Within (within user)) {start now : Client}
    (begins : Begins user this entry (began user entry) now)
    (ends : (solitude build user this began).rules.Ends user start now) :
    (solitude build user this began).rules.Holds user (body build entry)
      ((solitude build user this began).rules.Returns user) start now := by
  have orderly := (@solitude_regular build user this began).orderly
  obtain ⟨begun, early, marked, first, silent, more, log, others, quiet⟩ := begins.since
  have sees : Sees user this entry begun begun now := by
    refine ⟨silent, ⟨more, log, ?_, fun event member caller calls => ?_⟩, ?_, begins.connected⟩
    · rw [own_none others, List.append_nil]
    · cases (quiet event member).symm.trans calls
    · rw [log, first, callOf_others others, callOf_begun]
  have runs : Runs (K := kernel build) user (body build entry) begun ((body build entry).bind .pure) begun := by
    rw [Code.bind_pure]
    exact .here _ _
  apply ((method_undisturbed marked first serves).holds orderly may runs sees ends).mono
  intro value start now done
  obtain ⟨ghost, runs, sees, ends⟩ := done
  have idle : callOf user (now.log ++ [.returned user value]) = none := by simp [Event.callAfter]
  exact ⟨ends.trans orderly (ends.invariant.ends (sees.lone runs marked first rfl rfl) rfl rfl (by simp)), idle⟩

theorem solitude_sound : (solitude build user this began).rules.Sound := by
  have orderly := (@solitude_regular build user this began).orderly
  have vacuous (client after : Client) (other : ThreadId) (different : other ≠ user) :
      (solitude build user this began).keeps other client after := fun same => (different same).elim
  refine solitude_regular.sound ?_ ?_ ?_
  · intro actor entry client allowed kept idle outside
    obtain ⟨⟨allowed, begun⟩, _⟩ := allowed
    obtain rfl : actor = user := by
      cases entry with
      | readThread => exact allowed.elim
      | _ => exact allowed.2.1
    have ready : entry.Serves this → Connected this client := by
      cases entry with
      | operate | destroy => exact fun _ => allowed.2.2
      | _ => exact False.elim
    refine ⟨kept.calls idle ready, ?_, vacuous _ _⟩
    cases entry with
    | readThread => exact allowed.elim
    | construct | connect =>
      refine ⟨rfl, fun operating => ?_⟩
      obtain ⟨found, call, serves⟩ := operating
      cases callOf_begun.symm.trans call
      exact serves
    | operate object operation | destroy object =>
      obtain ⟨rfl, _, caller, member⟩ := allowed
      exact ⟨rfl, rfl, ⟨caller, List.mem_append_left _ member⟩, _, client.log, begun _ rfl, rfl, rfl, [],
        (List.append_nil _).symm, by simp⟩
  · intro object command client never
    exact never.1.elim
  · intro entry actor client kept ready
    have outside {code : Program Value} (outside : ¬ Operating this actor client.log)
        (within : code.Within (anything user actor)) : (solitude build user this began).rules.Holds actor code
        ((solitude build user this began).rules.Returns actor) client client := by
      apply (outside_bears.holds orderly within (.begins orderly kept outside)).mono
      intro value start now works
      have idle : callOf actor (now.log ++ [.returned actor value]) = none := by simp [Event.callAfter]
      exact ⟨works.ends.trans orderly (works.ends.invariant.ends (.outside works.holds rfl) rfl rfl (by simp)), idle⟩
    cases entry with
    | construct object => exact outside ready.2 (construct_anything.bind fun _ => trivial)
    | connect object options =>
      obtain ⟨rfl, ready⟩ := ready
      exact outside ready (connect_anything.bind fun _ => trivial)
    | readThread object options => exact outside ready.2 (readThread_anything.bind fun _ => trivial)
    | operate object operation =>
      obtain ⟨rfl, rfl, begins⟩ := ready
      have serves : (Entry.operate object operation).Serves object := rfl
      exact method_holds serves (within_methods.operate operation) begins (.refl orderly kept)
    | destroy object =>
      obtain ⟨rfl, rfl, begins⟩ := ready
      have may : (body build (.destroy object)).Within (within actor) :=
        (within_methods.destroy (perform_within trivial)).bind fun _ => trivial
      have serves : (Entry.destroy object).Serves object := rfl
      exact method_holds serves may begins (.refl orderly kept)

theorem solitary_everywhere {count : Nat} (starts : client.Starts count) {world : World (kernel build)}
    (reached : (solely build client.mainThreadId this).Reaches (World.initial client count) world) :
    Solitary build client.mainThreadId this
      ((solely build client.mainThreadId this).Begun (World.initial client count) world) world.state := by
  let began := (solely build client.mainThreadId this).Begun (World.initial client count) world
  have allowed (action : Action (kernel build)) (world : World (kernel build))
      (allowed : ((solely build client.mainThreadId this).calling began).Allows action world) :
      (solely build client.mainThreadId this).Allows action world := by
    cases action with
    | call => exact allowed.1
    | «continue» | resume | environment => exact allowed
  have known : (solitude build client.mainThreadId this began).choices.Reaches (World.initial client count) world :=
    exclusion_sound.knowing (exclusion_safe starts) rfl (fun _ kept => kept) (fun _ _ _ stepped => stepped.excluded)
      allowed reached.calling
  have first : Solitary build client.mainThreadId this began client := ⟨starts.log ▸ .nil, starts.log ▸ .nil, rfl⟩
  have safe := @Discipline.starts_safe build (solitude build client.mainThreadId this began) client count starts first
    fun thread => congrArg (callOf thread) starts.log
  exact solitude_sound.everywhere safe rfl (fun _ kept => kept) (fun _ _ _ stepped => stepped) known

/-- In every run in which the main thread constructs, connects and uses an object, each event of
a call of a method, up to its result, is that of a run of the method alone, which goes on from
the state in which the run came to the call. Since the call no other thread has called the
library. -/
theorem methods_undisturbed {count : Nat} (starts : client.Starts count) {world : World (kernel build)}
    (reached : (solely build client.mainThreadId this).Reaches (World.initial client count) world) :
    Throughout (Undisturbed build client.mainThreadId this
      ((solely build client.mainThreadId this).Begun (World.initial client count) world)) world.state.log :=
  (solitary_everywhere starts reached).undisturbed

theorem methods_undisturbed_once : Throughout (Undisturbed .retro 0 0
    ((solely .retro 0 0).Begun (World.initial servable 1) served)) served.state.log :=
  @methods_undisturbed .retro 0 servable 1 ⟨rfl, Nat.zero_lt_one⟩ served served_reached

end PowerBoot.Transfer
