import PowerBoot.Transfer.Authentication

/-! Any number of objects, each with a read thread. The thread that an error of a reader
disposes of is looked up after a yield, in a variable that the next `connect` overwrites. -/

namespace PowerBoot.Transfer
open Coop Code

/-- The thread was created by a call of `connect`. -/
def Reader (thread : ThreadId) (log : List Event) : Prop := ∃ creator entry, .spawned creator thread entry ∈ log

/-- The thread has printed an error. -/
def Erred (thread : ThreadId) (log : List Event) : Prop := ∃ format arguments, .reported thread format arguments ∈ log

/-- The thread has disposed of some thread. -/
def Disposed (thread : ThreadId) (log : List Event) : Prop := ∃ other, .disposed thread other ∈ log

/-- A read thread disposes of itself alone, which is all that it does after an error. -/
def Isolated (past : List Event) (event : Event) : Prop :=
  Reader event.thread past → (∀ other, event = .disposed event.thread other → other = event.thread) ∧
    (Erred event.thread past → event = .disposed event.thread event.thread ∧ ¬ Disposed event.thread past)

/-- The read threads keep to that, and are gone with it. -/
structure Separate (world : World (kernel .retro)) : Prop where
  isolated : Throughout Isolated world.state.log
  gone : ∀ thread, .disposed thread thread ∈ world.state.log → world.threads[thread]? = some .stopped

/-- Objects are used in any order by any threads but the read threads. -/
def sharing : Choices (kernel .retro) where
  answers _ _ _ _ := True
  calls actor _ client := ¬ Reader actor client.log
  moves _ _ := True

/-- A read thread that prints an error is the one that is named, and none is to be created until
it has disposed of a thread. -/
def separating : Choices (kernel .retro) :=
  { sharing with
    answers := fun actor o _ client => match o with
      | .report .. => Reader actor client.log → client.readThreadId = some actor
      | .newThread => ∀ reader, Reader reader client.log → Erred reader client.log → Disposed reader client.log
      | _ => True }

section logs
variable {thread other : ThreadId} {log more : List Event} {event : Event}

theorem Reader.grows (reader : Reader thread log) : Reader thread (log ++ more) := by
  obtain ⟨creator, entry, member⟩ := reader
  exact ⟨creator, entry, List.mem_append_left _ member⟩

theorem reader_concat : Reader thread (log ++ [event]) ↔
    Reader thread log ∨ ∃ creator entry, event = .spawned creator thread entry := by
  simp [Reader, List.mem_append, exists_or, eq_comm]

theorem erred_concat : Erred thread (log ++ [event]) ↔
    Erred thread log ∨ ∃ format arguments, event = .reported thread format arguments := by
  simp [Erred, List.mem_append, exists_or, eq_comm]

theorem disposed_concat : Disposed thread (log ++ [event]) ↔
    Disposed thread log ∨ ∃ other, event = .disposed thread other := by
  simp [Disposed, List.mem_append, exists_or, eq_comm]

/-- What the others do is no failure of this thread. -/
theorem Erred.own (failed : Erred thread (log ++ more)) (others : ∀ event ∈ more, event.thread ≠ thread) :
    Erred thread log := by
  obtain ⟨format, arguments, member⟩ := failed
  refine ⟨format, arguments, (List.mem_append.mp member).resolve_right fun late => ?_⟩
  exact others _ late rfl

theorem Disposed.own (disposed : Disposed thread (log ++ more)) (others : ∀ event ∈ more, event.thread ≠ thread) :
    Disposed thread log := by
  obtain ⟨other, member⟩ := disposed
  refine ⟨other, (List.mem_append.mp member).resolve_right fun late => ?_⟩
  exact others _ late rfl

end logs

/-- A read thread that has to dispose of itself is the one that is named. -/
structure Apart (client : Client) : Prop where
  isolated : Throughout Isolated client.log
  last : ∀ reader, Reader reader client.log → Erred reader client.log → ¬ Disposed reader client.log →
    client.readThreadId = some reader

/-- A read thread before any error. -/
structure Quiet (thread : ThreadId) (client : Client) : Prop where
  reader : Reader thread client.log
  failed : ¬ Erred thread client.log
  disposed : ¬ Disposed thread client.log

/-- A thread that no call of `connect` has created. -/
structure Outsider (thread : ThreadId) (client : Client) : Prop where
  known : client.Knows thread
  reader : ¬ Reader thread client.log

def isolation : Discipline .retro where
  choices := separating
  invariant := Apart
  keeps thread before after := before.Knows thread →
    after.Knows thread ∧ (Reader thread after.log → Reader thread before.log)
  step _ _ after := Throughout Isolated after.log
  idle _ _ := True
  requires entry thread client := match entry with
    | .readThread .. => Quiet thread client
    | _ => Outsider thread client

variable {thread : ThreadId} {before after client : Client}

theorem Quiet.grows (quiet : Quiet thread before) (grows : Grows thread before after) : Quiet thread after := by
  obtain ⟨more, log, others⟩ := grows.log
  refine ⟨log ▸ Reader.grows quiet.reader, fun failed => ?_, fun disposed => ?_⟩
  · exact quiet.failed ((log ▸ failed).own others)
  · exact quiet.disposed ((log ▸ disposed).own others)

theorem Outsider.grows (outsider : Outsider thread before) (keeps : isolation.keeps thread before after) :
    Outsider thread after := by
  obtain ⟨known, reader⟩ := keeps outsider.known
  exact ⟨known, fun now => outsider.reader (reader now)⟩

theorem isolation_regular : isolation.Regular where
  refl _ _ known := ⟨known, id⟩
  trans early late known := by
    obtain ⟨middle, first⟩ := early known
    obtain ⟨last, second⟩ := late middle
    exact ⟨last, fun now => first (second now)⟩
  fresh _ _ := trivial
  idles _ _ _ := trivial
  readies {entry thread before after} grows keeps ready := by
    cases entry with
    | readThread => exact Quiet.grows ready grows
    | construct | connect | operate | destroy => exact Outsider.grows ready keeps

def Event.Creates (event : Event) : Prop := ∃ creator child entry, event = .spawned creator child entry

theorem Apart.records {event : Event} (apart : Apart client) (creates : ¬ event.Creates)
    (isolated : Isolated client.log event)
    (last : Reader event.thread client.log → (∃ format arguments, event = .reported event.thread format arguments) →
      client.readThreadId = some event.thread) : Apart (client.record event) := by
  refine ⟨throughout_concat.mpr ⟨apart.isolated, isolated⟩, fun reader is failed disposed => ?_⟩
  have there := (reader_concat.mp is).resolve_right fun ⟨creator, entry, same⟩ => creates ⟨creator, reader, entry, same⟩
  rcases erred_concat.mp failed with failed | ⟨format, arguments, rfl⟩
  · exact apart.last reader there failed fun earlier => disposed (disposed_concat.mpr (.inl earlier))
  · exact last there ⟨format, arguments, rfl⟩

theorem keeps_record {event : Event} (creates : ¬ event.Creates) (other : ThreadId) :
    isolation.keeps other client (client.record event) := by
  intro known
  refine ⟨known.imp_right fun ⟨found, member, names⟩ => ⟨found, List.mem_append_left _ member, names⟩, fun reader => ?_⟩
  exact (reader_concat.mp reader).resolve_right fun ⟨creator, entry, same⟩ => creates ⟨creator, other, entry, same⟩

/-- Whatever else the thread does now leaves the readers isolated. -/
def Harmless (thread : ThreadId) (client : Client) : Prop := ∀ event : Event, event.thread = thread →
  (∀ other, event ≠ .disposed thread other) → Isolated client.log event

theorem Outsider.harmless (outsider : Outsider thread client) : Harmless thread client := by
  rintro event rfl _ reader
  exact (outsider.reader reader).elim

theorem Quiet.harmless (quiet : Quiet thread client) : Harmless thread client := by
  rintro event rfl other _
  exact ⟨fun another same => (other another same).elim, fun failed => (quiet.failed failed).elim⟩

theorem keeps_same (main : after.mainThreadId = client.mainThreadId) (log : after.log = client.log) (other : ThreadId) :
    isolation.keeps other client after := by
  intro known
  refine ⟨?_, fun reader => log ▸ reader⟩
  rwa [Client.Knows, main, log]

theorem exec_apart {o : Op} {input : Input} {reply : o.Reply} (apart : Apart client) (harmless : Harmless thread client)
    (answered : separating.answers thread o input client)
    (executed : exec thread o input client = some (reply, after)) :
    Apart after ∧ ∀ other, isolation.keeps other client after := by
  have main := exec_mainThreadId executed
  obtain ⟨events, log, logs⟩ := exec_log executed
  by_cases makes : o = .newThread
  · subst makes
    obtain rfl : events = [] := logs
    rw [List.append_nil] at log
    refine ⟨⟨log ▸ apart.isolated, fun reader is erred disposed => ?_⟩, keeps_same main log⟩
    rw [log] at is erred disposed
    exact (disposed (answered reader is erred)).elim
  have reader := exec_readThreadId executed makes
  have same (log : after.log = client.log) : Apart after ∧ ∀ other, isolation.keeps other client after := by
    refine ⟨⟨log ▸ apart.isolated, ?_⟩, keeps_same main log⟩
    rw [log, reader]
    exact apart.last
  have goes {event : Event} (log : after.log = (client.record event).log) (own : event.thread = thread)
      (creates : ¬ event.Creates) (disposes : ∀ other, event ≠ .disposed thread other)
      (last : Reader event.thread client.log → (∃ format arguments, event = .reported event.thread format arguments) →
        client.readThreadId = some event.thread) : Apart after ∧ ∀ other, isolation.keeps other client after := by
    have now := apart.records creates (harmless event own disposes) last
    refine ⟨⟨log ▸ now.isolated, ?_⟩, fun other known => ?_⟩
    · rw [log, reader]
      exact now.last
    · obtain ⟨knows, kept⟩ := keeps_record creates other known
      refine ⟨?_, fun reader => kept (log ▸ reader)⟩
      rwa [Client.Knows, main, log]
  cases o with
  | library =>
    obtain ⟨answer, _, rfl⟩ := logs
    exact goes log rfl nofun nofun nofun
  | waited | noMessage =>
    obtain rfl : events = _ := logs
    exact goes log rfl nofun nofun nofun
  | report =>
    obtain rfl : events = _ := logs
    exact goes log rfl nofun nofun fun is _ => answered is
  | _ =>
    obtain rfl : events = [] := logs
    exact same (log.trans (List.append_nil _))

section outsiders

theorem Outsider.isolated (outsider : Outsider thread client) {event : Event} (own : event.thread = thread) :
    Isolated client.log event := by
  intro reader
  exact (outsider.reader (own ▸ reader)).elim

theorem ends_isolated {event : Event} (apart : Apart client) (own : event.thread = thread) (creates : ¬ event.Creates)
    (isolated : Isolated client.log event)
      (reports : ∀ format arguments, event ≠ .reported event.thread format arguments) :
    isolation.rules.Ends thread client (client.record event) :=
  Discipline.ends_record own (apart.records creates isolated fun _ ⟨format, arguments, same⟩ =>
    (reports format arguments same).elim)
    fun other _ => keeps_record creates other

def unbounded : Allowance signature where
  ops _ := True
  disposes _ := True
  throws := True
  exits := True

/-- The other threads may do anything but create a thread. -/
theorem outsider_bears : isolation.rules.Bears thread unbounded (Outsider thread) where
  op o input now reply after _ answered executed apart outsider := by
    obtain ⟨later, keeps⟩ := exec_apart apart outsider.harmless answered executed
    exact ⟨later.isolated, Discipline.ends_op executed later fun other _ => keeps other, outsider.grows (keeps thread),
      trivial⟩
  waits _ _ _ moved _ outsider := outsider.grows moved.2
  threw _ now apart outsider := ⟨ends_isolated apart rfl nofun (outsider.isolated rfl) nofun, trivial⟩
  exited _ now apart outsider := ends_isolated apart rfl nofun (outsider.isolated rfl) nofun
  spawned _ _ _ never := never.elim
  disposed other now _ apart outsider := by
    have ends := @ends_isolated thread now (.disposed thread other) apart rfl nofun (outsider.isolated rfl) nofun
    exact ⟨ends.invariant.isolated, ends, fun _ =>
      outsider.grows (@keeps_record now (.disposed thread other) nofun thread)⟩

theorem unbounded_permits {this : Ptr} : Permits .retro this fun {_} code => code.Within unbounded :=
  permits_within (fun _ _ => trivial) (fun _ _ => trivial) trivial trivial (fun _ _ _ => trivial) fun _ => trivial

theorem unbounded_methods {this : Ptr} : Methods .retro this fun {_} code => code.Within unbounded :=
  unbounded_permits.methods fun _ _ => perform_within trivial

theorem construct_within {this : Ptr} : (construct .retro this).Within unbounded := by
  have permits := @unbounded_permits this
  refine permits.bind (perform_within trivial) fun _ => permits.bind (perform_within trivial) fun rc => ?_
  refine permits.bind (perform_within trivial) fun _ => permits.bind (permits.when fun _ => permits.errorThrow _ _)
    fun _ => ?_
  refine permits.bind (perform_within trivial) fun session => permits.bind (perform_within trivial) fun _ => ?_
  refine permits.bind (permits.when fun _ => ?_) fun _ => perform_within trivial
  refine permits.bind (permits.blind _ trivial) fun rc => ?_
  exact permits.bind (permits.message (.inr permits.noMessage)) fun _ => permits.errorThrow _ _

end outsiders

section readers
variable {start now : Client}

/-- A read thread at some place of its code before any error. -/
abbrev Steady (thread : ThreadId) : Client → Client → Prop := isolation.rules.Works thread (Quiet thread)

theorem Quiet.exec {o : Op} {input : Input} {reply : o.Reply} (quiet : Quiet thread client)
    (reports : ∀ format arguments, o ≠ .report format arguments)
    (executed : exec thread o input client = some (reply, after)) : Quiet thread after := by
  obtain ⟨events, log, logs⟩ := exec_log executed
  have goes {event : Event} (log : after.log = client.log ++ [event])
    (reported : ∀ format arguments, event ≠ .reported thread format arguments)
      (disposed : ∀ other, event ≠ .disposed thread other) : Quiet thread after := by
    refine ⟨log ▸ quiet.reader.grows, fun erred => ?_, fun gone => ?_⟩
    · obtain ⟨format, arguments, same⟩ := (erred_concat.mp (log ▸ erred)).resolve_left quiet.failed
      exact reported format arguments same
    · obtain ⟨other, same⟩ := (disposed_concat.mp (log ▸ gone)).resolve_left quiet.disposed
      exact disposed other same
  cases o with
  | library =>
    obtain ⟨answer, _, rfl⟩ := logs
    exact goes log nofun nofun
  | waited | noMessage =>
    obtain rfl : events = _ := logs
    exact goes log nofun nofun
  | report format arguments => exact (reports format arguments rfl).elim
  | _ =>
    obtain rfl : events = [] := logs
    have same : after.log = client.log := log.trans (List.append_nil _)
    exact ⟨same ▸ quiet.reader, same ▸ quiet.failed, same ▸ quiet.disposed⟩

theorem perform_stays {o : Op} (reports : ∀ format arguments, o ≠ .report format arguments) :
    isolation.rules.Stays thread (Quiet thread) (perform o) := by
  intro start now steady input reply after answered executed
  obtain ⟨later, keeps⟩ := exec_apart steady.ends.invariant steady.holds.harmless answered executed
  refine ⟨later.isolated, steady.step isolation_regular.orderly ?_ (steady.holds.exec reports executed)⟩
  exact Discipline.ends_op executed later fun other _ => keeps other

/-- A read thread between its error and the end of it. -/
structure Erring (thread : ThreadId) (client : Client) : Prop where
  reader : Reader thread client.log
  erred : Erred thread client.log
  disposed : ¬ Disposed thread client.log

theorem Erring.grows (erring : Erring thread before) (grows : Grows thread before after) : Erring thread after := by
  obtain ⟨more, log, others⟩ := grows.log
  obtain ⟨format, arguments, member⟩ := erring.erred
  refine ⟨log ▸ erring.reader.grows, ⟨format, arguments, log ▸ List.mem_append_left _ member⟩, fun disposed => ?_⟩
  exact erring.disposed ((log ▸ disposed).own others)

theorem readErrorThrow_stays (format : String) (arguments : List String) :
    isolation.rules.Stays thread (Quiet thread) (readErrorThrow .retro format arguments) := by
  intro start now steady input reply after answered executed
  obtain ⟨later, keeps⟩ := exec_apart steady.ends.invariant steady.holds.harmless answered executed
  have regular := isolation_regular
  have works : isolation.rules.Works thread (Erring thread) start after := by
    have executed : exec thread (.report format arguments) input now = some (reply, after) := executed
    refine steady.step regular.orderly (Discipline.ends_op executed later fun other _ => keeps other) ?_
    cases executed
    refine ⟨steady.holds.reader.grows, erred_concat.mpr (.inr ⟨_, _, rfl⟩), fun gone => ?_⟩
    obtain ⟨other, same⟩ := (disposed_concat.mp gone).resolve_left steady.holds.disposed
    cases same
  refine ⟨later.isolated, Discipline.holds_yieldToAnyThread works regular
    (fun _ _ _ grows _ erring => erring.grows grows)
    fun start now works => ?_⟩
  -- nothing was created meanwhile, so the name is that of this thread
  have last := works.ends.invariant.last thread works.holds.reader works.holds.erred works.holds.disposed
  refine @Discipline.holds_read .retro _ _ _ _ _ .readThreadId _ _ _ (fun _ => rfl) works.ends.invariant.isolated ?_
  rw [last]
  have isolated : Isolated now.log (.disposed thread thread) := by
    intro reader
    refine ⟨fun other same => ?_, fun _ => ⟨rfl, works.holds.disposed⟩⟩
    cases same
    rfl
  have ends := @ends_isolated thread now (.disposed thread thread) works.ends.invariant rfl nofun isolated nofun
  refine ⟨ends.invariant.isolated, ?_⟩
  rw [if_pos rfl]
  exact works.ends.trans regular.orderly ends

theorem reader_waits {this : Ptr} :
    Waits .retro this fun {_} code => isolation.rules.Stays thread (Quiet thread) code := by
  refine waits_of Rules.Stays.composes (fun o minor => ?_) ?_ ?_
  · refine perform_stays fun format arguments same => ?_
    subst same
    exact minor
  · intro start now steady
    exact Discipline.holds_yieldToAnyThread steady isolation_regular (fun _ _ _ grows _ quiet => quiet.grows grows)
      fun start now steady => steady
  · intro _ start now steady
    have ends := @ends_isolated thread now (.threw thread) steady.ends.invariant rfl nofun
      (steady.holds.harmless _ rfl nofun) nofun
    exact ⟨steady.ends.trans isolation_regular.orderly ends, trivial⟩

theorem reader_sets {this : Ptr} :
    SettingUp .retro this fun {_} code => isolation.rules.Stays thread (Quiet thread) code where
  toWaits := reader_waits
  member := perform_stays nofun
  noMessage := perform_stays nofun
  calls _ := perform_stays nofun
  assigns _ _ := perform_stays nofun
  readErrorThrow := readErrorThrow_stays

theorem readThread_stays {this : Ptr} {options : ConnectionOptions} :
    isolation.rules.Stays thread (Quiet thread) (readThread .retro this options) := by
  have sets := @reader_sets thread this
  refine sets.bind sets.member fun sftp => ?_
  split
  · exact sets.pure _
  · exact sets.bind (sets.setUp sets.bind (perform_stays nofun)) fun _ => sets.serve

end readers

section connect
variable {this : Ptr} {options : ConnectionOptions} {start now : Client}

/-- A new thread, created while no read thread is about to dispose of one. -/
theorem spawned_apart {child : ThreadId} {entry : Entry} (apart : Apart client) (outsider : Outsider thread client)
    (fresh : ¬ client.Knows child)
    (none : ∀ reader, Reader reader client.log → Erred reader client.log → Disposed reader client.log) :
    Apart (spawned thread child entry client) ∧ Quiet child (spawned thread child entry client) ∧
      ∀ other, isolation.keeps other client (spawned thread child entry client) := by
  have unknown {event : Event} (member : event ∈ client.log) (own : event.names child) : False :=
    fresh (.inr ⟨event, member, own⟩)
  refine ⟨⟨throughout_concat.mpr ⟨apart.isolated, outsider.isolated rfl⟩, fun reader is erred disposed => ?_⟩,
    ⟨?_, ?_, ?_⟩, ?_⟩
  · obtain ⟨format, arguments, member⟩ := (erred_concat.mp erred).resolve_right nofun
    rcases reader_concat.mp is with is | ⟨creator, entry, same⟩
    · exact (disposed (disposed_concat.mpr (.inl (none reader is ⟨format, arguments, member⟩)))).elim
    · cases same
      exact (unknown member rfl).elim
  · exact reader_concat.mpr (.inr ⟨thread, entry, rfl⟩)
  · intro erred
    obtain ⟨format, arguments, member⟩ := (erred_concat.mp erred).resolve_right nofun
    exact unknown member rfl
  · intro disposed
    obtain ⟨other, member⟩ := (disposed_concat.mp disposed).resolve_right nofun
    exact unknown member rfl
  · intro other known
    refine ⟨known.imp_right fun ⟨found, member, names⟩ => ⟨found, List.mem_append_left _ member, names⟩, fun reader =>
      ?_⟩
    refine (reader_concat.mp reader).resolve_right fun ⟨creator, entry, same⟩ => ?_
    cases same
    exact fresh known

theorem connect_outsider (works : isolation.rules.Works thread (Outsider thread) start now) :
    isolation.rules.Holds thread (connect .retro this options) (fun _ => isolation.rules.Works thread (Outsider thread))
      start now := by
  have waiting :
    (repeatWhile (do return (← perform (.member this)).readThreadState ≠ .open_) (yieldToAnyThread .retro)).Within
    unbounded :=
    .repeatWhile (.bind (perform_within trivial) fun _ => trivial) yieldToAnyThread_within
  have orderly := isolation_regular.orderly
  intro input err after answered executed
  have free : ∀ reader, Reader reader after.log → Erred reader after.log → Disposed reader after.log := by
    obtain ⟨_, _, rfl⟩ := exec_newThread executed
    exact answered
  obtain ⟨stepped, moved, outsider, _⟩ := outsider_bears.op _ _ _ _ _ trivial answered executed works.ends.invariant
    works.holds
  replace works := works.step orderly moved outsider
  refine ⟨stepped, ?_⟩
  by_cases negative : err < 0
  · simp only [Code.pure_bind, if_pos negative]
    exact outsider_bears.plain orderly yieldToAnyThread_within works fun _ _ _ works =>
      outsider_bears.holds orderly waiting works
  · simp only [Code.pure_bind, if_neg negative]
    intro child other fresh
    obtain ⟨apart, quiet, keeps⟩ := @spawned_apart thread after child (.readThread this options) works.ends.invariant
      works.holds fresh free
    have ends : isolation.rules.Ends thread after (spawned thread child (.readThread this options) after) := by
      refine ⟨apart, fun other different =>
        ⟨⟨rfl, [.spawned thread child (.readThread this options)], rfl, ?_⟩, keeps other⟩⟩
      simpa [Event.thread] using Ne.symm different
    refine ⟨apart.isolated, works.ends.trans orderly ends, quiet, ?_⟩
    exact outsider_bears.holds orderly waiting (.begins orderly apart (works.holds.grows (keeps thread)))

end connect

theorem isolation_sound : isolation.rules.Sound := by
  refine isolation_regular.sound ?_ ?_ ?_
  · intro actor entry client allowed apart _ outside
    have known : (client.record (.called actor entry)).Knows actor :=
      .inr ⟨_, List.mem_append_right _ (List.mem_singleton_self _), rfl⟩
    have keeps := @keeps_record client (.called actor entry) nofun
    have outsider : Outsider actor (client.record (.called actor entry)) :=
      ⟨known, fun reader => allowed ((reader_concat.mp reader).resolve_right nofun)⟩
    refine ⟨apart.records nofun (fun reader => (allowed reader).elim) fun reader => (allowed reader).elim, ?_,
      fun other _ => keeps other⟩
    cases entry with
    | readThread object options => exact (outside object options rfl).elim
    | construct | connect | operate | destroy => exact outsider
  · exact fun _ apart => ⟨⟨apart.isolated, apart.last⟩, keeps_same rfl rfl⟩
  · intro entry actor client apart ready
    have orderly := isolation_regular.orderly
    have returns {value : Value} {start now : Client} (works : isolation.rules.Works actor (Outsider actor) start now) :
        isolation.rules.Returns actor value start now :=
      ⟨works.ends.trans orderly (ends_isolated works.ends.invariant rfl nofun (works.holds.isolated rfl) nofun),
        trivial⟩
    cases entry with
    | construct object =>
      apply Rules.Holds.bind
      exact (outsider_bears.holds orderly construct_within (.begins orderly apart ready)).mono fun _ _ _ works =>
        returns works
    | connect object options =>
      apply Rules.Holds.bind
      exact (connect_outsider (.begins orderly apart ready)).mono fun _ _ _ works => returns works
    | readThread object options =>
      apply Rules.Holds.bind
      refine (readThread_stays _ _ (.begins orderly apart ready)).mono fun _ start now steady => ?_
      refine ⟨steady.ends.trans orderly (ends_isolated steady.ends.invariant rfl nofun ?_ nofun), trivial⟩
      exact steady.holds.harmless _ rfl nofun
    | operate object operation =>
      exact (outsider_bears.holds orderly (unbounded_methods.operate operation) (.begins orderly apart ready)).mono
        fun _ _ _ works => returns works
    | destroy object =>
      apply Rules.Holds.bind
      exact (outsider_bears.holds orderly (unbounded_methods.destroy (perform_within trivial))
        (.begins orderly apart ready)).mono
        fun _ _ _ works => returns works

theorem disposes_buries : (kernel .retro).Buries fun thread client => .disposed thread thread ∈ client.log where
  exec {thread o input state reply after name} executed member := by
    obtain ⟨events, log, logs⟩ := exec_log executed
    rw [log] at member
    refine (List.mem_append.mp member).resolve_right fun late => ?_
    cases o with
    | library =>
      obtain ⟨answer, _, rfl⟩ := logs
      cases List.mem_singleton.mp late
    | waited | report | noMessage =>
      obtain rfl : events = _ := logs
      cases List.mem_singleton.mp late
    | _ =>
      obtain rfl : events = [] := logs
      cases late
  called {thread entry state after name} admitted member := by
    cases entry <;> cases admitted <;> simpa using member
  spawned member := by simpa [spawned] using member
  disposed member := by
    rcases List.mem_append.mp member with earlier | now
    · exact .inr earlier
    · cases List.mem_singleton.mp now
      exact .inl ⟨rfl, rfl⟩
  exited member := by simpa using member
  returned member := by simpa using member
  threw member := by simpa using member
  environment {input state after name} moved member := by
    cases input <;> cases moved
    exact member

/-- In every run in which a read thread has an error only while it is the one that is named, and
NewThread is not called before it is gone, the read threads are kept apart. -/
theorem readers_separate {client : Client} {count : Nat} (starts : client.Starts count) {world : World (kernel .retro)}
    (reached : separating.Reaches (World.initial client count) world) : Separate world := by
  have apart : Apart client := by
    refine ⟨starts.log ▸ .nil, ?_⟩
    rintro reader ⟨creator, entry, member⟩
    rw [starts.log] at member
    cases member
  have safe := @Discipline.starts_safe .retro isolation client count starts apart fun _ => trivial
  have first (name : ThreadId) (gone : .disposed name name ∈ client.log) :
      (World.initial (K := kernel .retro) client count).threads[name]? = some .stopped := by
    rw [starts.log] at gone
    cases gone
  refine ⟨isolation_sound.everywhere safe rfl (fun _ apart => apart.isolated) (fun _ _ _ stepped => stepped) reached,
    ?_⟩
  exact disposes_buries.stopped first reached

section runs

private def created (thread : ThreadId) (log : List Event) : Bool := log.any fun event => match event with
  | .spawned _ child _ => child == thread
  | _ => false

private theorem created_of_reader {log : List Event} (reader : Reader thread log) : created thread log = true := by
  obtain ⟨creator, entry, member⟩ := reader
  exact List.any_eq_true.mpr ⟨_, member, by simp⟩

/-- Calls by threads that were not created. -/
private def sharingTest (action : Action (kernel .retro)) (world : World (kernel .retro)) : Bool :=
  match action with
  | .call thread _ => !created thread world.state.log
  | _ => true

private theorem sharingTest_allows (action : Action (kernel .retro)) (world : World (kernel .retro))
    (passed : sharingTest action world = true) : sharing.Allows action world := by
  cases action with
  | call =>
    intro reader
    simp [sharingTest, created_of_reader reader] at passed
  | «continue» => exact fun _ _ _ _ _ => trivial
  | resume | environment => trivial

private def gone (thread : ThreadId) (log : List Event) : Bool := log.any fun event => match event with
  | .disposed actor _ => actor == thread
  | _ => false

private theorem disposed_of_gone {log : List Event} (passed : gone thread log = true) : Disposed thread log := by
  obtain ⟨event, member, found⟩ := List.any_eq_true.mp passed
  split at found
  next actor other =>
    obtain rfl := eq_of_beq found
    exact ⟨other, member⟩
  · cases found

/-- The same, where the reader that prints an error is the one that is named, and all who
printed one are gone when another is to be created. -/
private def separatingTest (action : Action (kernel .retro)) (world : World (kernel .retro)) : Bool :=
  sharingTest action world && match action, world.current with
  | .continue _, some actor => match world.threads[actor]? with
    | some (.running (.op (.report ..) _)) => world.state.readThreadId == some actor
    | some (.running (.op .newThread _)) => world.state.log.all fun event => match event with
      | .reported thread _ _ => gone thread world.state.log
      | _ => true
    | _ => true
  | _, _ => true

private theorem separatingTest_allows (action : Action (kernel .retro)) (world : World (kernel .retro))
    (passed : separatingTest action world = true) : separating.Allows action world := by
  obtain ⟨shared, passed⟩ := Bool.and_eq_true_iff.mp passed
  cases action with
  | «continue» input =>
    intro actor o next current found
    cases o with
    | report =>
      intro _
      simpa [current, found] using passed
    | newThread =>
      rintro reader _ ⟨format, arguments, member⟩
      simp only [current, found, List.all_eq_true] at passed
      exact disposed_of_gone (passed _ member)
    | _ => trivial
  | call | resume | environment => exact sharingTest_allows _ world shared

private def refusing : Client := answering 0 [⟨.socket, LIBSSH2_INVALID_SOCKET, 0⟩]

private def connecting_ (thread : ThreadId) (this : Ptr) : List (Action (kernel .retro)) :=
  calling .retro thread (.connect this account) [.status 0 :: List.replicate 4 .none]

private def acceptingOnce : Client :=
  { accepting with session := Function.update accepting.session 1 (refusing.session 1) }

/-- Object 0 is connected by thread 0, whose reader ends once it is, and then object 1 is by
thread 1, whose reader has no socket. -/
private def turnedAway : World (kernel .retro) := (World.initial acceptingOnce 2).after
  (connecting_ 0 0 ++ World.alone 2 readerSections ++ World.alone 0 (steps [3]) ++ connecting_ 1 1 ++
    World.alone 3 (steps [2, 2, 3, 2]))

theorem readers_separate_refused : Separate turnedAway ∧
    turnedAway.state.log.filter (fun event => match event with
      | .disposed .. => true
      | _ => false) = [.disposed 2 2, .disposed 3 3] := by
  refine ⟨@readers_separate acceptingOnce 2 ⟨rfl, Nat.zero_lt_two⟩ turnedAway ?_, rfl⟩
  exact .tested _ separatingTest_allows (by decide +kernel)

/-- Thread 2 has no socket yet when thread 3 is created for another object. -/
private def overtaken : World (kernel .retro) := (World.initial refusing 2).after
  (connecting_ 0 0 ++ World.alone 2 (steps [2, 2]) ++ connecting_ 1 1 ++ World.alone 2 (steps [3, 2]))

/-- It disposes of thread 3, and goes on. -/
theorem readers_overtaken : sharing.Reaches (World.initial refusing 2) overtaken ∧ ¬ Separate overtaken := by
  refine ⟨.tested _ sharingTest_allows (by decide +kernel), fun separate => ?_⟩
  have last : overtaken.state.log = overtaken.state.log.dropLast ++ .disposed 2 3 :: [] := rfl
  have reader : Reader 2 overtaken.state.log.dropLast := ⟨0, _, List.mem_of_getElem? (i := 1) rfl⟩
  cases (separate.isolated _ _ _ last reader).1 3 rfl

end runs

end PowerBoot.Transfer
