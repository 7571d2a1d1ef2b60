import PowerBoot.PowerNet.Discipline

/-! Errors of `socket` and connect_thread. A report disposes of the thread that
`main_thread_id` names, so it stops the operation that met the error where that
is the reporting thread, and lets it go on everywhere else. -/

namespace PowerBoot.PowerNet
open Coop Code

/-- The calls that set up a connection. -/
def Entry.SetsUp : Entry → Prop
  | .socket .. | .connectThread _ => True
  | _ => False

/-- What an operation that met an error must not do any more. -/
def Event.Acts : Event → Prop
  | .openTransport .. | .inserted .. | .returned .. => True
  | _ => False

/-- A call of `thread` that sets up a connection has reported an error. -/
def Failed (thread : ThreadId) (log : List Event) : Prop :=
  ∃ past format arguments rest entry, log = past ++ .reported thread format arguments :: rest ∧
    callOf thread past = some entry ∧ entry.SetsUp

/-- InitOpenTransport or OTOpenEndpoint has failed. -/
def Event.FailsToOpen : Event → Prop
  | .openTransport _ (.status .initOpenTransport _ result) => result ≠ noErr
  | .openTransport _ (.openEndpoint _ result) => result ≠ noErr
  | _ => False

/-- A call of `socket` for a known type that met no error up to now. -/
def Opens (type : Int) (own : List Event) : Prop :=
  (type = SOCK_STREAM ∨ type = SOCK_DGRAM) ∧ ∀ event ∈ own, ¬ event.FailsToOpen

/-- Errors in setting up are reported on the main thread alone, and a status that says
that a socket cannot be opened is one that `socket` knows. -/
def errorChoices : Choices kernel where
  answers thread o input net := match o with
    | .report .. => ∀ entry, callOf thread net.log = some entry → entry.SetsUp → thread = net.mainThreadId
    | .openTransport .initOpenTransport _ => ∀ result, input = .status result → result ≠ noErr → toOSErr result ≠ noErr
    | .otOpenEndpoint _ => ∀ result, input = .status result → result ≠ noErr → (osErrFormat (toOSErr result)).isSome
    | _ => True
  calls _ _ _ := True
  moves _ _ := True

/-- Only a report of its own, made while it sets up a connection, makes a thread fail. -/
theorem Failed.concat {thread : ThreadId} {log : List Event} {event : Event} (failed : Failed thread (log ++ [event])) :
    Failed thread log ∨ (∃ format arguments, event = .reported thread format arguments) ∧
      ∃ entry, callOf thread log = some entry ∧ entry.SetsUp := by
  obtain ⟨past, format, arguments, rest, entry, split, call, setsUp⟩ := failed
  rcases List.eq_nil_or_concat rest with rfl | ⟨between, last, rfl⟩
  · obtain ⟨rfl, same⟩ := List.append_inj' split rfl
    cases same
    exact Or.inr ⟨⟨format, arguments, rfl⟩, entry, call, setsUp⟩
  · rw [List.concat_eq_append, ← List.cons_append, ← List.append_assoc] at split
    obtain ⟨rfl, _⟩ := List.append_inj' split rfl
    exact Or.inl ⟨past, format, arguments, between, entry, rfl, call, setsUp⟩

theorem Failed.earlier {thread : ThreadId} {log more : List Event} (failed : Failed thread (log ++ more))
    (other : ∀ event ∈ more, ∀ format arguments, event ≠ .reported thread format arguments) : Failed thread log := by
  induction more using List.reverseRecOn with
  | nil => rwa [List.append_nil] at failed
  | append_singleton more event ih =>
    rw [← List.append_assoc] at failed
    rcases failed.concat with before | ⟨⟨format, arguments, reported⟩, _⟩
    · exact ih before fun found member => other found (List.mem_append_left _ member)
    · exact (other event (by simp) format arguments reported).elim

/-- An event of a thread comes before its failure, and `socket` lists a socket only where
nothing failed. -/
def Stopped (past : List Event) (thread : ThreadId) (event : Event) (_ : Option Value) : Prop :=
  (event.Acts → ¬ Failed thread past) ∧
  ∀ fd p domain type protocol, event = .inserted thread fd p →
    callOf thread past = some (.socket domain type protocol) → Opens type (since thread past)

def failing : Discipline where
  choices := errorChoices
  invariant net := Ledger Stopped net.log
  keeps _ _ _ := True
  step _ _ after := Ledger Stopped after.log
  idle thread net := ¬ Failed thread net.log

theorem failing_regular : failing.Regular where
  refl _ _ := trivial
  trans _ _ := trivial
  record _ _ _ := trivial
  fresh {thread net} _ unknown failed := by
    obtain ⟨past, format, arguments, rest, entry, split, _⟩ := failed
    exact unknown ⟨.reported thread format arguments, by simp [split], Or.inl rfl⟩
  idles {thread before after} moved idle failed := by
    obtain ⟨_, more, log, others, _⟩ := moved
    rw [log] at failed
    refine idle (failed.earlier fun event member format arguments same => others event member ?_)
    rw [same, Event.thread]

/-- A thread has not failed, and has met no error in opening a socket where `clean`. -/
def Unfailed (thread : ThreadId) (clean : Prop) (net : Net) : Prop :=
  ¬ Failed thread net.log ∧ (clean → ∀ event ∈ since thread net.log, ¬ event.FailsToOpen)

/-- The operations that need no attention in a call. -/
def Entry.Plain (entry : Entry) (clean : Prop) : Op → Prop
  | .report .. => ¬ entry.SetsUp
  | .openTransport .initOpenTransport _ | .otOpenEndpoint _ => ¬ clean
  | .insert .. => ∀ domain type protocol, entry ≠ .socket domain type protocol
  | _ => True

theorem failing_keeping (thread : ThreadId) (entry : Entry) (clean : Prop) :
    failing.Keeping thread entry (entry.Plain clean) connectEntries (Unfailed thread clean) where
  op {o input now reply after} plain answered executed kept call mine := by
    have does := exec_does executed
    have ledger : Ledger Stopped after.log := by
      refine does.ledger kept fun event member => ⟨fun _ => mine.1, ?_⟩
      rintro fd p domain type protocol rfl opens
      cases call.symm.trans opens
      cases o with
      | insert => exact (plain domain type protocol rfl).elim
      | _ => simp [Op.events] at member
    refine ⟨ledger, ledger, fun _ _ => trivial, fun failed => ?_, fun opened event member => ?_⟩
    · rw [does.log] at failed
      cases o with
      | report format arguments =>
        rcases failed.concat with before | ⟨_, entry', same, setsUp⟩
        · exact mine.1 before
        · cases call.symm.trans same
          exact plain setsUp
      | _ => exact mine.1 (failed.earlier (by simp [Op.events]))
    · rw [does.call.2, List.mem_append] at member
      rcases member with before | now
      · exact mine.2 opened event before
      · cases o with
        | openTransport function endpoint =>
          obtain rfl := List.mem_singleton.mp now
          cases function <;> first | exact (plain opened).elim | exact id
        | otOpenEndpoint => exact (plain opened).elim
        | _ => simp [Op.events] at now <;> subst now <;> exact id
  record {now} event marks kept call mine := by
    have begins := marks.begins
    have ledger : Ledger Stopped (now.record event).log := by
      refine kept.concat (fun actor _ _ => ⟨fun acts => ?_, ?_⟩) ?_
      · cases event <;> first | exact False.elim marks | exact False.elim acts
      · rintro fd p domain type protocol rfl
        exact False.elim marks
      · rintro actor value rfl
        exact marks
    refine ⟨ledger, ledger, fun failed => mine.1 (failed.earlier ?_), fun opened found member => ?_⟩
    · simp only [List.mem_singleton, forall_eq]
      rintro format arguments rfl
      exact marks
    · rcases mem_since_concat begins member with before | rfl
      · exact mine.2 opened found before
      · cases found <;> first | exact id | exact False.elim marks
  waits {before after} _ moved _ _ call mine := by
    refine ⟨failing_regular.idles moved mine.1, ?_⟩
    rw [(moved.call call).2.1]
    exact mine.2
  idle {now} _ _ mine := fun failed => mine.1 (failed.earlier (by simp))

section reporting
variable {thread : ThreadId} {entry : Entry} {start now : Net} {post : Unit → Net → Net → Prop}

theorem stops {mine : Net → Prop} (works : failing.Works thread entry mine start now) (setsUp : entry.SetsUp)
    (format : String) (arguments : List String) :
    failing.rules.Holds thread (macErrorThrow format arguments) post start now := by
  refine Discipline.holds_op fun _ _ after answered _ does => ?_
  have main : thread = now.mainThreadId := answered entry works.2.1 setsUp
  have reported : Ledger Stopped after.log := does.ledger works.1.invariant fun event member => by
    obtain rfl := List.mem_singleton.mp member
    exact ⟨False.elim, nofun⟩
  have ends : failing.rules.Ends thread now after := Discipline.ends_op does reported fun _ _ => trivial
  refine ⟨reported, works.1.trans failing_regular.orderly ends, fun later kept moved _ => ?_⟩
  refine Discipline.holds_op fun _ stopped read _ _ does' => ?_
  have ledger : Ledger Stopped read.log := does'.ledger kept nofun
  have same : stopped = thread := by
    rw [main, ← does.mainThreadId, ← moved.1.mainThreadId]
    exact does'.answer
  subst same
  have disposed : Ledger Stopped (read.record (.disposed stopped stopped)).log :=
    ledger.concat (fun _ _ _ => ⟨False.elim, nofun⟩) nofun
  refine ⟨ledger, disposed, ?_⟩
  simp only [if_true]
  refine (Discipline.ends_op does' ledger fun _ _ => trivial).trans failing_regular.orderly ?_
  exact failing_regular.ends_record rfl (fun _ _ _ => rfl) disposed

theorem when_stops {condition : Prop} [Decidable condition] {mine : Net → Prop}
    (works : failing.Works thread entry mine start now) (setsUp : entry.SetsUp) (format : String)
    (arguments : List String) (safe : ¬ condition → post () start now) :
    failing.rules.Holds thread (when condition (macErrorThrow format arguments)) post start now := by
  by_cases holds : condition
  · rw [when, if_pos holds]
    exact stops works setsUp format arguments
  · rw [when, if_neg holds]
    exact safe holds

/-- After ThrowOSErr there was no error that it knows. -/
theorem throwOsErr_stops {mine : Net → Prop} (works : failing.Works thread entry mine start now)
    (setsUp : entry.SetsUp) {file : String} {line : Nat} {func : String} {err : Int}
    (safe : osErrFormat err = none → post () start now) :
    failing.rules.Holds thread (throwOsErr file line func err) post start now := by
  unfold throwOsErr
  split
  · exact stops works setsUp _ _
  next unknown => exact safe unknown

theorem checked_stops (works : failing.Works thread entry (Unfailed thread False) start now) (setsUp : entry.SetsUp)
    {line : Nat} {func : String} {function : OTFunction} {s : Ptr}
    (safe : ∀ start now, failing.Works thread entry (Unfailed thread False) start now → post () start now) :
    failing.rules.Holds thread (checked line func function s) post start now := by
  have keeping := failing_keeping thread entry False
  refine works.op failing_regular keeping (.load s) trivial fun socket after _ works => ?_
  refine works.op failing_regular keeping (.openTransport function socket.endpoint) ?_ fun _ after _ works => ?_
  · cases function <;> first | exact id | trivial
  · exact throwOsErr_stops works setsUp fun _ => safe _ _ works

theorem ends_call {value : Value}
    (works : failing.Works thread entry (Unfailed thread False) start now) :
    failing.rules.Returns thread value start now := by
  refine works.returns failing_regular ?_ fun failed => works.2.2.1 (failed.earlier (by simp))
  refine works.1.invariant.returned ⟨fun _ => works.2.2.1, nofun⟩ fun _ _ _ _ _ _ good => good

end reporting

theorem connectThread_stops {thread : ThreadId} {params : ConnectThreadParams} {net : Net}
    (kept : Ledger Stopped net.log) (call : callOf thread net.log = some (.connectThread params))
    (idle : ¬ Failed thread net.log) :
    failing.rules.Holds thread (body (.connectThread params)) (failing.rules.Returns thread) net net := by
  apply Rules.Holds.bind
  have begins : failing.Works thread (.connectThread params) (Unfailed thread False) net net :=
    .begins failing_regular kept call ⟨idle, False.elim⟩
  have keeping := failing_keeping thread (.connectThread params) False
  refine begins.plain failing_regular keeping (openSocketsAt_uses trivial) fun s _ _ works => ?_
  refine works.plain failing_regular keeping pause_uses fun _ _ _ works => ?_
  refine works.plain failing_regular keeping (perform_uses trivial) fun _ _ _ works => ?_
  refine Rules.Holds.bind (checked_stops works trivial fun _ _ works => ?_)
  refine Rules.Holds.bind (checked_stops works trivial fun _ _ works => ?_)
  refine Rules.Holds.bind (checked_stops works trivial fun _ _ works => ?_)
  refine Rules.Holds.bind (checked_stops works trivial fun _ _ works => ?_)
  refine Rules.Holds.bind (checked_stops works trivial fun _ _ works => ?_)
  refine works.plain failing_regular keeping (perform_uses trivial) fun _ _ _ works => ?_
  refine works.plain failing_regular keeping (perform_uses trivial) fun installed _ _ works => ?_
  refine Rules.Holds.bind (throwOsErr_stops works trivial fun _ => ?_)
  refine works.plain failing_regular keeping pause_uses fun _ _ _ works => ?_
  refine works.plain failing_regular keeping (perform_uses trivial) fun _ _ _ works => ?_
  refine works.plain failing_regular keeping pause_uses fun _ _ _ works => ?_
  refine works.plain failing_regular keeping (perform_uses trivial) fun _ _ _ works => ?_
  refine works.plain failing_regular keeping (perform_uses trivial) fun _ _ _ works => ?_
  refine works.plain failing_regular keeping (perform_uses trivial) fun _ _ _ works => ?_
  refine works.plain failing_regular keeping (perform_uses trivial) fun target _ _ works => ?_
  refine works.plain failing_regular keeping (perform_uses trivial) fun status _ _ works => ?_
  refine works.plain failing_regular keeping pause_uses fun _ _ _ works => ?_
  have ends : failing.rules.Holds thread pause (fun _ => failing.rules.Holds thread (.pure (.int 0))
      (failing.rules.Returns thread)) _ _ :=
    works.last failing_regular keeping pause_uses fun _ _ _ works => ends_call works
  by_cases refused : status ≠ kOTNoDataErr
  · rw [when, if_pos refused]
    exact Rules.Holds.bind (throwOsErr_stops works trivial fun _ => ends)
  · rw [when, if_neg refused]
    exact ends

section socket
variable {thread : ThreadId} {domain type protocol : Int} {start now after : Net}

/-- Where a `socket` call is, with no error in opening if `clean`. -/
abbrev Opening (thread : ThreadId) (domain type protocol : Int) (clean : Prop) : Net → Net → Prop :=
  failing.Works thread (.socket domain type protocol) (Unfailed thread clean)

theorem Opening.tried (opening : Opening thread domain type protocol True start now) {o : Op} {reply : o.Reply}
    {input : Input} {result : Int} {event : Event} (answered : errorChoices.answers thread o input now)
    (executed : exec thread o input now = some (reply, after))
    (plain : (Entry.socket domain type protocol).Plain False o) (one : o.events thread reply = [event])
    (fails : event.FailsToOpen → result ≠ noErr) :
    Ledger Stopped after.log ∧ Opening thread domain type protocol (result = noErr) start after := by
  have does := exec_does executed
  obtain ⟨_, ledger, _, unfailed, _⟩ := (failing_keeping thread (.socket domain type protocol) False).op plain answered
    executed opening.1.invariant opening.2.1 ⟨opening.2.2.1, False.elim⟩
  refine ⟨ledger, opening.step failing_regular does ledger (fun _ _ => trivial) ⟨unfailed, fun fine found member => ?_⟩⟩
  rw [does.call.2, one] at member
  rcases List.mem_append.mp member with before | last
  · exact opening.2.2.2 trivial found before
  · obtain rfl := List.mem_singleton.mp last
    exact fun failed => fails failed fine

theorem Opening.known (opening : Opening thread domain type protocol True start now) {skt : Ptr}
    {post : Unit → Net → Net → Prop} (safe : type = SOCK_STREAM ∨ type = SOCK_DGRAM → ∀ start now,
      Opening thread domain type protocol True start now → post () start now) :
    failing.rules.Holds thread (configure skt type) post start now := by
  have keeping := failing_keeping thread (.socket domain type protocol) True
  by_cases stream : type = SOCK_STREAM
  · rw [configure, if_pos stream]
    refine opening.plain failing_regular keeping (perform_uses trivial) fun _ _ _ opening => ?_
    exact opening.last failing_regular keeping (perform_uses trivial) fun _ _ _ => safe (Or.inl stream) _ _
  · rw [configure, if_neg stream]
    by_cases datagram : type = SOCK_DGRAM
    · rw [if_pos datagram]
      refine opening.plain failing_regular keeping (perform_uses trivial) fun _ _ _ opening => ?_
      exact opening.last failing_regular keeping (perform_uses trivial) fun _ _ _ => safe (Or.inr datagram) _ _
    · rw [if_neg datagram]
      exact stops opening trivial _ _

theorem socket_stops (kept : Ledger Stopped now.log)
    (call : callOf thread now.log = some (.socket domain type protocol)) (quiet : since thread now.log = [])
    (idle : ¬ Failed thread now.log) :
    failing.rules.Holds thread (body (.socket domain type protocol)) (failing.rules.Returns thread) now now := by
  apply Rules.Holds.bind
  have keeping (clean : Prop) := failing_keeping thread (.socket domain type protocol) clean
  have begins : Opening thread domain type protocol True now now :=
    .begins failing_regular kept call ⟨idle, by simp [quiet]⟩
  refine Discipline.holds_op fun input (status : Int) after answered executed _ => ?_
  obtain ⟨ledger, opening⟩ := begins.tried answered executed (not_false) rfl id
  refine ⟨ledger, Rules.Holds.bind (when_stops opening trivial _ _ fun fine => ?_)⟩
  have given : input = .status status := by
    cases input <;> simp [exec] at executed
    rw [executed.1]
  have opened : status = noErr := by
    by_contra failed
    exact fine (answered status given failed)
  have opening : Opening thread domain type protocol True now after :=
    ⟨opening.1, opening.2.1, opening.2.2.1, fun _ => opening.2.2.2 opened⟩
  refine opening.plain failing_regular (keeping True) pause_uses fun _ _ _ opening => ?_
  refine opening.plain failing_regular (keeping True) (perform_uses trivial) fun skt _ _ opening => ?_
  refine opening.plain failing_regular (keeping True) pause_uses fun _ _ _ opening => ?_
  refine Rules.Holds.bind (Opening.known opening fun known _ _ opening => ?_)
  refine opening.plain failing_regular (keeping True) pause_uses fun _ _ _ opening => ?_
  refine opening.plain failing_regular (keeping True) (perform_uses trivial) fun s start now opening => ?_
  refine Discipline.holds_op fun input (reply : Option EndpointRef × Int) after answered executed _ => ?_
  obtain ⟨ledger, opening⟩ := Opening.tried opening answered executed (not_false) rfl id
  have given : input = .status reply.2 := by
    cases input <;> simp [exec] at executed
    rw [← executed.1]
  refine ⟨ledger, opening.plain failing_regular (keeping _) (perform_uses trivial) fun _ start now opening => ?_⟩
  refine Rules.Holds.bind (throwOsErr_stops opening trivial fun unknown => ?_)
  have opened : reply.2 = noErr := by
    by_contra failed
    have noticed := answered reply.2 given failed
    rw [unknown] at noticed
    cases noticed
  have opening : Opening thread domain type protocol True start now :=
    ⟨opening.1, opening.2.1, opening.2.2.1, fun _ => opening.2.2.2 opened⟩
  refine opening.plain failing_regular (keeping True) pause_uses fun _ _ _ opening => ?_
  refine opening.plain failing_regular (keeping True) (perform_uses trivial) fun s _ _ opening => ?_
  refine opening.plain failing_regular (keeping True) (perform_uses trivial) fun _ _ _ opening => ?_
  refine opening.plain failing_regular (keeping True) pause_uses fun _ _ _ opening => ?_
  refine opening.plain failing_regular (keeping True) (perform_uses trivial) fun socketId _ _ opening => ?_
  refine opening.plain failing_regular (keeping True) (perform_uses trivial) fun _ start now opening => ?_
  refine Discipline.holds_op fun _ _ after _ _ does => ?_
  have ledger : Ledger Stopped after.log := does.ledger opening.1.invariant fun event member => by
    refine ⟨fun _ => opening.2.2.1, ?_⟩
    intro fd p domain' type' protocol' _ opens
    cases opening.2.1.symm.trans opens
    exact ⟨known, opening.2.2.2 trivial⟩
  have listed : Opening thread domain type protocol False start after := by
    refine opening.step failing_regular does ledger (fun _ _ => trivial) ⟨fun failed => ?_, False.elim⟩
    rw [does.log] at failed
    exact opening.2.2.1 (failed.earlier (by simp [Op.events]))
  refine ⟨ledger, listed.plain failing_regular (keeping False) pause_uses fun _ _ _ listed => ends_call listed⟩

end socket

theorem failing_sound : failing.rules.Sound := by
  refine failing_regular.sound ?_ ?_ ?_
  · intro thread entry net _ kept idle _
    refine ⟨kept.concat (fun _ _ _ => ⟨False.elim, nofun⟩) nofun, fun failed => idle (failed.earlier (by simp))⟩
  · intro input net after _ kept moves _
    obtain ⟨event, owner, log⟩ := moves.log
    refine ⟨?_, fun _ => trivial⟩
    show Ledger Stopped after.log
    rw [log]
    refine kept.concat (fun actor mine => by simp [owner] at mine) ?_
    rintro actor value rfl
    cases owner
  · intro entry thread net kept call quiet idle _
    cases entry with
    | socket domain type protocol => exact socket_stops kept call quiet idle
    | connectThread params => exact connectThread_stops kept call idle
    | _ =>
      refine (failing_keeping thread _ False).body failing_regular ((body_uses _).mono (fun o _ => ?_)
        fun _ used => used) ?_ kept call ⟨idle, False.elim⟩
      · cases o with
        | openTransport function endpoint => cases function <;> first | exact id | trivial
        | report | otOpenEndpoint => exact id
        | insert => exact nofun
        | _ => trivial
      · intro value now kept _ mine
        refine ⟨kept.returned ⟨fun _ => mine.1, nofun⟩ fun _ _ _ _ _ _ good => good, ?_⟩
        exact fun failed => mine.1 (failed.earlier (by simp))

/-- In every run that keeps to these choices, a thread that reported an error in
`socket` or connect_thread does nothing more, and `socket` lists a socket only where
the type is known and opening met no error. -/
theorem error_stops_caller {mainThreadId count : Nat} {world : World kernel}
    (reached : errorChoices.Reaches (initial mainThreadId count) world) :
    (∀ past event rest thread, world.state.log = past ++ event :: rest → event.thread = some thread → event.Acts →
      ¬ Failed thread past) ∧
    ∀ past rest thread fd p domain type protocol, world.state.log = past ++ .inserted thread fd p :: rest →
      callOf thread past = some (.socket domain type protocol) → Opens type (since thread past) := by
  have safe : failing.rules.Safe (initial mainThreadId count) := by
    refine Rules.Safe.initial (.nil _) ?_ fun thread => ?_
    · rintro name ⟨event, member, _⟩
      cases member
    · rintro ⟨past, format, arguments, rest, entry, split, _⟩
      simp at split
  have ledger : Ledger Stopped world.state.log :=
    failing_sound.everywhere safe rfl (fun _ kept => kept) (fun _ _ _ stepped => stepped) reached
  refine ⟨fun past event rest thread split owner acts => ?_, ?_⟩
  · have ordinary : event.begins thread = none := by cases event <;> first | exact acts.elim | rfl
    exact (ledger past event rest thread split owner ordinary).1 acts
  · intro past rest thread fd p domain type protocol split call
    exact (ledger past _ rest thread split rfl rfl).2 fd p domain type protocol rfl call

section runs

/-- The operations that `errorChoices` says nothing about, or that meet no error. -/
private def unnoticed (action : Action kernel) (world : World kernel) : Bool :=
  match action, world.current with
  | .continue input, some actor => match world.threads[actor]? with
    | some (.running (.op o _)) => match o with
      | .report .. => actor = world.state.mainThreadId
      | .openTransport .initOpenTransport _ => match input with
        | .status result => toOSErr result ≠ noErr
        | _ => true
      | .otOpenEndpoint _ => false
      | _ => true
    | _ => true
  | _, _ => true

private theorem unnoticed_allowed (action : Action kernel) (world : World kernel)
    (passed : unnoticed action world = true) :
    errorChoices.Allows action world := by
  cases action with
  | «continue» input =>
    intro actor o next current found
    simp only [unnoticed, current, found] at passed
    cases o with
    | report format arguments => exact fun _ _ _ => by simpa using passed
    | openTransport function endpoint =>
      cases function with
      | initOpenTransport =>
        rintro result rfl _
        simpa using passed
      | _ => trivial
    | otOpenEndpoint => cases passed
    | _ => trivial
  | _ => trivial

/-- The main thread meets an error in InitOpenTransport. -/
private def stopping : List (Action kernel) :=
  calling 0 (.socket 2 SOCK_STREAM 0) [[.status (-3279), .none, .none], [.none, .none]]

private def stopped : World kernel := (initial 0 1).after stopping

theorem error_stops_caller_main : Failed 0 stopped.state.log ∧ ∀ past event rest thread,
    stopped.state.log = past ++ event :: rest → event.thread = some thread → event.Acts → ¬ Failed thread past :=
  ⟨⟨stopped.state.log.take 2, _, _, [.disposed 0 0], .socket 2 SOCK_STREAM 0, rfl, rfl, trivial⟩,
    (@error_stops_caller 0 1 stopped (.passing _ unnoticed_allowed
      (show (initial 0 1).runWhere unnoticed stopping = some stopped from rfl))).1⟩

/-- Another thread meets the same error. -/
private def unstopped : World kernel :=
  (initial 0 2).after (calling 1 (.socket 2 SOCK_STREAM 0) [[.status (-3279), .none, .none], [.none, .none, .none],
    [.none], [.none, .none], [.status noErr, .none, .none], [.none, .status noErr, .none, .none],
    [.none, .status noErr, .none], [.none, .none, .none, .none], [.none]])

theorem error_goes_on : (Choices.all kernel).Reaches (initial 0 2) unstopped ∧
    ¬ ∀ past event rest thread, unstopped.state.log = past ++ event :: rest → event.thread = some thread → event.Acts →
      ¬ Failed thread past := by
  refine ⟨.after, fun stops => ?_⟩
  exact stops (unstopped.state.log.take 8) (.inserted 1 0 0) [.returned 1 (.int 0)] 1 rfl rfl trivial
    ⟨unstopped.state.log.take 2, _, _, (unstopped.state.log.take 8).drop 3, .socket 2 SOCK_STREAM 0, rfl, rfl, trivial⟩

end runs

end PowerBoot.PowerNet
