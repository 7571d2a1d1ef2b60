import PowerBoot.Transfer.Authentication
import PowerBoot.Transfer.Reports

/-! Failures of a set-up end it. Three of them are not looked at by the read thread: an
address that is none, a list of methods that is none, and a channel that is none. -/

namespace PowerBoot.Transfer
open Coop

/-- A call of the set-up failed, and not only for now. -/
def Answer.refuses : Answer → Bool
  | ⟨.socket, sock, _⟩ => sock = LIBSSH2_INVALID_SOCKET
  | ⟨.inetAddr, address, _⟩ => address = INADDR_NONE
  | ⟨.connect, rc, _⟩ => rc ≠ 0
  | ⟨.sessionHandshake, rc, _⟩ => rc ≠ 0 ∧ rc ≠ LIBSSH2_ERROR_EAGAIN
  | ⟨.userauthPublickeyFromfileEx, rc, _⟩ | ⟨.userauthPassword, rc, _⟩ => rc < 0 ∧ rc ≠ LIBSSH2_ERROR_EAGAIN
  | ⟨.userauthList, methods, errno⟩ => methods = none ∧ errno ≠ LIBSSH2_ERROR_EAGAIN
  | ⟨.sftpInit, pointer, errno⟩ | ⟨.channelOpenSession, pointer, errno⟩ => pointer = none ∧ errno ≠ LIBSSH2_ERROR_EAGAIN
  | _ => false

/-- The list of methods that one answer leaves. -/
def Answer.offers (list : Option String) : Answer → Option String
  | ⟨.userauthList, found, _⟩ => found
  | _ => list

/-- The methods of authentication that the member `userauthlist` names after these events. -/
def offered (this : Ptr) (methods : Option String) (log : List Event) : Option String :=
  log.foldl (fun list event => (event.answer this).elim list (·.offers list)) methods

/-- The set-up has failed with this event. After a key was refused it goes on where a
password can be tried. -/
def Event.Refuses (this : Ptr) (methods : Option String) (past : List Event) (event : Event) : Prop :=
  ∃ answer, event.answer this = some answer ∧ answer.refuses = true ∧
    (answer.function = .userauthPublickeyFromfileEx → ∀ list, offered this methods past = some list →
      strstr list "password" = false)

/-- All that a thread does is to ask for the message of an error, before it reports it. -/
def Reporting (this : Ptr) (thread : ThreadId) (events : List Event) : Prop :=
  ∀ {between event rest}, events = between ++ event :: rest → event.thread = thread →
    event.Excused this ∨ ∃ format arguments, .reported thread format arguments ∈ between

/-- After a failure no call of the set-up is made, the state is not Open, and the thread
reports the failure. -/
structure Terminal (this : Ptr) (methods : Option String) (client : Client) : Prop where
  stops : ∀ {past event rest}, client.log = past ++ event :: rest → event.Refuses this methods past →
    ∀ later ∈ rest, later.Aside this
  closed : ∀ {past event rest}, client.log = past ++ event :: rest → event.Refuses this methods past →
    (client.sftp this).readThreadState ≠ .open_
  reports : ∀ {past event rest}, client.log = past ++ event :: rest → event.Refuses this methods past →
    Reporting this event.thread rest

variable {build : Build} {strict : Bool} {this : Ptr} {methods : Option String} {log past : List Event} {event : Event}
  {answer : Answer} {stage next : Stage}

theorem offered_concat : offered this methods (log ++ [event]) =
    (event.answer this).elim (offered this methods log) fun answer => answer.offers (offered this methods log) := by
  simp only [offered, List.foldl_append, List.foldl_cons, List.foldl_nil]

/-- The list that the thread goes by at a stage. -/
def Stage.offers (methods : Option String) : Stage → Option (Option String)
  | .begun | .socketed | .addressed | .connected => some methods
  | .shaken list => some list
  | .refused list => some (some list)
  | _ => none

theorem Answer.offers_aside {list : Option String} (aside : answer.function.setsUp = false) :
    answer.offers list = list := by
  obtain ⟨function, result, errno⟩ := answer
  cases function <;> first | rfl | cases aside

theorem Stage.offers_next {list : Option String} (moved : stage.next methods answer = some next)
    (known : next.offers methods = some list) :
    ∃ before, stage.offers methods = some before ∧ answer.offers before = list := by
  have aside := fun list => @Answer.offers_aside answer list
  unfold Stage.next at moved
  split at moved
  all_goals grind [Stage.offers, Answer.offers]

theorem offered_stage {list : Option String} (ordered : stageOf strict this methods log = some stage)
    (known : stage.offers methods = some list) : offered this methods log = list := by
  induction log using List.reverseRecOn generalizing stage list with
  | nil =>
    cases ordered
    cases known
    rfl
  | append_singleton log event ih =>
    rw [stageOf_concat] at ordered
    obtain ⟨earlier, before, moved⟩ := Option.bind_eq_some_iff.mp ordered
    rw [offered_concat]
    unfold Stage.event at moved
    cases shown : event.answer this with
    | none =>
      simp only [shown, Option.some.injEq] at moved
      subst moved
      exact ih before known
    | some answer =>
      simp only [shown, Option.map_eq_some_iff] at moved
      obtain ⟨next, moved, same⟩ := moved
      split at same
      · subst same
        cases known
      · subst same
        obtain ⟨early, stood, rfl⟩ := Stage.offers_next moved known
        rw [ih before stood]
        rfl

theorem Answer.refuses_setsUp (refuses : answer.refuses = true) : answer.function.setsUp = true := by
  obtain ⟨function, result, errno⟩ := answer
  cases function <;> first | rfl | cases refuses

/-- A failure leads to the stage of failures. -/
theorem Stage.refused_next (moved : stage.next methods answer = some next) (refuses : answer.refuses = true)
    (checked : answer.unchecked = false) (last : answer.function = .userauthPublickeyFromfileEx →
      ∀ list, stage = .shaken (some list) → strstr list "password" = false) : next = .failed := by
  have call := Answer.refuses_setsUp refuses
  unfold Stage.next at moved
  split at moved
  all_goals grind [Answer.refuses, Answer.unchecked]

theorem stageOf_refused (ordered : stageOf true this methods (past ++ [event]) = some stage)
    (refuses : event.Refuses this methods past) : stage = .failed := by
  rw [stageOf_concat] at ordered
  obtain ⟨earlier, before, moved⟩ := Option.bind_eq_some_iff.mp ordered
  obtain ⟨answer, shown, refused, last⟩ := refuses
  simp only [Stage.event, shown, Option.map_eq_some_iff, Bool.true_and] at moved
  obtain ⟨next, moved, same⟩ := moved
  split at same
  · exact same.symm
  next checked =>
    subst same
    refine Stage.refused_next moved refused (by simpa using checked) fun key list shaken => last key list ?_
    exact offered_stage before (by rw [shaken]; rfl)

theorem Event.Refuses.call (refuses : event.Refuses this methods past) : ¬ event.Aside this := by
  obtain ⟨answer, shown, refused, _⟩ := refuses
  intro aside
  cases (Answer.refuses_setsUp refused).symm.trans (aside answer shown)

theorem Event.owns_of_answer (shown : event.answer this = some answer) : event.owns this = none := by
  cases event <;> first | rfl | cases shown

theorem Reported.after {thread : ThreadId} {between : List Event}
    (reported : Reported strict this methods thread (past ++ event :: between)) (call : ¬ event.Aside this)
    (ordered : stageOf strict this methods (past ++ [event]) = some stage) :
    ∃ format arguments, .reported thread format arguments ∈ between := by
  obtain ⟨early, format, arguments, rest, split, failed⟩ := reported
  refine ⟨format, arguments, ?_⟩
  rw [List.append_cons] at split
  rcases List.append_eq_append_iff.mp split with ⟨more, rfl, same⟩ | ⟨more, same, rest⟩
  · exact same ▸ List.mem_append_right _ (List.mem_cons_self ..)
  · rcases List.eq_nil_or_concat more with rfl | ⟨more, last, rfl⟩
    · rw [List.nil_append] at rest
      exact rest ▸ List.mem_cons_self ..
    · rw [List.concat_eq_append, ← List.append_assoc] at same
      obtain ⟨rfl, here⟩ := List.append_inj' same rfl
      cases here
      rw [List.append_assoc] at ordered
      obtain ⟨_, asides⟩ := stageOf_last (Or.inl rfl) failed ordered
      exact (call (asides event (List.mem_append_right _ (List.mem_singleton_self _)))).elim

theorem Setting.terminal {client : Client} (setting : Setting true this methods build client) :
    Terminal this methods client := by
  have after {past event rest} (split : client.log = past ++ event :: rest)
    (refuses : event.Refuses this methods past) :
      stageOf true this methods (past ++ [event]) = some .failed ∧ stageOf true this methods client.log = some .failed ∧
        ∀ later ∈ rest, later.Aside this := by
    obtain ⟨last, ordered⟩ := setting.ordered
    rw [split, List.append_cons] at ordered
    obtain ⟨stage, now⟩ := stageOf_prefix ordered
    obtain rfl := stageOf_refused now refuses
    obtain ⟨rfl, asides⟩ := stageOf_last (Or.inl rfl) now ordered
    exact ⟨now, by rwa [split, List.append_cons], asides⟩
  refine ⟨fun split refuses => (after split refuses).2.2, fun split refuses open_ => ?_, ?_⟩
  · obtain ⟨opened, stage⟩ := setting.open_ open_
    cases (after split refuses).2.1.symm.trans stage
  · intro past event rest split refuses between next more inside own
    obtain ⟨failed, _, asides⟩ := after split refuses
    have still {some_ more : List Event} (part : rest = some_ ++ more) :
        stageOf true this methods (past ++ event :: some_) = some .failed := by
      rw [List.append_cons, stageOf_asides fun found member => asides found (part ▸ List.mem_append_left _ member)]
      exact failed
    have owns : event.owns this = none := by
      obtain ⟨answer, shown, _⟩ := refuses
      exact Event.owns_of_answer shown
    have owner : owner this (past ++ event :: between) = some next.thread := by
      rw [owner_kept, own]
      · exact (setting.owned past event rest split).1 refuses.call
      · intro found member
        rcases List.mem_cons.mp member with rfl | member
        · exact owns
        · by_contra handed
          obtain ⟨first, last, rfl⟩ := List.append_of_mem member
          have begun :=
            (setting.owned (past ++ event :: first) found (last ++ next :: more) (by simp [split, inside])).2 handed
          cases begun.symm.trans (@still first (found :: last ++ next :: more) (by simp [inside]))
    rcases setting.failing (past ++ event :: between) next more (by simp [split, inside]) (still inside) owner with
      excused | reported
    · exact Or.inl excused
    · exact Or.inr (own ▸ reported.after refuses.call failed)

/-- In every run of one object in which the failures do not occur that are not looked at,
each failure of its set-up is terminal. A read thread whose script makes the set-up fail
gets to the report. -/
theorem failures_terminal {client : Client} {count : Nat} (starts : client.Starts count)
    (unconnected : (client.sftp this).readThreadState = .uninitialized) {world : World (kernel build)}
    (reached : (checking build this).Reaches (World.initial client count) world) :
    Terminal this (client.sftp this).userauthlist world.state ∧
      ∀ {thread options current}, Doomed build thread this (current.sftp this).userauthlist .begun current →
        (current.sftp this).readThreadCommand ≠ .exit →
          Reports build thread (readThread build this options) current := by
  have set : Setting true this (client.sftp this).userauthlist build world.state :=
    setting_everywhere starts unconnected reached
  exact ⟨set.terminal, fun doomed command => readThread_reports doomed rfl command⟩

section runs

/-- The only call is one of `connect`, and no failure occurs that is not looked at. -/
def checkingTest (action : Action (kernel build)) (world : World (kernel build)) : Bool :=
  match action, world.current with
  | .continue input, some actor => match world.threads[actor]? with
    | some (.running (.op (.library object call) _)) =>
      match world.state.answer object call.function input with
      | some (answer, _) => !answer.unchecked
      | none => true
    | _ => true
  | action, _ => connectTest action world

theorem checkingTest_allows (action : Action (kernel build)) (world : World (kernel build))
    (passed : checkingTest action world = true) : (checking build 0).Allows action world := by
  cases action with
  | «continue» input =>
    intro actor o next current found
    cases o with
    | library object call =>
      intro answer script answered
      simpa only [checkingTest, current, found, answered, Bool.not_eq_true'] using passed
    | _ => trivial
  | call | resume | environment =>
    exact connectTest_allows _ world (by simpa only [checkingTest] using passed)

def socketless : Client := answering 0 [⟨.socket, LIBSSH2_INVALID_SOCKET, 0⟩]

def refused : World (kernel (.direct false)) :=
  (World.initial socketless 1).after (calling (.direct false) 0 (.connect 0 account) (steps [5]))

theorem failures_terminal_socket : Terminal 0 none refused.state ∧
    Reports (.direct false) 0 (readThread (.direct false) 0 account) socketless := by
  have ends := @failures_terminal (.direct false) 0 socketless 1 ⟨rfl, Nat.zero_lt_one⟩ rfl refused
    (.tested _ checkingTest_allows (by decide +kernel))
  have direct : Build.direct false ≠ .retro := by decide
  exact ⟨ends.1, ends.2 ⟨fun retro => (direct retro).elim, rfl⟩ (by decide)⟩

def addressless : Client := answering 0 [⟨.socket, (3 : Int), 0⟩, ⟨.inetAddr, INADDR_NONE, 0⟩, ⟨.connect, (0 : Int), 0⟩]

/-- Its address is a name, which inet_addr does not look up. -/
def hostNamed : ConnectionOptions := { account with addr := "localhost" }

def unaddressed : World (kernel (.direct false)) :=
  (World.initial addressless 1).after (calling (.direct false) 0 (.connect 0 hostNamed) (steps [7]))

/-- The socket is connected to the address that is none. -/
theorem failure_passed : (connecting (.direct false) 0).Reaches (World.initial addressless 1) unaddressed ∧
    ¬ Terminal 0 none unaddressed.state := by
  refine ⟨.tested _ connectTest_allows (by decide +kernel), fun terminal => ?_⟩
  have split : unaddressed.state.log =
      [.called 0 (.connect 0 hostNamed), .library 0 0 .socket ⟨.socket, (3 : Int), 0⟩] ++
      .library 0 0 (.inetAddr "localhost") ⟨.inetAddr, INADDR_NONE, 0⟩ ::
        [.library 0 0 (.connect 3 INADDR_NONE 22) ⟨.connect, (0 : Int), 0⟩] := rfl
  have refuses : Event.Refuses 0 none [.called 0 (.connect 0 hostNamed), .library 0 0 .socket ⟨.socket, (3 : Int), 0⟩]
      (.library 0 0 (.inetAddr "localhost") ⟨.inetAddr, INADDR_NONE, 0⟩) := ⟨_, rfl, rfl, fun key => by cases key⟩
  cases terminal.stops split refuses _ (List.mem_singleton_self _) _ rfl

end runs

end PowerBoot.Transfer
