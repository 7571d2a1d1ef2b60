import PowerBoot.Transfer.Attempts
import PowerBoot.Transfer.Reader

/-! No session without authentication. What a stage of the set-up says about the answers
before it holds of every run, since the client goes from stage to stage. -/

namespace PowerBoot.Transfer
open Coop

/-- What has to be reached on the way to a session, in this order. -/
inductive Milestone where
  | shaken
  | authenticated
  | initialized (pointer : Ptr)
deriving DecidableEq

def Answer.milestone : Answer → Option Milestone
  | ⟨.sessionHandshake, rc, _⟩ => if rc = 0 then some .shaken else none
  | ⟨.userauthPublickeyFromfileEx, rc, _⟩ | ⟨.userauthPassword, rc, _⟩ => if rc ≥ 0 then some .authenticated else none
  | ⟨.sftpInit, pointer, _⟩ => pointer.map .initialized
  | _ => none

/-- What the answers to calls on the object reached. -/
def milestones (this : Ptr) (log : List Event) : List Milestone :=
  log.filterMap fun event => (event.answer this).bind Answer.milestone

/-- The calls that send the credentials. -/
def Call.sendsCredentials : Call → Bool
  | .userauthPublickeyFromfileEx .. | .userauthPassword .. => true
  | _ => false

/-- What the calls of a set-up come after, and the return of `connect`. -/
structure Authenticates (this : Ptr) (client : Client) : Prop where
  credentials : ∀ {past rest actor call answer}, client.log = past ++ .library actor this call answer :: rest →
    call.sendsCredentials = true → milestones this past = [.shaken]
  initializes : ∀ {past rest actor answer}, client.log = past ++ .library actor this .sftpInit answer :: rest →
    milestones this past = [.shaken, .authenticated]
  returns : ∀ {past rest actor}, client.log = past ++ .returned actor (.connected this) :: rest →
    ∃ pointer, (client.sftp this).sftpPointer = some pointer ∧
      milestones this past = [.shaken, .authenticated, .initialized pointer]

/-- What was reached before a stage. -/
def Stage.milestones : Stage → Option (List Milestone)
  | .begun | .socketed | .addressed | .connected => some []
  | .shaken _ | .refused _ => some [.shaken]
  | .authenticated => some [.shaken, .authenticated]
  | .initialized pointer | .opened pointer => some [.shaken, .authenticated, .initialized pointer]
  | .failed => none

variable {build : Build} {strict : Bool} {this : Ptr} {methods : Option String} {log : List Event} {event : Event}
  {answer : Answer} {earlier stage : Stage} {reached : List Milestone}

@[simp] theorem milestones_concat : milestones this (log ++ [event]) =
    milestones this log ++ ((event.answer this).bind Answer.milestone).toList := by
  simp [milestones, List.filterMap_cons]
  split <;> simp_all

theorem Answer.milestone_aside (aside : answer.function.setsUp = false) : answer.milestone = none := by
  obtain ⟨function, result, errno⟩ := answer
  cases function <;> first | rfl | cases aside

theorem Stage.milestones_next (moved : earlier.next methods answer = some stage)
    (now : stage.milestones = some reached) :
    ∃ before, earlier.milestones = some before ∧ reached = before ++ answer.milestone.toList := by
  have again : LIBSSH2_ERROR_EAGAIN ≠ 0 := by decide
  have aside := @Answer.milestone_aside answer
  unfold Stage.next at moved
  split at moved
  all_goals grind [Stage.milestones, Answer.milestone]

theorem milestones_stage (ordered : stageOf strict this methods log = some stage)
    (known : stage.milestones = some reached) :
    milestones this log = reached := by
  induction log using List.reverseRecOn generalizing stage reached with
  | nil =>
    cases ordered
    cases known
    rfl
  | append_singleton log event ih =>
    rw [stageOf_concat] at ordered
    obtain ⟨earlier, before, moved⟩ := Option.bind_eq_some_iff.mp ordered
    rw [milestones_concat]
    unfold Stage.event at moved
    cases shown : event.answer this with
    | none =>
      simp only [shown, Option.some.injEq] at moved
      subst moved
      simpa using ih before known
    | some answer =>
      simp only [shown, Option.map_eq_some_iff] at moved
      obtain ⟨next, moved, same⟩ := moved
      split at same
      · subst same
        cases known
      · subst same
        obtain ⟨early, stood, rfl⟩ := Stage.milestones_next moved known
        rw [ih before stood]
        rfl

/-- Where a call of the set-up was made, its stage tells what had been reached. -/
theorem stage_of_call {rest : List Event} {actor : ThreadId} {call : Call} {last : Stage}
    (ordered : stageOf strict this methods (log ++ .library actor this call answer :: rest) = some last) :
    ∃ earlier next, stageOf strict this methods log = some earlier ∧ earlier.next methods answer = some next := by
  rw [← List.singleton_append, ← List.append_assoc] at ordered
  obtain ⟨stage, ordered⟩ := stageOf_prefix ordered
  rw [stageOf_concat] at ordered
  obtain ⟨earlier, before, moved⟩ := Option.bind_eq_some_iff.mp ordered
  simp only [Stage.event, Event.answer, if_true, Option.map_eq_some_iff] at moved
  obtain ⟨next, moved, _⟩ := moved
  exact ⟨earlier, next, before, moved⟩

theorem Stage.credentials {next : Stage} (moved : earlier.next methods answer = some next)
    (sends : answer.function = .userauthPublickeyFromfileEx ∨ answer.function = .userauthPassword) :
    earlier.milestones = some [.shaken] := by
  unfold Stage.next at moved
  split at moved
  all_goals grind [Stage.milestones, Function.setsUp]

theorem Stage.initializes {next : Stage} (moved : earlier.next methods answer = some next)
    (sends : answer.function = .sftpInit) : earlier.milestones = some [.shaken, .authenticated] := by
  unfold Stage.next at moved
  split at moved
  all_goals grind [Stage.milestones, Function.setsUp]

/-- Every answer is one to its call. -/
def Matched (client : Client) : Prop :=
  ∀ {actor object call answer}, .library actor object call answer ∈ client.log → answer.function = call.function

theorem Matched.record {client : Client} (matched : Matched client)
    (other : ∀ actor object call answer, event ≠ .library actor object call answer) :
      Matched (client.record event) := by
  intro actor object call answer member
  rcases List.mem_append.mp member with before | now
  · exact matched before
  · exact (other _ _ _ _ (List.mem_singleton.mp now).symm).elim

theorem matched_steps : (kernel build).Steps fun before after => Matched before → Matched after where
  exec {thread o input client reply after} executed matched := by
    obtain ⟨events, log, logs⟩ := exec_log executed
    intro actor object call answer member
    rw [log] at member
    rcases List.mem_append.mp member with before | now
    · exact matched before
    · cases o with
      | library =>
        obtain ⟨found, given, rfl⟩ := logs
        cases List.mem_singleton.mp now
        rw [Answer.for_iff.mp given]
      | waited | report | noMessage =>
        cases (show events = _ from logs)
        cases List.mem_singleton.mp now
      | _ =>
        cases (show events = _ from logs)
        cases now
  called {thread entry client after} called matched := by
    cases entry with
    | readThread => cases called
    | _ =>
      cases called
      exact matched.record fun _ _ _ _ same => by cases same
  spawned {thread child entry client} matched :=
    @Matched.record (.spawned thread child entry) { client with readThreadId := some child } matched
      fun _ _ _ _ same => by cases same
  disposed matched := matched.record fun _ _ _ _ same => by cases same
  exited matched := matched.record fun _ _ _ _ same => by cases same
  returned matched := matched.record fun _ _ _ _ same => by cases same
  threw matched := matched.record fun _ _ _ _ same => by cases same
  environment {input client after} moved matched := by
    cases input with
    | command =>
      cases moved
      exact matched
    | _ => cases moved

theorem Setting.authenticates {client : Client} (setting : Setting strict this methods build client)
    (matched : Matched client) : Authenticates this client where
  credentials {past rest actor call answer} split sends := by
    obtain ⟨last, ordered⟩ := setting.ordered
    rw [split] at ordered
    obtain ⟨earlier, next, before, moved⟩ := stage_of_call ordered
    refine milestones_stage before (Stage.credentials moved ?_)
    rw [matched (split ▸ List.mem_append_right _ (List.mem_cons_self ..))]
    cases call <;> cases sends
    · exact Or.inl rfl
    · exact Or.inr rfl
  initializes {past rest actor answer} split := by
    obtain ⟨last, ordered⟩ := setting.ordered
    rw [split] at ordered
    obtain ⟨earlier, next, before, moved⟩ := stage_of_call ordered
    exact milestones_stage before
      (Stage.initializes moved (matched (split ▸ List.mem_append_right _ (List.mem_cons_self ..))))
  returns {past rest actor} split := by
    obtain ⟨_, pointer, before⟩ := setting.returns past _ rest split actor rfl
    obtain ⟨last, ordered⟩ := setting.ordered
    rw [split] at ordered
    obtain ⟨rfl, _⟩ := stageOf_last (Or.inr ⟨pointer, rfl⟩) before ordered
    exact ⟨pointer, setting.pointer (split ▸ ordered), milestones_stage before rfl⟩

/-- In every run in which one object is connected, the credentials are sent only after the
handshake, a session is initialized only after they were accepted, and `connect` returns
only after that. -/
theorem connect_authenticates {client : Client} {count : Nat} (starts : client.Starts count)
    (unconnected : (client.sftp this).readThreadState = .uninitialized) {world : World (kernel build)}
    (reached : (connecting build this).Reaches (World.initial client count) world) :
    Authenticates this world.state := by
  have set : Setting false this (client.sftp this).userauthlist build world.state :=
    setting_everywhere starts unconnected reached
  refine set.authenticates (matched_steps.reaches (fun _ matched => matched)
    (fun early late matched => late (early matched)) reached fun member => ?_)
  rw [World.initial, starts.log] at member
  cases member

section runs

/-- The only call is one of `connect` for object 0. -/
def connectTest (action : Action (kernel build)) (world : World (kernel build)) : Bool :=
  match action with
  | .call _ (.connect this _) => this = 0 && (owner 0 world.state.log).isNone
  | .call .. => false
  | _ => true

theorem connectTest_allows (action : Action (kernel build)) (world : World (kernel build))
    (passed : connectTest action world = true) : (connecting build 0).Allows action world := by
  cases action with
  | call thread entry =>
    cases entry with
    | connect this options =>
      obtain ⟨rfl, fresh⟩ : this = 0 ∧ owner 0 world.state.log = none := by simpa [connectTest] using passed
      exact ⟨rfl, fresh⟩
    | _ => cases passed
  | «continue» => exact fun _ _ _ _ _ => trivial
  | resume | environment => trivial

def account : ConnectionOptions where
  addr := "10.0.0.1"
  port := 22
  username := "user"
  password := "secret"
  pubkey := "id.pub"
  privkey := "id"

def accepting : Client := answering 0 [⟨.socket, (3 : Int), 0⟩, ⟨.inetAddr, (0x0A000001 : Nat), 0⟩,
  ⟨.connect, (0 : Int), 0⟩, ⟨.sessionHandshake, (0 : Int), 0⟩, ⟨.hostkeyHash, none, 0⟩,
  ⟨.userauthList, some "password", 0⟩, ⟨.userauthPassword, (0 : Int), 0⟩, ⟨.sftpInit, some 7, 0⟩,
  ⟨.channelOpenSession, some 8, 0⟩]

/-- The sections of the read thread up to its end, where it waits for the socket once. -/
def readerSections : List (List Input) :=
  steps [2, 2, 4, 2, 3, 2, 4, 2] ++
    [[.none, .none, .dir 0, .none, .none, .select (.returns 0), .none, .none, .none, .none]] ++
    steps [3, 2, 1, 2, 2, 3, 2, 6, 2]

/-- Thread 0 calls `connect`, thread 1 sets the object up, and thread 0 finds the state Open. -/
def connects : List (Action (kernel .retro)) :=
  calling .retro 0 (.connect 0 account) [.status 0 :: List.replicate 4 .none] ++ World.alone 1 readerSections ++
    World.alone 0 (steps [3])

def connected : World (kernel .retro) := (World.initial accepting 1).after connects

theorem connected_reached : (connecting .retro 0).Reaches (World.initial accepting 1) connected := by
  exact .tested _ connectTest_allows (by decide +kernel)

theorem connect_authenticates_once : Authenticates 0 connected.state ∧
    connected.state.log.getLast? = some (.returned 0 (.connected 0)) :=
  ⟨@connect_authenticates .retro 0 accepting 1 ⟨rfl, Nat.zero_lt_one⟩ rfl connected connected_reached, rfl⟩

end runs

end PowerBoot.Transfer
