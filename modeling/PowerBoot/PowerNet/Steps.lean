import PowerBoot.Coop.Routine
import PowerBoot.PowerNet.Calls
import PowerBoot.PowerNet.History

/-! What one operation of PowerNet can do to each part of the shared state. The
properties below are proved from these facts, and not from `exec` again. -/

namespace PowerBoot.PowerNet
open Coop

@[simp] theorem Net.record_log (event : Event) (net : Net) : (net.record event).log = net.log ++ [event] := rfl
@[simp] theorem Net.record_heap (event : Event) (net : Net) : (net.record event).heap = net.heap := rfl
@[simp] theorem Net.record_openSockets (event : Event) (net : Net) :
    (net.record event).openSockets = net.openSockets := rfl
@[simp] theorem Net.record_endpoints (event : Event) (net : Net) : (net.record event).endpoints = net.endpoints := rfl
@[simp] theorem Net.record_finished (event : Event) (net : Net) : (net.record event).finished = net.finished := rfl
@[simp] theorem Net.record_mainThreadId (event : Event) (net : Net) :
    (net.record event).mainThreadId = net.mainThreadId := rfl
@[simp] theorem Net.record_lookup (event : Event) (net : Net) (fd : Nat) :
    (net.record event).lookup fd = net.lookup fd := rfl
@[simp] theorem Net.record_endpointAt (event : Event) (net : Net) (socket : Ptr) :
    (net.record event).endpointAt socket = net.endpointAt socket := rfl

/-- The events of an operation that was answered with `reply`. -/
def Op.events (thread : ThreadId) : (o : Op) → o.Reply → List Event
  | .newSocket, reply => [.created thread reply]
  | .recvHalt socket, _ => [.readRecvHalt thread socket]
  | .sendHalt socket, _ => [.readSendHalt thread socket]
  | .lookup fd, reply => [.lookedUp thread fd reply]
  | .insert fd socket, _ => [.inserted thread fd socket]
  | .setFinished value, _ => [.setFinished thread value]
  | .report format arguments, _ => [.reported thread format arguments]
  | .openTransport function endpoint, result => [.openTransport thread (.status function endpoint result)]
  | .otOpenEndpoint _, reply => [.openTransport thread (.openEndpoint reply.1 reply.2)]
  | .otInstallNotifier endpoint _, result => [.openTransport thread (.installNotifier endpoint result)]
  | .otConnect endpoint address, result => [.openTransport thread (.connect endpoint address result)]
  | .otRcv endpoint nbytes, reply => [.openTransport thread (.rcv endpoint nbytes reply.1 reply.2.1)]
  | .otSnd endpoint buf, result => [.openTransport thread (.snd endpoint buf result)]
  | .mainThreadId, _ | .load _, _ | .assign .., _ | .size, _ | .finished, _ => []

def Op.heap : Op → List Socket → List Socket
  | .newSocket, heap => heap ++ [{}]
  | .assign socket member, heap => heap.modify socket member.apply
  | _, heap => heap

/-- What holds of a new socket and is kept by the assignment at hand holds of all. -/
theorem Op.heap_forall {o : Op} {heap : List Socket} {property : Socket → Prop} (new : property {})
    (assigned : ∀ socket member, o = .assign socket member → ∀ s, property s → property (member.apply s))
    (all : ∀ s ∈ heap, property s) : ∀ s ∈ o.heap heap, property s := by
  cases o with
  | newSocket =>
    intro s found
    rcases List.mem_append.mp found with old | fresh
    · exact all s old
    · exact List.mem_singleton.mp fresh ▸ new
  | assign socket member =>
    intro s found
    obtain ⟨index, inside, rfl⟩ := List.mem_iff_getElem.mp found
    simp only [Op.heap, List.getElem_modify]
    split
    · exact assigned socket member rfl _ (all _ (List.getElem_mem _))
    · exact all _ (List.getElem_mem _)
  | _ => exact all

def Op.openSockets : Op → Net → List (Nat × Ptr)
  | .insert fd socket, net => (net.insert fd socket).openSockets
  | _, net => net.openSockets

/-- What a reply tells about the state it was given in. -/
def Op.Answers : (o : Op) → o.Reply → Net → Prop
  | .mainThreadId, reply, net => reply = net.mainThreadId
  | .newSocket, reply, net => reply = net.heap.length
  | .load socket, reply, net => net.heap[socket]? = some reply
  | .recvHalt socket, reply, net => ∃ s, net.heap[socket]? = some s ∧ reply = s.recvHalt
  | .sendHalt socket, reply, net => ∃ s, net.heap[socket]? = some s ∧ reply = s.sendHalt
  | .assign socket _, _, net => socket < net.heap.length
  | .lookup fd, reply, net => reply = net.lookup fd
  | .size, reply, net => reply = net.openSockets.length
  | .finished, reply, net => reply = net.finished
  | .otRcv _ nbytes, reply, _ =>
    reply.1 = reply.2.1.length ∧ reply.2.1.length ≤ nbytes ∨ reply.1 < 0 ∧ reply.2.1 = []
  | .otOpenEndpoint _, reply, net => reply.1 = none ∨ reply.1 = some net.endpoints.length
  | .otSnd endpoint buf, reply, _ => (∃ ref, endpoint = some ref) ∧ 0 ≤ reply ∧ reply ≤ buf.length ∨ reply < 0
  | _, _, _ => True

def Op.opens : (o : Op) → o.Reply → Nat
  | .otOpenEndpoint _, reply => if reply.1.isSome then 1 else 0
  | _, _ => 0

def Op.finishedAfter : Op → Bool → Bool
  | .setFinished value, _ => value
  | _, before => before

/-- The bytes an endpoint holds in one of its queues; none before it is opened. -/
def Net.queue (queue : Endpoint → Bytes) (ref : EndpointRef) (net : Net) : Bytes :=
  (net.endpoints[ref]?.map queue).getD []

abbrev Net.arrived : EndpointRef → Net → Bytes := Net.queue Endpoint.arrived
abbrev Net.unread : EndpointRef → Net → Bytes := Net.queue Endpoint.unread
abbrev Net.accepted : EndpointRef → Net → Bytes := Net.queue Endpoint.accepted

@[simp] theorem Net.record_queue (event : Event) (net : Net) (queue : Endpoint → Bytes) (ref : EndpointRef) :
    (net.record event).queue queue ref = net.queue queue ref := rfl

theorem Net.queue_congr {before after : Net} (same : after.endpoints = before.endpoints)
    (queue : Endpoint → Bytes) (ref : EndpointRef) : after.queue queue ref = before.queue queue ref := by
  simp only [Net.queue, same]

theorem Net.queue_update {net : Net} {changed : EndpointRef} {held : Endpoint}
    (found : net.endpoints[changed]? = some held) (change : Endpoint → Endpoint)
    (queue : Endpoint → Bytes) (ref : EndpointRef) :
    (net.updateEndpoint changed change).queue queue ref =
      if changed = ref then queue (change held) else net.queue queue ref := by
  simp only [Net.queue, Net.updateEndpoint, List.getElem?_modify]
  split
  next same => subst same; simp [found]
  next => simp

theorem Net.queue_update_same (net : Net) (changed : EndpointRef) (change : Endpoint → Endpoint)
    (queue : Endpoint → Bytes) (unchanged : ∀ held, queue (change held) = queue held) (ref : EndpointRef) :
    (net.updateEndpoint changed change).queue queue ref = net.queue queue ref := by
  cases found : net.endpoints[changed]? with
  | some held =>
    rw [Net.queue_update found, unchanged]
    split
    next same => subst same; simp [Net.queue, found]
    next => rfl
  | none =>
    have absent := List.getElem?_eq_none_iff.mp found
    simp only [Net.queue, Net.updateEndpoint, List.modify_eq_self absent]

theorem Net.queue_open (net : Net) (queue : Endpoint → Bytes) (empty : queue {} = []) (ref : EndpointRef) :
    ({ net with endpoints := net.endpoints ++ [({} : Endpoint)] } : Net).queue queue ref = net.queue queue ref := by
  simp only [Net.queue, List.getElem?_append, List.getElem?_singleton]
  split
  · rfl
  next outside =>
    rw [List.getElem?_eq_none (Nat.not_lt.mp outside)]
    split <;> simp [empty]

/-- The bytes an event takes out of an endpoint. -/
def Event.moved (ref : EndpointRef) : Event → Bytes
  | .openTransport _ (.rcv endpoint _ _ bytes) => if endpoint = some ref then bytes else []
  | _ => []

/-- The bytes an event makes an endpoint accept. -/
def Event.sent (ref : EndpointRef) : Event → Bytes
  | .openTransport _ (.snd endpoint offered result) => if endpoint = some ref then offered.take result.toNat else []
  | _ => []

section exec
variable {thread : ThreadId} {o : Op} {input : Input} {net after : Net} {reply : o.Reply}

/-- Everything but the queues of one endpoint. -/
private def SameBut (net after : Net) : Prop :=
  after.log = net.log ∧ after.heap = net.heap ∧ after.openSockets = net.openSockets ∧
    after.finished = net.finished ∧ after.mainThreadId = net.mainThreadId ∧
    after.endpoints.length = net.endpoints.length

private theorem otRcv_does {endpoint : Option EndpointRef} {nbytes : Nat} {result : Int × Bytes × OTFlags}
    (executed : otRcv endpoint nbytes input net = some (result, after)) :
    SameBut net after ∧
    (result.1 = result.2.1.length ∧ result.2.1.length ≤ nbytes ∨ result.1 < 0 ∧ result.2.1 = []) ∧
    ∀ ref, after.arrived ref = net.arrived ref ∧ after.accepted ref = net.accepted ref ∧
      net.unread ref = (if endpoint = some ref then result.2.1 else []) ++ after.unread ref := by
  cases input with
  | moved count flags =>
    simp only [otRcv, Option.bind_eq_bind, Option.bind_eq_some_iff] at executed
    obtain ⟨changed, rfl, held, found, executed⟩ := executed
    split at executed
    next fits =>
      cases executed
      refine ⟨⟨rfl, rfl, rfl, rfl, rfl, by simp [Net.updateEndpoint]⟩, Or.inl ?_, ?_⟩
      · simp only [List.length_take]
        omega
      · intro ref
        refine ⟨Net.queue_update_same _ _ (.discard count) _ (fun _ => rfl) ref,
          Net.queue_update_same _ _ (.discard count) _ (fun _ => rfl) ref, ?_⟩
        simp only [Net.unread, Net.queue_update found, Option.some.injEq]
        split
        next same => subst same; simp [Net.queue, found, Endpoint.discard]
        next => rfl
    · cases executed
  | status code =>
    simp only [otRcv] at executed
    split at executed
    next negative =>
      cases executed
      exact ⟨⟨rfl, rfl, rfl, rfl, rfl, rfl⟩, Or.inr ⟨negative, rfl⟩, fun ref => ⟨rfl, rfl, by simp⟩⟩
    · cases executed
  | none | arrive | close => simp [otRcv] at executed

private theorem otSnd_does {endpoint : Option EndpointRef} {buf : Bytes} {result : Int}
    (executed : otSnd endpoint buf input net = some (result, after)) :
    SameBut net after ∧
    ((∃ ref, endpoint = some ref) ∧ 0 ≤ result ∧ result ≤ buf.length ∨ result < 0) ∧
    ∀ ref, after.arrived ref = net.arrived ref ∧ after.unread ref = net.unread ref ∧
      after.accepted ref = net.accepted ref ++ if endpoint = some ref then buf.take result.toNat else [] := by
  cases input with
  | moved count flags =>
    simp only [otSnd, Option.bind_eq_bind, Option.bind_eq_some_iff] at executed
    obtain ⟨changed, rfl, held, found, executed⟩ := executed
    split at executed
    next fits =>
      cases executed
      refine ⟨⟨rfl, rfl, rfl, rfl, rfl, by simp [Net.updateEndpoint]⟩, Or.inl ⟨⟨changed, rfl⟩, by omega, by omega⟩, ?_⟩
      intro ref
      refine ⟨Net.queue_update_same _ _ (.accept _) _ (fun _ => rfl) ref,
        Net.queue_update_same _ _ (.accept _) _ (fun _ => rfl) ref, ?_⟩
      simp only [Net.accepted, Net.queue_update found, Option.some.injEq]
      split
      next same => subst same; simp [Net.queue, found, Endpoint.accept]
      next => simp
    · cases executed
  | status code =>
    simp only [otSnd] at executed
    split at executed
    next negative =>
      cases executed
      have nothing : buf.take result.toNat = [] := by
        rw [Int.toNat_of_nonpos (Int.le_of_lt negative)]
        rfl
      exact ⟨⟨rfl, rfl, rfl, rfl, rfl, rfl⟩, Or.inr negative, fun ref => ⟨rfl, rfl, by simp [nothing]⟩⟩
    · cases executed
  | none | arrive | close => simp [otSnd] at executed

@[simp] private theorem insert_frame (fd : Nat) (socket : Ptr) :
    (net.insert fd socket).log = net.log ∧ (net.insert fd socket).heap = net.heap ∧
    (net.insert fd socket).endpoints = net.endpoints ∧ (net.insert fd socket).finished = net.finished ∧
    (net.insert fd socket).mainThreadId = net.mainThreadId := by
  unfold Net.insert
  split <;> exact ⟨rfl, rfl, rfl, rfl, rfl⟩

/-- One operation, answered with `reply`: what the answer says about the state and
what becomes of each part of it. -/
structure Does (thread : ThreadId) (o : Op) (reply : o.Reply) (net after : Net) : Prop where
  answer : o.Answers reply net
  log : after.log = net.log ++ o.events thread reply
  heap : after.heap = o.heap net.heap
  openSockets : after.openSockets = o.openSockets net
  finished : after.finished = o.finishedAfter net.finished
  mainThreadId : after.mainThreadId = net.mainThreadId
  endpoints : after.endpoints.length = net.endpoints.length + o.opens reply
  arrived : ∀ ref, after.arrived ref = net.arrived ref
  unread : ∀ ref, net.unread ref = (o.events thread reply).flatMap (Event.moved ref) ++ after.unread ref
  accepted : ∀ ref, after.accepted ref = net.accepted ref ++ (o.events thread reply).flatMap (Event.sent ref)

private theorem Does.quiet {thread : ThreadId} {o : Op} {reply : o.Reply} {net after : Net}
    (answer : o.Answers reply net) (log : after.log = net.log ++ o.events thread reply)
    (heap : after.heap = o.heap net.heap) (openSockets : after.openSockets = o.openSockets net)
    (finished : after.finished = o.finishedAfter net.finished) (main : after.mainThreadId = net.mainThreadId)
    (endpoints : after.endpoints.length = net.endpoints.length + o.opens reply)
    (queues : ∀ queue : Endpoint → Bytes, queue {} = [] →
      (∀ held usrPtr, queue { held with notifier := usrPtr } = queue held) →
      ∀ ref, after.queue queue ref = net.queue queue ref)
    (silent : ∀ ref, (o.events thread reply).flatMap (Event.moved ref) = [] ∧
      (o.events thread reply).flatMap (Event.sent ref) = []) : Does thread o reply net after where
  answer := answer
  log := log
  heap := heap
  openSockets := openSockets
  finished := finished
  mainThreadId := main
  endpoints := endpoints
  arrived := queues _ rfl fun _ _ => rfl
  unread ref := by rw [(silent ref).1, List.nil_append, Net.unread, queues _ rfl (fun _ _ => rfl) ref]
  accepted ref := by rw [(silent ref).2, List.append_nil, Net.accepted, queues _ rfl (fun _ _ => rfl) ref]

theorem exec_does (executed : exec thread o input net = some (reply, after)) : Does thread o reply net after := by
  cases o with
  | otRcv endpoint nbytes =>
    simp only [exec, Option.map_eq_some_iff, Prod.mk.injEq] at executed
    obtain ⟨⟨result, middle⟩, moved, rfl, rfl⟩ := executed
    obtain ⟨⟨log, heap, openSockets, finished, main, endpoints⟩, answer, queues⟩ := otRcv_does moved
    refine ⟨answer, by simp [log, Op.events], heap, openSockets, finished, main, endpoints,
      fun ref => (queues ref).1, ?_, ?_⟩
    · intro ref
      simpa [Op.events, Event.moved] using (queues ref).2.2
    · intro ref
      simpa [Op.events, Event.sent] using (queues ref).2.1
  | otSnd endpoint buf =>
    simp only [exec, Option.map_eq_some_iff, Prod.mk.injEq] at executed
    obtain ⟨⟨result, middle⟩, sent, rfl, rfl⟩ := executed
    obtain ⟨⟨log, heap, openSockets, finished, main, endpoints⟩, answer, queues⟩ := otSnd_does sent
    refine ⟨answer, by simp [log, Op.events], heap, openSockets, finished, main, endpoints,
      fun ref => (queues ref).1, ?_, ?_⟩
    · intro ref
      simpa [Op.events, Event.moved] using (queues ref).2.1.symm
    · intro ref
      simpa [Op.events, Event.sent] using (queues ref).2.2
  | load | recvHalt | sendHalt | assign =>
    simp only [exec, Option.map_eq_some_iff] at executed
    obtain ⟨s, found, same⟩ := executed
    cases same
    refine .quiet ?_ (by simp [Op.events]) rfl rfl rfl rfl rfl (fun _ _ _ _ => rfl)
      (fun _ => by simp [Op.events, Event.moved, Event.sent])
    first
      | exact found
      | exact ⟨s, found, rfl⟩
      | exact (List.getElem?_eq_some_iff.mp found).1
  | insert fd socket =>
    cases executed
    have frame := @insert_frame net fd socket
    refine .quiet trivial (by simp [Op.events]) frame.2.1 rfl frame.2.2.2.1 frame.2.2.2.2 (by simp [Op.opens]) ?_
      (fun _ => by simp [Op.events, Event.moved, Event.sent])
    intro queue _ _ ref
    exact Net.queue_congr frame.2.2.1 queue ref
  | otInstallNotifier endpoint usrPtr =>
    cases input <;> simp only [exec] at executed <;> cases executed
    cases endpoint with
    | none =>
      exact .quiet trivial rfl rfl rfl rfl rfl rfl (fun _ _ _ _ => rfl)
        (fun _ => by simp [Op.events, Event.moved, Event.sent])
    | some ref =>
      simp only
      split
      · exact .quiet trivial rfl rfl rfl rfl rfl (by simp [Net.updateEndpoint, Op.opens])
          (fun queue _ same other => Net.queue_update_same net ref _ queue (fun held => same held _) other)
          (fun _ => by simp [Op.events, Event.moved, Event.sent])
      · exact .quiet trivial rfl rfl rfl rfl rfl rfl (fun _ _ _ _ => rfl)
          (fun _ => by simp [Op.events, Event.moved, Event.sent])
  | otOpenEndpoint cfg =>
    cases input with
    | status result =>
      cases executed
      refine .quiet ?_ rfl rfl rfl rfl rfl ?_ ?_ (fun _ => by simp [Op.events, Event.moved, Event.sent])
      · by_cases opened : result = noErr <;> simp [Op.Answers, opened]
      · by_cases opened : result = noErr <;> simp [Op.opens, opened]
      intro queue empty _ ref
      by_cases opened : result = noErr
      · simp only [opened, if_true]
        exact Net.queue_open net queue empty ref
      · simp only [opened, if_false]
        rfl
    | none | moved | arrive | close => simp [exec] at executed
  | openTransport | otConnect =>
    cases input <;> simp only [exec] at executed <;> cases executed
    exact .quiet trivial rfl rfl rfl rfl rfl rfl (fun _ _ _ _ => rfl)
      (fun _ => by simp [Op.events, Event.moved, Event.sent])
  | mainThreadId | newSocket | lookup | size | finished | setFinished | report =>
    cases executed
    exact .quiet (by trivial) (by simp [Op.events]) rfl rfl rfl rfl rfl (fun _ _ _ _ => rfl)
      (fun _ => by simp [Op.events, Event.moved, Event.sent])

theorem called_does {entry : Entry} (admitted : called thread entry net = some after) :
    after = net.record (.called thread entry) ∧ (∀ params, entry ≠ .connectThread params) := by
  cases entry with
  | connectThread => simp [called] at admitted
  | notifier endpoint usrPtr code res =>
    simp only [called] at admitted
    split at admitted
    · cases admitted
      exact ⟨rfl, by simp⟩
    · cases admitted
  | socket | connect | recv | send | select =>
    cases admitted
    exact ⟨rfl, by simp⟩

/-- A move of the environment: bytes that arrive become unread, and nothing else
changes but the log. -/
structure Moves (net after : Net) : Prop where
  log : ∃ event, event.thread = none ∧ after.log = net.log ++ [event]
  heap : after.heap = net.heap
  openSockets : after.openSockets = net.openSockets
  finished : after.finished = net.finished
  mainThreadId : after.mainThreadId = net.mainThreadId
  endpoints : after.endpoints.length = net.endpoints.length
  queues : ∀ ref, ∃ bytes, after.arrived ref = net.arrived ref ++ bytes ∧
    after.unread ref = net.unread ref ++ bytes ∧ after.accepted ref = net.accepted ref

theorem environment_does (moved : environment input net = some after) : Moves net after := by
  cases input with
  | arrive endpoint bytes =>
    simp only [environment, Option.bind_eq_bind, Option.bind_eq_some_iff] at moved
    obtain ⟨held, found, moved⟩ := moved
    split at moved
    · cases moved
    · cases moved
      refine ⟨⟨_, rfl, rfl⟩, rfl, rfl, rfl, rfl, by simp [Net.updateEndpoint], ?_⟩
      intro ref
      simp only [Net.arrived, Net.unread, Net.accepted, Net.record_queue, Net.queue_update found]
      by_cases same : endpoint = ref
      · subst same
        exact ⟨bytes, by simp [Net.queue, found, Endpoint.arrive]⟩
      · exact ⟨[], by simp [same]⟩
  | close endpoint =>
    cases moved
    refine ⟨⟨_, rfl, rfl⟩, rfl, rfl, rfl, rfl, by simp [Net.updateEndpoint], ?_⟩
    intro ref
    refine ⟨[], ?_⟩
    simp only [Net.arrived, Net.unread, Net.accepted, Net.record_queue, List.append_nil]
    exact ⟨Net.queue_update_same _ _ .close _ (fun _ => rfl) ref,
      Net.queue_update_same _ _ .close _ (fun _ => rfl) ref, Net.queue_update_same _ _ .close _ (fun _ => rfl) ref⟩
  | none | status | moved => simp [environment] at moved

end exec

/-- The threads a state can mention. -/
def Net.Knows (net : Net) (thread : ThreadId) : Prop :=
  ∃ event ∈ net.log, event.thread = some thread ∨ (event.begins thread).isSome

/-- The latest call of a thread was not cut off. -/
def Net.Alive (thread : ThreadId) (net : Net) : Prop := ∀ other, Event.disposed other thread ∉ during thread net.log

theorem Net.knows_of_call {thread : ThreadId} {net : Net} {entry : Entry} (call : callOf thread net.log = some entry) :
    net.Knows thread := by
  have begun : ∀ log : List Event, callOf thread log = some entry →
      ∃ event ∈ log, (event.begins thread).isSome := by
    intro log found
    induction log using List.reverseRecOn with
    | nil => cases found
    | append_singleton log event ih =>
      cases first : event.begins thread with
      | some entry => exact ⟨event, by simp, by simp [first]⟩
      | none =>
        rw [callOf_concat, first, Option.none_or] at found
        obtain ⟨event, member, begins⟩ := ih found
        exact ⟨event, List.mem_append_left _ member, begins⟩
  obtain ⟨event, member, begins⟩ := begun net.log call
  exact ⟨event, member, Or.inr begins⟩

/-- The state goes on without `thread`: nothing is its doing, and if it is known, no
call begins on it. -/
structure Extends (thread : ThreadId) (before after : Net) : Prop where
  mainThreadId : after.mainThreadId = before.mainThreadId
  log : ∃ more, after.log = before.log ++ more ∧ (∀ event ∈ more, event.thread ≠ some thread) ∧
    (before.Knows thread → ∀ event ∈ more, event.begins thread = none)

namespace Extends
variable {thread : ThreadId} {before after : Net}

theorem refl (thread : ThreadId) (net : Net) : Extends thread net net := ⟨rfl, [], by simp, by simp, by simp⟩

theorem knows (grown : Extends thread before after) {name : ThreadId} (knows : before.Knows name) :
    after.Knows name := by
  obtain ⟨_, more, log, _⟩ := grown
  obtain ⟨event, member, mentions⟩ := knows
  exact ⟨event, by rw [log]; exact List.mem_append_left _ member, mentions⟩

theorem trans {first middle last : Net} (early : Extends thread first middle) (late : Extends thread middle last) :
    Extends thread first last := by
  have known (knows : first.Knows thread) : middle.Knows thread := early.knows knows
  obtain ⟨main, more, log, others, silent⟩ := early
  obtain ⟨same, later, extended, rest, quiet⟩ := late
  refine ⟨same.trans main, more ++ later, by rw [extended, log, List.append_assoc], ?_, ?_⟩
  · intro event member
    exact (List.mem_append.mp member).elim (others event) (rest event)
  · intro knows event member
    exact (List.mem_append.mp member).elim (silent knows event) (quiet (known knows) event)

theorem record {net : Net} {event : Event} {other : ThreadId} (owner : event.thread = some thread)
    (different : other ≠ thread) (begins : net.Knows other → event.begins other = none) :
    Extends other net (net.record event) := by
  refine ⟨rfl, [event], rfl, ?_, ?_⟩
  · simpa [owner] using Ne.symm different
  · simpa using begins

theorem call (grown : Extends thread before after) {entry : Entry} (call : callOf thread before.log = some entry) :
    callOf thread after.log = some entry ∧ since thread after.log = since thread before.log ∧
      ∃ more, during thread after.log = during thread before.log ++ more := by
  obtain ⟨_, more, log, others, silent⟩ := grown
  have silent := silent (Net.knows_of_call call)
  rw [log, callOf_append silent, during_append silent]
  exact ⟨call, since_append silent others, more, rfl⟩

end Extends

theorem Op.events_thread (thread : ThreadId) (o : Op) (reply : o.Reply) :
    ∀ event ∈ o.events thread reply, event.thread = some thread := by
  cases o <;> simp [Op.events, Event.thread]

theorem Op.events_begins (thread name : ThreadId) (o : Op) (reply : o.Reply) :
    ∀ event ∈ o.events thread reply, event.begins name = none := by
  cases o <;> simp [Op.events, Event.begins]

theorem Op.events_inner (thread : ThreadId) (o : Op) (reply : o.Reply) :
    ∀ event ∈ o.events thread reply, event.Inner := by
  intro event member
  refine ⟨fun name => Op.events_begins thread name o reply event member, ?_⟩
  rintro actor value rfl
  cases o <;> simp [Op.events] at member

theorem Op.events_short (thread : ThreadId) (o : Op) (reply : o.Reply) :
    o.events thread reply = [] ∨ ∃ event, o.events thread reply = [event] := by
  cases o <;> simp [Op.events]

/-- An operation adds what is good of its own events to a ledger. -/
theorem Does.ledger {thread : ThreadId} {o : Op} {reply : o.Reply} {net after : Net}
    {good : List Event → ThreadId → Event → Option Value → Prop} (does : Does thread o reply net after)
    (ledger : Ledger good net.log) (fresh : ∀ event ∈ o.events thread reply, good net.log thread event none) :
    Ledger good after.log := by
  rw [does.log]
  rcases Op.events_short thread o reply with none | ⟨event, one⟩
  · rw [none, List.append_nil]
    exact ledger
  · have member : event ∈ o.events thread reply := one ▸ List.mem_singleton_self event
    rw [one]
    refine ledger.concat (fun actor owner _ => ?_) (Op.events_inner thread o reply event member).2
    cases (Op.events_thread thread o reply event member).symm.trans owner
    exact fresh event member

theorem Does.extends {thread other : ThreadId} {o : Op} {reply : o.Reply} {net after : Net}
    (does : Does thread o reply net after) (different : other ≠ thread) : Extends other net after := by
  refine ⟨does.mainThreadId, _, does.log, fun event member => ?_, fun _ => Op.events_begins thread other o reply⟩
  rw [Op.events_thread thread o reply event member]
  simpa using Ne.symm different

theorem Does.call {thread : ThreadId} {o : Op} {reply : o.Reply} {net after : Net}
    (does : Does thread o reply net after) : callOf thread after.log = callOf thread net.log ∧
      since thread after.log = since thread net.log ++ o.events thread reply := by
  have silent := Op.events_begins thread thread o reply
  have own : (o.events thread reply).filter (fun event => event.thread = some thread) = o.events thread reply := by
    simpa using Op.events_thread thread o reply
  rw [does.log, callOf_append silent, since, during_append silent, List.filter_append, own]
  exact ⟨rfl, rfl⟩

theorem Moves.extends {net after : Net} (moves : Moves net after) (thread : ThreadId) : Extends thread net after := by
  obtain ⟨event, owner, log⟩ := moves.log
  refine ⟨moves.mainThreadId, [event], log, by simp [owner], fun _ => ?_⟩
  simp only [List.mem_singleton, forall_eq]
  cases event <;> first | rfl | cases owner

private theorem keeps_log (rules : Rules kernel) (knows : rules.knows = Net.Knows) (alive : rules.alive = Net.Alive)
    {new spared : ThreadId → Prop} {net after : Net} {more : List Event} (log : after.log = net.log ++ more)
    (mentions : ∀ event ∈ more, ∀ name, event.thread = some name ∨ (event.begins name).isSome → new name)
    (spares : ∀ event ∈ more, ∀ thread name, spared name → event ≠ .disposed thread name) :
    rules.Keeps new spared net after := by
  constructor
  · rw [knows]
    intro name ⟨event, member, mention⟩
    rw [log] at member
    rcases List.mem_append.mp member with old | late
    · exact Or.inl ⟨event, old, mention⟩
    · exact Or.inr (mentions event late name mention)
  · rw [alive]
    intro name spare
    simp only [Net.Alive, log]
    clear log mentions
    induction more using List.reverseRecOn with
    | nil => simp
    | append_singleton more event ih =>
      intro lives other
      have before := ih (fun event member => spares event (List.mem_append_left _ member)) lives other
      rw [← List.append_assoc, during_concat]
      split
      · exact List.not_mem_nil
      · have last := spares event (by simp) other name spare
        simpa [before] using Ne.symm last

private theorem keeps_record (rules : Rules kernel) (knows : rules.knows = Net.Knows) (alive : rules.alive = Net.Alive)
    {thread : ThreadId} {net : Net} {event : Event} (owner : event.thread = some thread)
    (begins : ∀ name, (event.begins name).isSome → name = thread)
    (spares : ∀ thread name, event ≠ .disposed thread name) :
    rules.Keeps (· = thread) (fun _ => True) net (net.record event) := by
  refine @keeps_log rules knows alive _ _ net _ [event] rfl ?_ ?_
  · simp only [List.mem_singleton, forall_eq]
    intro name mention
    exact mention.elim (fun acts => (Option.some.inj (acts.symm.trans owner))) (begins name)
  · simpa using spares

theorem named (rules : Rules kernel) (knows : rules.knows = Net.Knows) (alive : rules.alive = Net.Alive) :
    rules.Named where
  exec thread o input before reply after executed := by
    refine @keeps_log rules knows alive _ _ _ _ _ (exec_does executed).log ?_ ?_
    · intro event member name mention
      rw [Op.events_thread thread o reply event member, Op.events_begins thread name o reply event member] at mention
      simpa [eq_comm] using mention
    · intro event member other name _ same
      subst same
      cases o <;> simp [Op.events] at member
  called thread entry before after admitted := by
    rw [(called_does admitted).1]
    refine ⟨keeps_record rules knows alive rfl ?_ (by simp), ?_⟩
    · intro name begins
      by_cases same : thread = name
      · exact same.symm
      · simp [Event.begins, same] at begins
    · rw [alive]
      simp [Net.Alive, Event.begins]
  spawned thread child entry net := by
    refine ⟨@keeps_log rules knows alive _ _ net _ [.spawned thread child entry] rfl ?_ (by simp), ?_⟩
    · simp only [List.mem_singleton, forall_eq]
      rintro name (acts | begins)
      · exact Or.inl (Option.some.inj acts).symm
      · by_cases same : child = name
        · exact Or.inr same.symm
        · simp [Event.begins, same] at begins
    · rw [alive]
      simp [Net.Alive, Event.begins]
  disposed thread other net := by
    refine @keeps_log rules knows alive _ _ net _ [.disposed thread other] rfl ?_ ?_
    · simp only [List.mem_singleton, forall_eq]
      exact fun name mention => mention.elim (fun acts => (Option.some.inj acts).symm) (by simp [Event.begins])
    · simp only [List.mem_singleton, forall_eq]
      intro actor name spare same
      cases same
      exact spare rfl
  exited thread net name known := Or.inl known
  returned thread value net := keeps_record rules knows alive rfl (by simp [Event.begins]) (by simp)
  threw thread net := keeps_record rules knows alive rfl (by simp [Event.begins]) (by simp)
  environment input before after moved := by
    obtain ⟨event, owner, log⟩ := (environment_does moved).log
    refine @keeps_log rules knows alive _ _ _ _ [event] log ?_ ?_
    · simp only [List.mem_singleton, forall_eq]
      cases event <;> simp_all [Event.thread, Event.begins]
    · simp only [List.mem_singleton, forall_eq]
      cases event <;> simp_all [Event.thread]

end PowerBoot.PowerNet
