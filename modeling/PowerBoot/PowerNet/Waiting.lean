import PowerBoot.Coop.Alone
import PowerBoot.PowerNet.Receive

/-! Waiting for data. A `recv` that finds no data does not wait for any: the flag on
which it waits is down, and it returns 0 as at the end of a stream. -/

namespace PowerBoot.PowerNet
open Coop Code Memory

instance : Inhabited Input := ⟨.none⟩

/-- A thread runs part of its code alone. -/
abbrev RunsTo (thread : ThreadId) {α : Type} (code : Shim α) (net : Net) (rest : Shim α) (last : Net) : Prop :=
  @Runs signature kernel thread α code net rest last

/-- An event that may end the wait for data on an endpoint. -/
def Entry.Wakes (ref : EndpointRef) : Entry → Prop
  | .notifier endpoint _ code _ =>
    endpoint = ref ∧ (code = .tData ∨ code = .tExData ∨ code = .tOrdRel ∨ code = .tDisconnect)
  | _ => False

def WokenIn (between : List Event) (ref : EndpointRef) : Prop :=
  ∃ actor entry, .called actor entry ∈ between ∧ entry.Wakes ref

def Event.brought (ref : EndpointRef) : Event → Bytes
  | .arrived endpoint bytes => if endpoint = ref then bytes else []
  | _ => []

/-- The peer has closed the stream, and all that arrived on it was read. -/
def EndOfStream (ref : EndpointRef) (log : List Event) : Prop :=
  .closed ref ∈ log ∧ log.flatMap (Event.brought ref) = log.flatMap (Event.moved ref)

/-- The last event of `past` is a `recv` of `thread` that gets no data from an open stream, and
it has not returned after `between`. -/
structure FindsNoData (thread : ThreadId) (ref : EndpointRef) (past between : List Event) : Prop where
  finds : ∃ before n moved fd nbytes flags,
    past = before ++ [.openTransport thread (.rcv (some ref) n kOTNoDataErr moved)] ∧
      callOf thread before = some (.recv fd nbytes flags) ∧ 0 < nbytes
  unclosed : .closed ref ∉ past
  silent : ∀ event ∈ between, event.begins thread = none
  open_ : ∀ result, .returned thread result ∉ between

/-- Such a `recv` returns after an event that may end the wait, and returns 0 only at the end of
the stream. -/
def WaitsForData (log : List Event) : Prop :=
  ∀ thread ref past between value rest, log = past ++ (between ++ .returned thread value :: rest) →
    FindsNoData thread ref past between →
      WokenIn between ref ∧ ∀ buf, value = .received 0 buf → EndOfStream ref (past ++ between)

/-- The peer has closed the stream, and nothing of it is unread. -/
def Ended (ref : EndpointRef) (net : Net) : Prop :=
  .closed ref ∈ net.log ∧ ∃ held, net.endpoints[ref]? = some held ∧ held.closed = true ∧ held.unread = []

/-- Whenever a `recv` that got no data looks at the flag, an event has come that may end its wait,
and the stream is at its end. -/
def ending : Choices kernel :=
  { Choices.all kernel with
    answers := fun thread o _ net => match o with
      | .recvHalt _ => ∀ ref past between, net.log = past ++ between → FindsNoData thread ref past between →
        WokenIn between ref ∧ Ended ref net
      | _ => True }

/-- The first socket is opened, and a `recv` on it gets no data. -/
private def emptyRead : World kernel :=
  (initial 0 1).after (opening 0 ++ calling 0 (.recv 0 4 0)
    [[.none, .none], [.none, .status kOTNoDataErr, .none], [.none, .none, .none, .none, .none], [.none]])

private theorem open_of_all {log : List Event} {ref : EndpointRef}
    (open_ : log.all (fun event => match event with | .closed _ => false | _ => true) = true) : .closed ref ∉ log :=
  fun member => Bool.false_ne_true (List.all_eq_true.mp open_ _ member)

theorem recv_returns_before_data :
    (Choices.all kernel).Reaches (initial 0 1) emptyRead ∧ ¬ WaitsForData emptyRead.state.log := by
  refine ⟨.after, fun waits => ?_⟩
  have none : FindsNoData 0 0 (emptyRead.state.log.take 11) [.readRecvHalt 0 0] :=
    ⟨⟨emptyRead.state.log.take 10, 4, [], 0, 4, 0, rfl, rfl, by decide⟩, open_of_all rfl, by simp [Event.begins],
      by simp⟩
  obtain ⟨⟨actor, entry, woken, _⟩, _⟩ := waits _ _ _ _ (.received 0 (List.replicate 4 0)) [] rfl none
  simp at woken

section ending
variable {thread : ThreadId} {ref : EndpointRef} {net after : Net} {log more past between : List Event} {event : Event}

/-- An endpoint as it is found later, where nothing arrived. -/
structure Emptied (held later : Endpoint) : Prop where
  closed : later.closed = held.closed
  unread : ∃ count, later.unread = held.unread.drop count

theorem Emptied.refl (held : Endpoint) : Emptied held held := ⟨rfl, 0, rfl⟩

theorem emptied_update {changed : EndpointRef} {change : Endpoint → Endpoint} {held : Endpoint}
    (emptied : ∀ held, Emptied held (change held)) (found : net.endpoints[ref]? = some held) :
    ∃ later, (net.updateEndpoint changed change).endpoints[ref]? = some later ∧ Emptied held later := by
  by_cases same : changed = ref
  · subst same
    exact ⟨change held, by simp [Net.updateEndpoint, found], emptied held⟩
  · exact ⟨held, by simp [Net.updateEndpoint, same, found], .refl held⟩

theorem otRcv_emptied {endpoint : Option EndpointRef} {nbytes : Nat} {input : Input} {result : Int × Bytes × OTFlags}
    {held : Endpoint} (moved : otRcv endpoint nbytes input net = some (result, after))
    (found : net.endpoints[ref]? = some held) :
    ∃ later, after.endpoints[ref]? = some later ∧ Emptied held later := by
  cases input with
  | moved count flags =>
    simp only [otRcv, Option.bind_eq_bind, Option.bind_eq_some_iff] at moved
    obtain ⟨changed, rfl, _, _, moved⟩ := moved
    split at moved <;> cases moved
    exact emptied_update (fun held => ⟨rfl, count, rfl⟩) found
  | status code =>
    simp only [otRcv] at moved
    split at moved <;> cases moved
    exact ⟨held, found, .refl held⟩
  | none | arrive | close => simp [otRcv] at moved

theorem otSnd_emptied {endpoint : Option EndpointRef} {buf : Bytes} {input : Input} {result : Int}
    {held : Endpoint} (sent : otSnd endpoint buf input net = some (result, after))
    (found : net.endpoints[ref]? = some held) :
    ∃ later, after.endpoints[ref]? = some later ∧ Emptied held later := by
  cases input with
  | moved count flags =>
    simp only [otSnd, Option.bind_eq_bind, Option.bind_eq_some_iff] at sent
    obtain ⟨changed, rfl, _, _, sent⟩ := sent
    split at sent <;> cases sent
    exact emptied_update (fun held => ⟨rfl, 0, rfl⟩) found
  | status code =>
    simp only [otSnd] at sent
    split at sent <;> cases sent
    exact ⟨held, found, .refl held⟩
  | none | arrive | close => simp [otSnd] at sent

theorem exec_emptied {o : Op} {input : Input} {reply : o.Reply} {held : Endpoint}
    (executed : exec thread o input net = some (reply, after)) (found : net.endpoints[ref]? = some held) :
    ∃ later, after.endpoints[ref]? = some later ∧ Emptied held later := by
  cases o with
  | otRcv endpoint nbytes =>
    simp only [exec, Option.map_eq_some_iff, Prod.mk.injEq] at executed
    obtain ⟨⟨result, middle⟩, moved, rfl, rfl⟩ := executed
    obtain ⟨later, at_, emptied⟩ := otRcv_emptied moved found
    exact ⟨later, at_, emptied⟩
  | otSnd endpoint buf =>
    simp only [exec, Option.map_eq_some_iff, Prod.mk.injEq] at executed
    obtain ⟨⟨result, middle⟩, sent, rfl, rfl⟩ := executed
    obtain ⟨later, at_, emptied⟩ := otSnd_emptied sent found
    exact ⟨later, at_, emptied⟩
  | otInstallNotifier endpoint usrPtr =>
    cases input <;> simp only [exec] at executed <;> cases executed
    cases endpoint with
    | none => exact ⟨held, found, .refl held⟩
    | some changed =>
      simp only [Net.record]
      split
      · exact emptied_update (fun held => ⟨rfl, 0, rfl⟩) found
      · exact ⟨held, found, .refl held⟩
  | otOpenEndpoint cfg =>
    cases input <;> simp only [exec] at executed <;> cases executed
    refine ⟨held, ?_, .refl held⟩
    have inside := (List.getElem?_eq_some_iff.mp found).1
    simp only [Net.record]
    split
    · rwa [List.getElem?_append_left inside]
    · exact found
  | load | recvHalt | sendHalt | assign =>
    simp only [exec, Option.map_eq_some_iff] at executed
    obtain ⟨_, _, same⟩ := executed
    cases same
    exact ⟨held, found, .refl held⟩
  | insert fd socket =>
    cases executed
    refine ⟨held, ?_, .refl held⟩
    simp only [Net.record, Net.insert]
    split <;> exact found
  | openTransport | otConnect =>
    cases input <;> simp only [exec] at executed <;> cases executed
    exact ⟨held, found, .refl held⟩
  | mainThreadId | newSocket | lookup | size | finished | setFinished | report =>
    cases executed
    exact ⟨held, found, .refl held⟩

/-- Nothing arrives at the end of a stream, and nothing is left to read. -/
theorem Ended.does {o : Op} {input : Input} {reply : o.Reply} (ended : Ended ref net)
    (executed : exec thread o input net = some (reply, after)) : Ended ref after := by
  obtain ⟨member, held, found, closed, unread⟩ := ended
  obtain ⟨later, at_, emptied⟩ := exec_emptied executed found
  obtain ⟨count, same⟩ := emptied.unread
  refine ⟨?_, later, at_, emptied.closed.trans closed, by rw [same, unread, List.drop_nil]⟩
  exact (exec_does executed).log ▸ List.mem_append_left _ member

theorem Ended.moves {input : Input} (ended : Ended ref net) (moved : environment input net = some after) :
    Ended ref after := by
  obtain ⟨member, held, found, closed, unread⟩ := ended
  cases input with
  | arrive endpoint bytes =>
    simp only [environment, Option.bind_eq_bind, Option.bind_eq_some_iff] at moved
    obtain ⟨there, at_, moved⟩ := moved
    split at moved <;> cases moved
    next opened =>
      have other : endpoint ≠ ref := by
        rintro rfl
        cases at_.symm.trans found
        exact opened closed
      refine ⟨List.mem_append_left _ member, held, ?_, closed, unread⟩
      simp [Net.record, Net.updateEndpoint, other, found]
  | close endpoint =>
    cases moved
    refine ⟨List.mem_append_left _ member, ?_⟩
    by_cases same : endpoint = ref
    · subst same
      exact ⟨held.close, by simp [Net.record, Net.updateEndpoint, found], rfl, unread⟩
    · exact ⟨held, by simp [Net.record, Net.updateEndpoint, same, found], closed, unread⟩
  | none | status | moved => simp [environment] at moved

theorem Ended.record (ended : Ended ref net) : Ended ref (net.record event) :=
  ⟨List.mem_append_left _ ended.1, ended.2⟩

/-- A `recv` of the thread that got no data may return now. -/
def Timely (thread : ThreadId) (net : Net) : Prop :=
  ∀ ref past between, net.log = past ++ between → FindsNoData thread ref past between →
    WokenIn between ref ∧ Ended ref net

structure Waiting (net : Net) : Prop where
  waits : WaitsForData net.log
  brought : ∀ ref, net.log.flatMap (Event.brought ref) = net.arrived ref
  balance : ∀ ref, net.log.flatMap (Event.moved ref) ++ net.unread ref = net.arrived ref

theorem FindsNoData.shorter (finds : FindsNoData thread ref past (between ++ more)) :
    FindsNoData thread ref past between where
  finds := finds.finds
  unclosed := finds.unclosed
  silent event member := finds.silent event (List.mem_append_left _ member)
  open_ result member := finds.open_ result (List.mem_append_left _ member)

theorem FindsNoData.call (finds : FindsNoData thread ref past between) :
    ∃ fd nbytes flags, callOf thread (past ++ between) = some (.recv fd nbytes flags) := by
  obtain ⟨before, n, moved, fd, nbytes, flags, rfl, call, _⟩ := finds.finds
  refine ⟨fd, nbytes, flags, ?_⟩
  rw [callOf_append finds.silent, callOf_concat]
  exact call

/-- The call of OTRcv is one of the call under way. -/
theorem FindsNoData.since (finds : FindsNoData thread ref past between) :
    ∃ n moved, .openTransport thread (.rcv (some ref) n kOTNoDataErr moved) ∈ since thread (past ++ between) := by
  obtain ⟨before, n, moved, _, _, _, rfl, _⟩ := finds.finds
  refine ⟨n, moved, since_grows finds.silent ?_⟩
  rw [since_concat rfl]
  simp [Event.thread]

theorem WokenIn.append (woken : WokenIn between ref) : WokenIn (between ++ more) ref := by
  obtain ⟨actor, entry, member, wakes⟩ := woken
  exact ⟨actor, entry, List.mem_append_left _ member, wakes⟩

/-- What happens meanwhile is no other call of OTRcv that finds no data. -/
theorem Timely.grows (timely : Timely thread net) (log : after.log = net.log ++ more)
    (other : ∀ endpoint n moved, .openTransport thread (.rcv endpoint n kOTNoDataErr moved) ∉ more)
    (ended : ∀ ref, Ended ref net → Ended ref after) : Timely thread after := by
  intro ref past between split finds
  have goes (early : List Event) (whole : net.log = past ++ early) (late : between = early ++ more) :
      WokenIn between ref ∧ Ended ref after := by
    subst late
    obtain ⟨woken, end_⟩ := timely ref past early whole finds.shorter
    exact ⟨woken.append, ended ref end_⟩
  rcases List.append_eq_append_iff.mp (log.symm.trans split) with ⟨late, rfl, whole⟩ | ⟨early, whole, later⟩
  · rcases List.eq_nil_or_concat late with rfl | ⟨late, last, rfl⟩
    · exact goes [] (by simp) (by simpa using whole.symm)
    · obtain ⟨before, n, moved, _, _, _, same, _⟩ := finds.finds
      rw [List.concat_eq_append, ← List.append_assoc] at same
      obtain ⟨_, same⟩ := List.append_inj' same rfl
      cases same
      refine (other (some ref) n moved ?_).elim
      simp [whole]
  · exact goes early whole later

theorem timely_other {entry : Entry} (call : callOf thread net.log = some entry)
    (other : ∀ fd nbytes flags, entry ≠ .recv fd nbytes flags) : Timely thread net := by
  intro ref past between split finds
  obtain ⟨fd, nbytes, flags, same⟩ := finds.call
  rw [← split, call] at same
  exact (other fd nbytes flags (Option.some.inj same)).elim

theorem timely_begun (quiet : since thread net.log = []) : Timely thread net := by
  intro ref past between split finds
  obtain ⟨n, moved, member⟩ := finds.since
  rw [← split, quiet] at member
  cases member

theorem WaitsForData.append (waits : WaitsForData log) (open_ : ∀ actor value, .returned actor value ∉ more) :
    WaitsForData (log ++ more) := by
  induction more using List.reverseRecOn with
  | nil => rwa [List.append_nil]
  | append_singleton more last ih =>
    replace ih := ih fun actor value member => open_ actor value (List.mem_append_left _ member)
    intro thread ref past between value rest split finds
    rcases List.eq_nil_or_concat rest with rfl | ⟨rest, final, rfl⟩
    · rw [← List.append_assoc, ← List.append_assoc] at split
      obtain ⟨_, same⟩ := List.append_inj' split rfl
      cases same
      exact (open_ thread value (by simp)).elim
    · rw [List.concat_eq_append, ← List.cons_append, ← List.append_assoc between, ← List.append_assoc past,
        ← List.append_assoc log] at split
      exact ih thread ref past between value rest (List.append_inj' split rfl).1 finds

theorem Waiting.returned {value : Value} (kept : Waiting net) (timely : Timely thread net) :
    Waiting (net.record (.returned thread value)) where
  waits := by
    intro actor ref past between result rest split finds
    rcases List.eq_nil_or_concat rest with rfl | ⟨rest, final, rfl⟩
    · rw [Net.record_log, ← List.append_assoc] at split
      obtain ⟨whole, same⟩ := List.append_inj' split rfl
      cases same
      obtain ⟨woken, member, held, found, _, unread⟩ := timely ref past between whole finds
      refine ⟨woken, fun _ _ => ⟨whole ▸ member, ?_⟩⟩
      have nothing : net.unread ref = [] := by simp [Net.unread, Net.queue, found, unread]
      rw [← whole, kept.brought ref, ← kept.balance ref, nothing, List.append_nil]
    · rw [Net.record_log, List.concat_eq_append, ← List.cons_append, ← List.append_assoc between,
        ← List.append_assoc past] at split
      exact kept.waits actor ref past between result rest (List.append_inj' split rfl).1 finds
  brought ref := by simpa [Event.brought] using kept.brought ref
  balance ref := by simpa [Event.moved] using kept.balance ref

theorem Waiting.does {o : Op} {input : Input} {reply : o.Reply} (kept : Waiting net)
    (executed : exec thread o input net = some (reply, after)) : Waiting after := by
  have does := exec_does executed
  have events : (∀ actor value, .returned actor value ∉ o.events thread reply) ∧
      ∀ ref, (o.events thread reply).flatMap (Event.brought ref) = [] := by
    cases o <;> simp [Op.events, Event.brought]
  refine ⟨does.log ▸ kept.waits.append events.1, fun ref => ?_, does.balance kept.balance⟩
  rw [does.log, List.flatMap_append, events.2, List.append_nil, does.arrived, kept.brought]

theorem Waiting.record (kept : Waiting net) (open_ : ∀ actor value, event ≠ .returned actor value)
    (own : event.thread.isSome) (silent : ∀ ref, event.moved ref = []) : Waiting (net.record event) where
  waits := kept.waits.append fun actor value member => open_ actor value (List.mem_singleton.mp member).symm
  brought ref := by
    have nothing : event.brought ref = [] := by cases event <;> first | rfl | cases own
    simpa [nothing] using kept.brought ref
  balance ref := by simpa [silent ref] using kept.balance ref

/-- What the environment does is told by its event: all that arrives is unread. -/
theorem environment_brings {input : Input} (moved : environment input net = some after) :
    ∃ event : Event, event.thread = none ∧ after.log = net.log ++ [event] ∧
      ∀ ref, after.arrived ref = net.arrived ref ++ event.brought ref ∧
        after.unread ref = net.unread ref ++ event.brought ref := by
  cases input with
  | arrive endpoint bytes =>
    simp only [environment, Option.bind_eq_bind, Option.bind_eq_some_iff] at moved
    obtain ⟨held, found, moved⟩ := moved
    split at moved <;> cases moved
    refine ⟨_, rfl, rfl, fun ref => ?_⟩
    simp only [Net.arrived, Net.unread, Net.record_queue, Net.queue_update found, Event.brought]
    by_cases same : endpoint = ref
    · subst same
      simp [Net.queue, found, Endpoint.arrive]
    · simp [same]
  | close endpoint =>
    cases moved
    refine ⟨_, rfl, rfl, fun ref => ?_⟩
    simp only [Net.arrived, Net.unread, Net.record_queue, Event.brought, List.append_nil]
    exact ⟨Net.queue_update_same _ _ .close _ (fun _ => rfl) ref, Net.queue_update_same _ _ .close _ (fun _ => rfl) ref⟩
  | none | status | moved => simp [environment] at moved

theorem Waiting.moves {input : Input} (kept : Waiting net) (moved : environment input net = some after) :
    Waiting after := by
  obtain ⟨event, owner, log, queues⟩ := environment_brings moved
  have silent (ref : EndpointRef) : event.moved ref = [] := by cases event <;> first | rfl | cases owner
  refine ⟨log ▸ kept.waits.append fun actor value member => ?_, fun ref => ?_, fun ref => ?_⟩
  · obtain rfl := List.mem_singleton.mp member
    cases owner
  · rw [log, (queues ref).1, ← kept.brought ref]
    simp
  · rw [log, (queues ref).1, (queues ref).2, ← kept.balance ref]
    simp [silent]

end ending

def waiting : Discipline where
  choices := ending
  invariant := Waiting
  keeps _ before after := ∀ ref, Ended ref before → Ended ref after
  step _ _ after := WaitsForData after.log
  idle _ _ := True

theorem waiting_regular : waiting.Regular where
  refl _ _ _ := id
  trans early late ref ended := late ref (early ref ended)
  record _ _ _ _ ended := ended.record
  fresh _ _ := trivial
  idles _ _ := trivial

def Op.Asks : Op → Prop
  | .otRcv .. => True
  | _ => False

/-- What a thread knows: whether its `recv`, if it got no data, may return. -/
theorem waiting_keeping (thread : ThreadId) (entry : Entry) (timely : Prop) :
    waiting.Keeping thread entry (fun o => timely → ¬ o.Asks) connectEntries fun net => timely → Timely thread net where
  op {o input now reply after} used answered executed kept call mine := by
    have ended (ref : EndpointRef) (there : Ended ref now) : Ended ref after := there.does executed
    refine ⟨(kept.does executed).waits, kept.does executed, fun _ _ => ended, fun holds => ?_⟩
    refine (mine holds).grows (exec_does executed).log (fun endpoint n moved member => ?_) ended
    cases o with
    | otRcv => exact used holds trivial
    | _ => simp [Op.events] at member
  record {now} event marks kept call mine := by
    have set : Waiting (now.record event) := by
      refine kept.record marks.unreturned ?_ fun ref => ?_
      · cases event <;> first | rfl | exact False.elim marks
      · cases event <;> first | rfl | exact False.elim marks
    refine ⟨set.waits, set, fun holds => (mine holds).grows rfl (fun endpoint n moved member => ?_) fun _ => .record⟩
    obtain rfl := List.mem_singleton.mp member
    exact marks
  waits {before after} kept moved ended alive call mine := by
    obtain ⟨_, more, log, others, _⟩ := moved
    exact fun holds => (mine holds).grows log (fun endpoint n moved member => others _ member rfl) ended
  idle _ _ _ := trivial

section recv
variable {thread : ThreadId} {net start now after : Net} {entry : Entry} {timely : Prop}

private abbrev Waits (thread : ThreadId) (entry : Entry) (timely : Prop) : Net → Net → Prop :=
  waiting.Works thread entry fun net => timely → Timely thread net

private theorem Waits.plain (waits : Waits thread entry timely start now) {α β : Type} {code : Shim α}
    {rest : α → Shim β} {post : β → Net → Net → Prop}
    (uses : code.Uses (fun o : Op => timely → ¬ o.Asks) connectEntries)
    (safe : ∀ value start now, Waits thread entry timely start now →
      waiting.rules.Holds thread (rest value) post start now) :
    waiting.rules.Holds thread (code >>= rest) post start now :=
  Discipline.Works.plain waits waiting_regular (waiting_keeping thread entry timely) uses safe

/-- Once the flag has been looked at, the `recv` may return. -/
private theorem flag_waits {s : Ptr} (waits : Waits thread entry False start now) :
    waiting.rules.Holds thread (repeatWhile (perform (.recvHalt s)) pause) (fun _ => Waits thread entry True) start
      now := by
  refine ⟨fun _ => Waits thread entry False, waits, fun _ start now waits => ?_⟩
  refine Discipline.holds_op fun input halted after answered executed does => ?_
  have ended (ref : EndpointRef) (there : Ended ref now) : Ended ref after := there.does executed
  have kept := waits.1.invariant.does executed
  have woken : Timely thread now := answered
  have timely : Timely thread after := woken.grows does.log (by simp [Op.events]) ended
  have waits : Waits thread entry True start after :=
    Discipline.Works.step waits waiting_regular does kept (fun _ _ => ended) fun _ => timely
  refine ⟨kept.waits, ?_⟩
  cases halted with
  | true => exact waits.plain pause_uses fun _ _ _ waits => ⟨waits.1, waits.2.1, fun never => never.elim⟩
  | false => exact waits

theorem recv_waiting {fd : Int} {nbytes : Nat} {flags : Int} (kept : Waiting net)
    (call : callOf thread net.log = some (.recv fd nbytes flags)) (quiet : since thread net.log = []) :
    waiting.rules.Holds thread (body (.recv fd nbytes flags)) (waiting.rules.Returns thread) net net := by
  apply Rules.Holds.bind
  have begins : Waits thread (.recv fd nbytes flags) True net net :=
    .begins waiting_regular kept call fun _ => timely_begun quiet
  refine begins.openSocketsAt waiting_regular (waiting_keeping ..) (fun _ => id) fun s _ _ waits => ?_
  refine Waits.plain waits pause_uses fun _ start now waits => ?_
  refine Discipline.Works.op waits waiting_regular (waiting_keeping ..) (.load s) (fun _ => id) fun socket loaded _
    waits => ?_
  refine Discipline.holds_op fun input reply after answered executed does => ?_
  have ended (ref : EndpointRef) (there : Ended ref loaded) : Ended ref after := there.does executed
  have kept := waits.1.invariant.does executed
  refine ⟨kept.waits, ?_⟩
  obtain ⟨ret, moved, dataFlags⟩ := reply
  dsimp only
  split
  next some_ =>
    have timely : Timely thread after := by
      refine (waits.2.2 trivial).grows does.log (fun endpoint n bytes member => ?_) ended
      cases List.mem_singleton.mp member
      exact some_ rfl
    have waits : Waits thread (.recv fd nbytes flags) True start after :=
      Discipline.Works.step waits waiting_regular does kept (fun _ _ => ended) fun _ => timely
    refine waits.plain (perform_uses fun _ => id) fun _ start now waits => ?_
    exact Discipline.Works.returns waits waiting_regular (waits.1.invariant.returned (waits.2.2 trivial)) trivial
  next failed =>
    have waits : Waits thread (.recv fd nbytes flags) False start after :=
      Discipline.Works.step waits waiting_regular does kept (fun _ _ => ended) fun never => never.elim
    refine waits.plain pause_uses fun _ start now waits => ?_
    apply Rules.Holds.bind
    refine (flag_waits waits).mono fun _ start now waits => ?_
    refine waits.plain (perform_uses fun _ => id) fun socket _ _ waits => ?_
    refine waits.plain (perform_uses fun _ => id) fun _ _ _ waits => waits.plain pause_uses fun _ start now waits => ?_
    exact Discipline.Works.returns waits waiting_regular (waits.1.invariant.returned (waits.2.2 trivial)) trivial

end recv
theorem waiting_sound : waiting.rules.Sound := by
  refine waiting_regular.sound ?_ ?_ ?_
  · intro thread entry net _ kept _ _
    exact ⟨kept.record (by simp) rfl fun _ => rfl, trivial⟩
  · intro input net after _ kept _ moved
    exact ⟨kept.moves moved, fun _ ref ended => ended.moves moved⟩
  · intro entry thread net kept call quiet _ _
    by_cases recv : ∃ fd nbytes flags, entry = .recv fd nbytes flags
    · obtain ⟨fd, nbytes, flags, rfl⟩ := recv
      exact recv_waiting kept call quiet
    · refine (waiting_keeping thread entry False).body waiting_regular
        ((body_uses _).mono (fun _ _ never => never.elim) fun _ used => used) ?_ kept call fun never => never.elim
      intro value now kept call _
      exact ⟨kept.returned (timely_other call fun fd nbytes flags same => recv ⟨fd, nbytes, flags, same⟩), trivial⟩

/-- In every run in which a `recv` that got no data looks at the flag only once its wait is over,
every such `recv` waits for data, and returns 0 only at the end of the stream. -/
theorem recv_waits_when_ended {mainThreadId count : Nat} {world : World kernel}
    (reached : ending.Reaches (initial mainThreadId count) world) : WaitsForData world.state.log := by
  have safe : waiting.rules.Safe (initial mainThreadId count) := by
    refine Rules.Safe.initial ⟨?_, fun ref => ?_, fun ref => ?_⟩ ?_ fun _ => trivial
    · intro thread ref past between value rest split
      simp at split
    · simp [Net.arrived, Net.queue]
    · simp [Net.arrived, Net.unread, Net.queue]
    · rintro name ⟨event, member, _⟩
      cases member
  exact waiting_sound.everywhere safe rfl (fun _ kept => kept.waits) (fun _ _ _ stepped => stepped) reached

section runs

instance {ref : EndpointRef} {entry : Entry} : Decidable (entry.Wakes ref) :=
  match entry with
  | .notifier .. => inferInstanceAs (Decidable (_ ∧ _))
  | .socket .. | .connect .. | .connectThread .. | .recv .. | .send .. | .select .. => inferInstanceAs (Decidable False)

private def endedTest (ref : EndpointRef) (net : Net) : Bool :=
  net.log.any (fun event => match event with | .closed endpoint => endpoint == ref | _ => false) &&
    match net.endpoints[ref]? with
    | some held => held.closed && held.unread.isEmpty
    | none => false

private theorem ended_of_test {ref : EndpointRef} {net : Net} (passed : endedTest ref net = true) : Ended ref net := by
  obtain ⟨member, passed⟩ := Bool.and_eq_true_iff.mp passed
  refine ⟨?_, ?_⟩
  · obtain ⟨event, member, found⟩ := List.any_eq_true.mp member
    split at found
    · exact eq_of_beq found ▸ member
    · cases found
  · split at passed
    next held found =>
      obtain ⟨closed, unread⟩ := Bool.and_eq_true_iff.mp passed
      exact ⟨held, found, closed, List.isEmpty_iff.mp unread⟩
    · cases passed

/-- Whether a `recv` that got no data may return, looked up event by event. -/
private def timelyTest (net : Net) : Bool :=
  (List.range (net.log.length + 1)).all fun count => match (net.log.take count).getLast? with
  | some (.openTransport _ (.rcv (some ref) _ ret _)) => ret != kOTNoDataErr || (endedTest ref net &&
    (net.log.drop count).any fun event => match event with | .called _ entry => decide (entry.Wakes ref) | _ => false)
  | _ => true

private theorem timely_of_test {thread : ThreadId} {net : Net} (passed : timelyTest net = true) :
    Timely thread net := by
  intro ref past between split finds
  obtain ⟨⟨before, n, moved, fd, nbytes, flags, rfl, _⟩, _⟩ := finds
  have here := List.all_eq_true.mp passed (before.length + 1) (by simp [split])
  rw [split, List.take_left' (by simp), List.drop_left' (by simp), List.getLast?_concat] at here
  simp only [bne_self_eq_false, Bool.false_or, Bool.and_eq_true] at here
  obtain ⟨ended, woken⟩ := here
  refine ⟨?_, ended_of_test ended⟩
  obtain ⟨event, member, found⟩ := List.any_eq_true.mp woken
  split at found
  next actor entry => exact ⟨actor, entry, member, of_decide_eq_true found⟩
  · cases found

private def endingTest (action : Action kernel) (world : World kernel) : Bool :=
  match action, world.current with
  | .continue _, some actor => match world.threads[actor]? with
    | some (.running (.op (.recvHalt _) _)) => timelyTest world.state
    | _ => true
  | _, _ => true

private theorem endingTest_allows (action : Action kernel) (world : World kernel)
    (passed : endingTest action world = true) : ending.Allows action world := by
  cases action with
  | «continue» input =>
    intro actor o next current found
    cases o with
    | recvHalt =>
      simp only [endingTest, current, found] at passed
      exact timely_of_test passed
    | _ => trivial
  | call | resume | environment => trivial

/-- A `recv` on a connected socket reads what arrived, and the next one gets no data; the peer
closes the stream and T_ORDREL is delivered before it looks at the flag. -/
private def endedRead : World kernel := (initial 0 3).after (opening 1 ++ requesting ++ confirming ++
  .environment (Input.arrive 0 [1, 2]) ::
    (calling 1 (.recv 0 2 0) [[.none, .none], [.none, .moved 2 .other, .none, .none]] ++
      calling 1 (.recv 0 4 0) [[.none, .none], [.none, .status kOTNoDataErr, .none]] ++
      .environment (Input.close 0) :: (calling 2 (.notifier 0 0 .tOrdRel noErr) [[.none]] ++
        resuming 1 [[.none, .none, .none, .none, .none], [.none]])))

theorem recv_waits_when_ended_ordRel : WaitsForData endedRead.state.log ∧
    endedRead.state.log.getLast? = some (.returned 1 (.received 0 (List.replicate 4 0))) := by
  refine ⟨@recv_waits_when_ended 0 3 endedRead ?_, rfl⟩
  exact .tested _ endingTest_allows (by decide +kernel)

end runs

theorem recv_runs {thread : ThreadId} {net : Net} {fd : Int} {n : Nat} {flags : Int} {p : Ptr} {socket : Socket}
    (listed : net.lookup (key fd) = some p) (at_ : net.heap[p]? = some socket) (down : socket.recvHalt = false) :
    ∃ last, RunsTo thread (recv fd n flags) net (.pure ((flatten socket.recvBuf).length,
        overwrite (overwrite (List.replicate n 0) []) (flatten socket.recvBuf))) last ∧
      last.log = net.log ++ [.lookedUp thread (key fd) (some p),
        .openTransport thread (.rcv socket.endpoint n kOTNoDataErr []), .readRecvHalt thread p] := by
  let looked := net.record (.lookedUp thread (key fd) (some p))
  let failed := looked.record (.openTransport thread (.rcv socket.endpoint n kOTNoDataErr []))
  let read := failed.record (.readRecvHalt thread p)
  let last : Net := { read with heap := read.heap.modify p Assign.clearRecvBuf.apply }
  have lookup : kernel.exec thread (.lookup (key fd)) .none net = some
    (some p, looked) := by simp [exec, listed, looked]
  have load : kernel.exec thread (.load p) .none looked = some (socket, looked) := by simp [exec, looked, at_]
  have receive : kernel.exec thread (.otRcv socket.endpoint n) (.status kOTNoDataErr) looked =
      some ((kOTNoDataErr, [], .other), failed) := by
    simp [exec, otRcv, failed, kOTNoDataErr]
  have flag : kernel.exec thread (.recvHalt p) .none failed = some (false, read) := by
    simp [exec, failed, looked, at_, down, read]
  have reload : kernel.exec thread (.load p) .none read = some
    (socket, read) := by simp [exec, read, failed, looked, at_]
  have clear : kernel.exec thread (.assign p .clearRecvBuf) .none read = some ((), last) := by
    simp [exec, read, failed, looked, at_, last]
  refine ⟨last, ?_, by simp [last, read, failed, looked]⟩
  refine Runs.andThen (.op lookup (.here (.pure p) _)) (.yield (.op load (.op receive ?_)))
  rw [Code.pure_bind]
  simp only [ne_eq, not_true_eq_false, if_false]
  exact .yield (.loop (.op flag (.op reload (.op clear (.yield (.here _ _))))))

theorem recv_alone {thread : ThreadId} {net : Net} {fd : Int} {n : Nat} {flags : Int} {p : Ptr} {ref : EndpointRef}
    {socket : Socket} (listed : net.lookup (key fd) = some p) (at_ : net.heap[p]? = some socket)
    (endpoint : socket.endpoint = some ref) (down : socket.recvHalt = false) (empty : socket.recvBuf = []) :
    ∃ buf last, RunsTo thread (body (.recv fd n flags)) net (.pure (.received 0 buf)) last ∧
      last.log = net.log ++ [.lookedUp thread (key fd) (some p),
        .openTransport thread (.rcv (some ref) n kOTNoDataErr []), .readRecvHalt thread p] := by
  obtain ⟨last, run, log⟩ := @recv_runs thread net fd n flags p socket listed at_ down
  rw [empty] at run
  rw [endpoint] at log
  exact ⟨_, last, run.bind, log⟩

/-- In every run a `recv` that gets no data returns 0. -/
theorem recv_returns_nothing {mainThreadId count : Nat} {world : World kernel}
    (reached : (Choices.all kernel).Reaches (initial mainThreadId count) world) (outside : world.current = none)
    {thread : ThreadId} {ref : EndpointRef} {past between rest : List Event} {value : Value}
    (split : world.state.log = past ++ (between ++ .returned thread value :: rest))
    (finds : FindsNoData thread ref past between) : ∃ buf, value = .received 0 buf := by
  have kept := receiving_reaches reached outside
  obtain ⟨⟨before, n, moved, fd, nbytes, flags, rfl, _⟩, _, silent, open_⟩ := finds
  rw [List.append_assoc, List.singleton_append] at split
  have received := kept.ledger before _ _ thread split rfl rfl (some ref) n kOTNoDataErr moved rfl
  rw [resultOf_returned silent open_] at received
  obtain ⟨_, _, _, _, _, count, buf, rfl, _, none⟩ := received
  exact ⟨buf, by rw [none rfl]⟩

/-- Wherever a stream is open a `recv` can get no data, and then returns at once. -/
theorem recv_never_waits {mainThreadId count : Nat} {world : World kernel}
    (reached : (Choices.all kernel).Reaches (initial mainThreadId count) world) (outside : world.current = none)
    {fd : Int} {p : Ptr} {ref : EndpointRef} {n : Nat} (flags : Int) (listed : world.state.lookup (key fd) = some p)
    (opened : world.state.endpointAt p = some ref) (unclosed : .closed ref ∉ world.state.log) (some_ : 0 < n) :
    ∃ later : World kernel, (Choices.all kernel).Reaches world later ∧ later.current = none ∧
      ¬ WaitsForData later.state.log ∧ ∃ thread buf,
        later.state.log = world.state.log ++ [.called thread (.recv fd n flags), .lookedUp thread (key fd) (some p),
          .openTransport thread (.rcv (some ref) n kOTNoDataErr []), .readRecvHalt thread p,
          .returned thread (.received 0 buf)] := by
  have kept := receiving_reaches reached outside
  obtain ⟨socket, at_, endpoint⟩ := Option.bind_eq_some_iff.mp opened
  obtain ⟨down, empty⟩ := kept.calm socket (List.mem_of_getElem? at_)
  let actor := world.threads.length
  let begun := world.state.record (.called actor (.recv fd n flags))
  obtain ⟨buf, last, alone, log⟩ := @recv_alone actor begun fd n flags p ref socket listed at_ endpoint down empty
  have reaches := Alone.called outside (show kernel.called _ (.recv fd n flags) world.state = some begun from rfl)
    alone
  have final : (last.record (.returned actor (.received 0 buf))).log = world.state.log ++
      [.called actor (.recv fd n flags), .lookedUp actor (key fd) (some p),
        .openTransport actor (.rcv (some ref) n kOTNoDataErr []), .readRecvHalt actor p,
        .returned actor (.received 0 buf)] := by
    simp [log, begun]
  refine ⟨_, reaches, rfl, fun waits => ?_, _, buf, final⟩
  have call : callOf actor (world.state.log ++ [.called actor (.recv fd n flags),
      .lookedUp actor (key fd) (some p)]) = some (.recv fd n flags) := by
    rw [List.append_cons, callOf_append (by simp [Event.begins]), callOf_concat]
    simp [Event.begins]
  have finds : FindsNoData actor ref (world.state.log ++ [.called actor (.recv fd n flags),
      .lookedUp actor (key fd) (some p)] ++ [.openTransport actor (.rcv (some ref) n kOTNoDataErr [])])
      [.readRecvHalt actor p] :=
    ⟨⟨_, n, [], fd, n, flags, rfl, call, some_⟩, by simp [unclosed], by simp [Event.begins], by simp⟩
  obtain ⟨⟨_, entry, woken, _⟩, _⟩ := waits _ _ _ _ (.received 0 buf) [] (final.trans (by simp)) finds
  simp at woken

end PowerBoot.PowerNet
