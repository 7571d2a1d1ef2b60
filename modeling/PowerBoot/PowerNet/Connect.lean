import PowerBoot.PowerNet.Descriptors

/-! Connecting. One flag serves all the calls of `connect`, and every event raises it,
so the results of `connect` are right in those runs where the flag is down when a
call begins and no other event comes before the connection of that call. -/

namespace PowerBoot.PowerNet
open Coop Code

/-- In `events`, the call of `thread` has started its connect_thread, and that one has
issued OTConnect on the endpoint `ref` of the descriptor. -/
def Requests (net : Net) (thread : ThreadId) (fd : Int) (ref : EndpointRef) (events : List Event) : Prop :=
  ∃ p child params target result, net.lookup (key fd) = some p ∧ net.endpointAt p = some ref ∧
    List.Sublist [.spawned thread child (.connectThread params),
      .openTransport child (.connect (some ref) target result)] events

/-- And T_CONNECT without an error was delivered for that endpoint afterwards. -/
def Connects (net : Net) (thread : ThreadId) (fd : Int) (events : List Event) : Prop :=
  ∃ p child params target result ref actor usrPtr res, net.lookup (key fd) = some p ∧ net.endpointAt p = some ref ∧
    0 ≤ res ∧ List.Sublist [.spawned thread child (.connectThread params),
      .openTransport child (.connect (some ref) target result),
      .called actor (.notifier ref usrPtr .tConnect res)] events

/-- A call of `connect` that is under way. -/
structure Connecting (thread : ThreadId) (fd : Int) (net : Net) : Prop where
  call : ∃ address addressLen, callOf thread net.log = some (.connect fd address addressLen)
  alive : net.Alive thread
  open_ : ∀ value, .returned thread value ∉ since thread net.log

/-- A notifier that has not raised the flag yet. -/
structure Announcing (thread : ThreadId) (net : Net) : Prop where
  call : ∃ ref usrPtr code res, callOf thread net.log = some (.notifier ref usrPtr code res)
  alive : net.Alive thread
  before : .setFinished thread true ∉ since thread net.log

/-- The flag is up, or an event is about to raise it. -/
def Raised (net : Net) : Prop := net.finished = true ∨ ∃ actor, Announcing actor net

/-- No `connect` is called while the flag is up, and no event is delivered while a
`connect` waits, unless it is the one that this call waits for. -/
def connectChoices : Choices kernel where
  answers _ _ _ _ := True
  calls _ entry net := match entry with
    | .connect .. => ¬ Raised net
    | .notifier ref _ code res => ∀ caller fd, Connecting caller fd net →
      ¬ Connects net caller fd (during caller net.log) →
      code = .tConnect ∧ 0 ≤ res ∧ Requests net caller fd ref (during caller net.log)
    | _ => True
  moves _ _ := True

section growing
variable {net after : Net} {thread : ThreadId} {fd : Int} {events more : List Event}

theorem Connects.grow (connects : Connects net thread fd events) (steady : Steady net after) :
    Connects after thread fd (events ++ more) := by
  obtain ⟨p, child, params, target, result, ref, actor, usrPtr, res, listed, opened, fine, order⟩ := connects
  refine ⟨p, child, params, target, result, ref, actor, usrPtr, res, steady.lookup listed, ?_, fine, ?_⟩
  · exact (steady.endpoint (Net.lookup_pointers listed)).trans opened
  · exact order.trans (List.sublist_append_left ..)

theorem Requests.connects {ref : EndpointRef} {actor : ThreadId} {usrPtr : Ptr} {res : Int}
    (requests : Requests net thread fd ref events) (fine : 0 ≤ res) :
    Connects net thread fd (events ++ [.called actor (.notifier ref usrPtr .tConnect res)]) := by
  obtain ⟨p, child, params, target, result, listed, opened, order⟩ := requests
  exact ⟨p, child, params, target, result, ref, actor, usrPtr, res, listed, opened, fine, order.append (.refl _)⟩

theorem Net.Alive.before {name : ThreadId} (silent : ∀ event ∈ more, event.begins name = none)
    (log : after.log = net.log ++ more) (alive : after.Alive name) : net.Alive name := by
  intro actor member
  apply alive actor
  rw [log, during_append silent]
  exact List.mem_append_left _ member

theorem Connecting.earlier (silent : ∀ event ∈ more, event.begins thread = none) (log : after.log = net.log ++ more)
    (connecting : Connecting thread fd after) : Connecting thread fd net := by
  obtain ⟨call, alive, open_⟩ := connecting
  rw [log] at call open_
  rw [callOf_append silent] at call
  exact ⟨call, alive.before silent log, fun value member => open_ value (since_grows silent member)⟩

theorem Announcing.earlier (silent : ∀ event ∈ more, event.begins thread = none) (log : after.log = net.log ++ more)
    (announcing : Announcing thread after) : Announcing thread net := by
  obtain ⟨call, alive, before⟩ := announcing
  rw [log] at call before
  rw [callOf_append silent] at call
  exact ⟨call, alive.before silent log, fun member => before (since_grows silent member)⟩

end growing

/-- While the flag is up, every call under way has got its connection. -/
def Linked (net : Net) : Prop :=
  Raised net → ∀ thread fd, Connecting thread fd net → Connects net thread fd (during thread net.log)

/-- What happens keeps the link where it begins no call but those of connect_thread
and raises the flag only for an event that was about to. -/
theorem Linked.more {net after : Net} {more : List Event} (linked : Linked net) (steady : Steady net after)
    (log : after.log = net.log ++ more)
    (begins : ∀ name, (∀ event ∈ more, event.begins name = none) ∨
      ∃ params, callOf name after.log = some (.connectThread params))
    (raised : after.finished = true → Raised net) : Linked after := by
  intro up thread fd connecting
  have before : Raised net := by
    rcases up with finished | ⟨actor, announcing⟩
    · exact raised finished
    · rcases begins actor with silent | ⟨params, call⟩
      · exact Or.inr ⟨actor, announcing.earlier silent log⟩
      · obtain ⟨ref, usrPtr, code, res, notifies⟩ := announcing.call
        cases call.symm.trans notifies
  rcases begins thread with silent | ⟨params, call⟩
  · rw [log, during_append silent]
    exact (linked before thread fd (connecting.earlier silent log)).grow steady
  · obtain ⟨address, addressLen, connects⟩ := connecting.call
    cases call.symm.trans connects

/-- A call of `connect` that returns 0 has its connection. -/
def Completed (net : Net) (past : List Event) (thread : ThreadId) (event : Event) (_ : Option Value) : Prop :=
  ∀ fd address addressLen, event = .returned thread (.int 0) →
    callOf thread past = some (.connect fd address addressLen) → Connects net thread fd (during thread past)

theorem Completed.other {net : Net} {past : List Event} {thread : ThreadId} {event : Event} {result : Option Value}
    (open_ : ∀ actor value, event ≠ .returned actor value) : Completed net past thread event result :=
  fun _ _ _ same => (open_ thread _ same).elim

theorem Completed.steady {before after : Net} (steady : Steady before after) {past : List Event} {thread : ThreadId}
    {event : Event} {result : Option Value} (completed : Completed before past thread event result) :
    Completed after past thread event result := by
  intro fd address addressLen same call
  have connects : Connects after thread fd (during thread past ++ []) :=
    (completed fd address addressLen same call).grow steady
  rwa [List.append_nil] at connects

structure Connection (net : Net) : Prop where
  linked : Linked net
  ledger : Ledger (Completed net) net.log

def connecting : Discipline where
  choices := steadily connectChoices
  invariant := Connection
  keeps _ before after := Steady before after
  step _ before after := Steady before after ∧ Ledger (Completed after) after.log
  idle _ _ := True

theorem connecting_regular : connecting.Regular where
  refl _ net := .refl net
  trans early late := early.trans late
  record _ net event := .record net event
  fresh _ _ := trivial
  idles _ _ := trivial

section connection
variable {thread : ThreadId} {net after : Net}

theorem Connection.does {o : Op} {reply : o.Reply} (kept : Connection net) (does : Does thread o reply net after)
    (steady : Steady net after) (raises : o = .setFinished true → Raised net) : Connection after where
  linked := by
    refine kept.linked.more steady does.log (fun name => .inl (Op.events_begins thread name o reply)) fun finished => ?_
    rw [does.finished] at finished
    cases o with
    | setFinished value =>
      obtain rfl : value = true := finished
      exact raises rfl
    | _ => exact Or.inl finished
  ledger := does.ledger (kept.ledger.mono fun _ _ _ _ completed => completed.steady steady) fun event member =>
    .other (Op.events_inner thread o reply event member).2

theorem Connection.record {event : Event} (kept : Connection net) (open_ : ∀ actor value, event ≠ .returned actor value)
    (begins : ∀ name, event.begins name = none ∨ ∃ params, event.begins name = some (.connectThread params)) :
    Connection (net.record event) where
  linked := by
    refine kept.linked.more (.record net event) rfl (fun name => ?_) fun finished => Or.inl finished
    rcases begins name with silent | ⟨params, starts⟩
    · exact Or.inl (by simpa using silent)
    · exact Or.inr ⟨params, by simp [starts]⟩
  ledger := (kept.ledger.mono fun _ _ _ _ completed => completed.steady (.record net event)).concat
    (fun _ _ _ => .other open_) open_

theorem Connection.returned {value : Value} (kept : Connection net)
    (completed : Completed net net.log thread (.returned thread value) none) :
    Connection (net.record (.returned thread value)) where
  linked := kept.linked.more (.record net _) rfl (fun name => .inl (by simp [Event.begins])) fun finished =>
    Or.inl finished
  ledger := by
    refine Ledger.mono (kept.ledger.returned completed ?_) fun _ _ _ _ good => good.steady (.record net _)
    exact fun _ _ _ _ _ _ good => good

theorem Connection.called {entry : Entry} (kept : Connection net) (allowed : connectChoices.calls thread entry net)
    (outside : ∀ params, entry ≠ .connectThread params) : Connection (net.record (.called thread entry)) where
  linked := by
    intro up caller fd connecting
    have silent {name : ThreadId} (different : name ≠ thread) :
        ∀ event ∈ [Event.called thread entry], event.begins name = none := by
      simp [Event.begins, Ne.symm different]
    have own : callOf thread (net.record (.called thread entry)).log = some entry := by simp [Event.begins]
    have earlier (announces : ∀ ref usrPtr code res, entry ≠ .notifier ref usrPtr code res) : Raised net := by
      rcases up with finished | ⟨actor, announcing⟩
      · exact Or.inl finished
      · by_cases same : actor = thread
        · subst same
          obtain ⟨ref, usrPtr, code, res, notifies⟩ := announcing.call
          exact (announces ref usrPtr code res (Option.some.inj (own.symm.trans notifies))).elim
        · exact Or.inr ⟨actor, announcing.earlier (silent same) rfl⟩
    have other (connects : ∀ fd address addressLen, entry ≠ .connect fd address addressLen) : caller ≠ thread := by
      rintro rfl
      obtain ⟨address, addressLen, call⟩ := connecting.call
      exact connects fd address addressLen (Option.some.inj (own.symm.trans call))
    cases entry with
    | connect => exact (allowed (earlier (by simp))).elim
    | notifier ref usrPtr code res =>
      have different := other (by simp)
      have connecting := connecting.earlier (silent different) rfl
      rw [Net.record_log, during_append (silent different)]
      by_cases connects : Connects net caller fd (during caller net.log)
      · exact connects.grow (.record net _)
      · obtain ⟨rfl, fine, requests⟩ := allowed caller fd connecting connects
        exact requests.connects fine
    | connectThread params => exact (outside params rfl).elim
    | _ =>
      have different := other (by simp)
      rw [Net.record_log, during_append (silent different)]
      exact (kept.linked (earlier (by simp)) caller fd (connecting.earlier (silent different) rfl)).grow (.record net _)
  ledger := (kept.ledger.mono fun _ _ _ _ completed => completed.steady (.record net _)).concat
    (fun _ _ _ => .other (by simp)) (by simp)

end connection

/-- What a call of `connect` knows once it has seen the flag. -/
def Seen (thread : ThreadId) (seen : Option Int) (net : Net) : Prop :=
  ∀ fd, seen = some fd → Connects net thread fd (during thread net.log)

theorem seen_none {thread : ThreadId} {net : Net} : Seen thread none net := nofun

theorem connecting_keeping (thread : ThreadId) (entry : Entry) (seen : Option Int) :
    connecting.Keeping thread entry (fun o => o ≠ .setFinished true) connectEntries (Seen thread seen) where
  op {o input now reply after} other answered executed kept _ mine := by
    have does := exec_does executed
    have steady : Steady now after := answered.2 reply after executed
    have connection := kept.does does steady fun raises => (other raises).elim
    refine ⟨⟨steady, connection.ledger⟩, connection, fun _ _ => steady, fun fd same => ?_⟩
    rw [does.log, during_append (Op.events_begins thread thread o reply)]
    exact (mine fd same).grow steady
  record {now} event marks kept _ mine := by
    have begins (name : ThreadId) : event.begins name = none ∨
        ∃ params, event.begins name = some (.connectThread params) := by
      cases event with
      | spawned actor child entry =>
        cases entry with
        | connectThread params =>
          by_cases same : child = name
          · exact Or.inr ⟨params, by simp [Event.begins, same]⟩
          · exact Or.inl (by simp [Event.begins, same])
        | _ => exact False.elim marks.2.2
      | _ => first | exact Or.inl rfl | exact False.elim marks
    have silent := marks.begins
    have connection := kept.record marks.unreturned begins
    refine ⟨⟨.record now event, connection.ledger⟩, connection, fun fd same => ?_⟩
    rw [Net.record_log, during_append (by simpa using silent)]
    exact (mine fd same).grow (.record now event)
  waits _ moved steady _ call mine := by
    intro fd same
    obtain ⟨_, _, more, later⟩ := moved.call call
    rw [later]
    exact (mine fd same).grow steady
  idle _ _ _ := trivial

/-- A notifier raises the flag with the first thing it does. -/
theorem notifier_connecting {thread : ThreadId} {ref : EndpointRef} {usrPtr : Ptr} {code : OTEventCode} {res : Int}
    {net : Net} (kept : Connection net) (call : callOf thread net.log = some (.notifier ref usrPtr code res))
    (quiet : since thread net.log = []) :
    connecting.rules.Holds thread (body (.notifier ref usrPtr code res)) (connecting.rules.Returns thread) net net := by
  apply Rules.Holds.bind
  refine ⟨.refl connecting_regular.orderly kept, fun later kept moved alive => ?_⟩
  obtain ⟨same, own, _⟩ := moved.1.call call
  refine Discipline.holds_op fun input _ after answered executed does => ?_
  have steady : Steady later after := answered.2 () after executed
  have announcing : Announcing thread later := ⟨⟨ref, usrPtr, code, res, same⟩, alive, by simp [own, quiet]⟩
  have connection := kept.does does steady fun _ => Or.inr ⟨thread, announcing⟩
  refine ⟨⟨steady, connection.ledger⟩, ?_⟩
  have works : connecting.Works thread (.notifier ref usrPtr code res) (Seen thread none) later after :=
    ⟨Discipline.ends_op does connection fun _ _ => steady, does.call.1.trans same, nofun⟩
  refine works.last connecting_regular (connecting_keeping thread _ none)
    ((notified_uses usrPtr code res).mono (fun o used raises => ?_) nofun) fun _ start now works => ?_
  · subst raises
    exact used
  · refine works.returns connecting_regular (works.1.invariant.returned ?_) trivial
    intro fd address addressLen _ connects
    cases works.2.1.symm.trans connects

/-- A `connect` that sees the flag up has its connection. -/
theorem connect_connecting {thread : ThreadId} {fd : Int} {address : SockaddrIn} {addressLen : Nat} {net : Net}
    (kept : Connection net) (call : callOf thread net.log = some (.connect fd address addressLen))
    (quiet : since thread net.log = []) (alive : net.Alive thread) :
    connecting.rules.Holds thread (body (.connect fd address addressLen))
      (connecting.rules.Returns thread) net net := by
  apply Rules.Holds.bind
  have begins : connecting.Works thread (.connect fd address addressLen) (Seen thread none) net net :=
    .begins connecting_regular kept call seen_none
  intro child different fresh
  have spawns := (connecting_keeping thread (.connect fd address addressLen) none).routine connecting_regular
  obtain ⟨stepped, ends, ready, same, _⟩ :=
    spawns.spawned child (.connectThread ⟨fd, address, addressLen⟩) net trivial different fresh kept begins.2
  refine ⟨stepped, ends, ready, ?_⟩
  have silent : (Event.spawned thread child (.connectThread ⟨fd, address, addressLen⟩)).begins thread = none := by
    simp [Event.begins, different]
  let waits (start now : Net) : Prop := connecting.Works thread (.connect fd address addressLen)
    (Seen thread none) start now ∧
    now.Alive thread ∧ ∀ value, .returned thread value ∉ since thread now.log
  refine ⟨fun _ start now => waits start now, ⟨⟨.refl connecting_regular.orderly ends.invariant, same, seen_none⟩, ?_,
    ?_⟩, ?_⟩
  · intro actor
    simpa [silent] using alive actor
  · simp [since_concat silent, quiet, Event.thread]
  intro _ start now waiting
  obtain ⟨works, alive, open_⟩ := waiting
  refine works.op connecting_regular (connecting_keeping thread _ none) .finished (by simp) fun up after does works =>
    ?_
  have log : after.log = now.log := by simp [does.log, Op.events]
  cases up with
  | false =>
    refine ⟨works.1, fun later kept moved alive => ⟨⟨.refl connecting_regular.orderly kept, ?_, seen_none⟩, alive, ?_⟩⟩
    · exact (moved.1.call works.2.1).1
    · rw [(moved.1.call works.2.1).2.1, log]
      exact open_
  | true =>
    have finished : after.finished = true := by
      rw [does.finished]
      exact does.answer.symm
    have connects := works.1.invariant.linked (Or.inl finished) thread fd
      ⟨⟨address, addressLen, works.2.1⟩, by simpa only [Net.Alive, log] using alive, by simpa only [log] using open_⟩
    have seen : connecting.Works thread (.connect fd address addressLen) (Seen thread (some fd)) start after :=
      ⟨works.1, works.2.1, fun fd same => Option.some.inj same ▸ connects⟩
    have closes : connecting.rules.Holds thread (do stop (S := signature) child; pause; return (0 : Int))
        (fun value => connecting.rules.Returns thread (.int value)) start after := by
      refine seen.last connecting_regular (connecting_keeping thread _ (some fd)) trivial fun _ start now seen => ?_
      refine seen.returns connecting_regular (seen.1.invariant.returned ?_) trivial
      intro fd address addressLen _ call
      cases seen.2.1.symm.trans call
      exact seen.2.2 _ rfl
    exact closes

theorem connecting_sound : connecting.rules.Sound := by
  refine connecting_regular.sound ?_ ?_ ?_
  · intro thread entry net allowed kept _ outside
    exact ⟨kept.called allowed outside, trivial⟩
  · intro input net after _ kept moves moved
    obtain ⟨event, owner, log⟩ := moves.log
    have open_ (actor : ThreadId) (value : Value) : event ≠ .returned actor value := by
      rintro rfl
      cases owner
    refine ⟨⟨kept.linked.more moves.same_table.steady log (fun name => .inl ?_) fun finished => ?_, ?_⟩,
      fun _ => moves.same_table.steady⟩
    · simp only [List.mem_singleton, forall_eq]
      cases event <;> first | rfl | cases owner
    · exact Or.inl (moves.finished ▸ finished)
    · rw [log]
      exact (kept.ledger.mono fun _ _ _ _ completed => completed.steady moves.same_table.steady).concat
        (fun _ _ _ => .other open_) open_
  · intro entry thread net kept call quiet _ alive
    cases entry with
    | connect fd address addressLen => exact connect_connecting kept call quiet alive
    | notifier ref usrPtr code res => exact notifier_connecting kept call quiet
    | _ =>
      refine (connecting_keeping thread _ none).body connecting_regular ((body_uses _).mono (fun o used raises => ?_)
        fun _ used => used) ?_ kept call nofun
      · subst raises
        exact used
      · intro value now kept call _
        refine ⟨kept.returned ?_, trivial⟩
        intro fd address addressLen _ connects
        cases call.symm.trans connects

/-- In every run that keeps to these choices, a `connect` returns 0 only after its own
connect_thread issued OTConnect on its endpoint and T_CONNECT without an error was
delivered for that endpoint. -/
theorem connect_returns_connected {mainThreadId count : Nat} {world : World kernel}
    (reached : connectChoices.Reaches (initial mainThreadId count) world) {past rest : List Event} {thread : ThreadId}
    {fd : Int} {address : SockaddrIn} {addressLen : Nat}
    (returned : world.state.log = past ++ .returned thread (.int 0) :: rest)
    (call : callOf thread past = some (.connect fd address addressLen)) :
    Connects world.state thread fd (during thread past) := by
  have safe : connecting.rules.Safe (initial mainThreadId count) := by
    refine Rules.Safe.initial ⟨fun _ caller fd connecting => ?_, .nil _⟩ ?_ fun _ => trivial
    · obtain ⟨address, addressLen, call⟩ := connecting.call
      cases call
    · rintro name ⟨event, member, _⟩
      cases member
  have ledger : Ledger (Completed world.state) world.state.log :=
    connecting_sound.everywhere safe rfl (fun _ kept => kept.ledger) (fun _ _ _ stepped => stepped.2)
      (reaches_steadily reached)
  exact ledger past _ rest thread returned rfl rfl fd address addressLen rfl call

section runs

private theorem connectChoices_resuming {thread : ThreadId} {sections : List (List Input)} (action : Action kernel)
    (member : action ∈ resuming thread sections) (world : World kernel) : connectChoices.Allows action world := by
  rcases World.alone_actions member with rfl | ⟨input, rfl⟩
  · trivial
  · exact fun _ _ _ _ _ => trivial

/-- A test of the calls that are begun. -/
private def Event.starts (test : ThreadId → Entry → Bool) : Event → Bool
  | .called thread entry | .spawned _ thread entry => test thread entry
  | _ => true

private theorem callOf_starts {test : ThreadId → Entry → Bool} {log : List Event} {thread : ThreadId} {entry : Entry}
    (passed : log.all (Event.starts test) = true) (call : callOf thread log = some entry) :
      test thread entry = true := by
  obtain ⟨event, member, begins⟩ := callOf_mem call
  have passes := List.all_eq_true.mp passed event member
  cases event with
  | called caller begun | spawned _ caller begun =>
    simp only [Event.begins, Option.ite_none_right_eq_some, Option.some.injEq] at begins
    obtain ⟨rfl, rfl⟩ := begins
    exact passes
  | _ => cases begins

private def opened : World kernel := (initial 0 3).after (opening 1)
private def requested : World kernel := opened.after requesting

private def connected : World kernel := requested.after confirming

/-- T_DISCONNECT is delivered instead, and `connect` returns all the same. -/
private def disconnected : World kernel :=
  requested.after (calling 2 (.notifier 0 0 .tDisconnect noErr)
    [[.none], [.none, .none, .status noErr, .none, .none]] ++
    resuming 1 [[.none, .none, .none, .none], [.none]])

private theorem requested_reached : connectChoices.Reaches (initial 0 3) requested := by
  have opens : connectChoices.Reaches (initial 0 3) opened := .afterwards _ trivial connectChoices_resuming
  refine opens.trans _ (.afterwards _ ?_ ?_)
  · rintro (finished | ⟨actor, ⟨_, _, _, _, call⟩, _⟩)
    · exact nomatch (show opened.state.finished = false from rfl).symm.trans finished
    · have started := @callOf_starts (fun _ entry => match entry with | .notifier .. => false | _ => true) _ _ _ rfl
        call
      cases started
  · intro action member
    exact (List.mem_append.mp member).elim (connectChoices_resuming action) (connectChoices_resuming action)

theorem connect_returns_connected_first :
    Connects connected.state 1 0 (during 1 (connected.state.log.take 27)) := by
  refine @connect_returns_connected 0 3 connected ?_ (connected.state.log.take 27) [] 1 0 ⟨80, 1⟩ 16 rfl rfl
  refine requested_reached.trans _ (.afterwards _ ?_ ?_)
  · intro caller fd connecting _
    obtain ⟨address, addressLen, call⟩ := connecting.call
    have started := @callOf_starts (fun thread entry => match entry with
      | .connect fd .. => thread = 1 ∧ fd = 0
      | _ => true) _ _ _ rfl call
    obtain ⟨rfl, rfl⟩ : caller = 1 ∧ fd = 0 := by simpa using started
    refine ⟨rfl, Int.le_refl 0, 0, 3, ⟨0, ⟨80, 1⟩, 16⟩, some ⟨80, 1⟩, kOTNoDataErr, rfl, rfl, ?_⟩
    have order : during 1 requested.state.log = .spawned 1 3 (.connectThread ⟨0, ⟨80, 1⟩, 16⟩) ::
        ((during 1 requested.state.log).take 10).drop 1 ++
          .openTransport 3 (.connect (some 0) (some ⟨80, 1⟩) kOTNoDataErr) :: [.returned 3 (.int 0)] := rfl
    rw [order]
    exact .cons_cons _ (List.Sublist.append (List.nil_sublist _) (.cons_cons _ (List.nil_sublist _)))
  · intro action member
    exact (List.mem_append.mp member).elim (connectChoices_resuming action) (connectChoices_resuming action)

theorem connect_returns_disconnected : (Choices.all kernel).Reaches (initial 0 3) disconnected ∧
    disconnected.state.log = disconnected.state.log.take 26 ++ [.returned 1 (.int 0)] ∧
    callOf 1 (disconnected.state.log.take 26) = some (.connect 0 ⟨80, 1⟩ 16) ∧
    ¬ Connects disconnected.state 1 0 (during 1 (disconnected.state.log.take 26)) := by
  refine ⟨requested_reached.widen.trans _ .after, rfl, rfl, ?_⟩
  rintro ⟨p, child, params, target, result, ref, actor, usrPtr, res, _, _, _, order⟩
  have none : (during 1 (disconnected.state.log.take 26)).all (fun event => match event with
    | .called _ (.notifier _ _ .tConnect _) => false
    | _ => true) = true := rfl
  have member : .called actor (.notifier ref usrPtr .tConnect res) ∈ during 1 (disconnected.state.log.take 26) :=
    order.subset (by simp)
  exact Bool.false_ne_true (List.all_eq_true.mp none _ member)

end runs

end PowerBoot.PowerNet
