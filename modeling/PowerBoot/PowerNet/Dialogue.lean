import PowerBoot.PowerNet.Receive

/-! What PowerNet asks of Open Transport. Each call has a script: the requests it makes, in order, all
of them about the endpoint of its own socket. Errors and other threads can cut a script short and
can do nothing else to it. -/

namespace PowerBoot.PowerNet
open Coop Code

/-- A call of Open Transport, whatever the answer. -/
inductive Request where
  | status (function : OTFunction) (endpoint : Option EndpointRef)
  | openEndpoint
  | installNotifier (endpoint : Option EndpointRef)
  | connect (endpoint : Option EndpointRef) (address : Option SockaddrIn)
  | rcv (endpoint : Option EndpointRef) (nbytes : Nat)
  | snd (endpoint : Option EndpointRef) (offered : Bytes)

def OTCall.request : OTCall → Request
  | .status function endpoint _ => .status function endpoint
  | .openEndpoint .. => .openEndpoint
  | .installNotifier endpoint _ => .installNotifier endpoint
  | .connect endpoint address _ => .connect endpoint address
  | .rcv endpoint nbytes .. => .rcv endpoint nbytes
  | .snd endpoint offered _ => .snd endpoint offered

def Event.asks : Event → Option OTCall
  | .openTransport _ call => some call
  | _ => none

/-- The calls of Open Transport among the events of a call. -/
def asked (events : List Event) : List OTCall := events.filterMap Event.asks

def Unreturned (events : List Event) : Prop := ∀ thread value, Event.returned thread value ∉ events

/-- What `configure` asks for. An unknown type of socket has no configuration, and is opened all the same. -/
def configures (type : Int) : List Request :=
  if type = SOCK_STREAM ∨ type = SOCK_DGRAM then [.status .createConfiguration none] else []

/-- The requests of a call about `endpoint`. -/
def Entry.script (endpoint : Option EndpointRef) : Entry → List Request
  | .socket _ type _ => .status .initOpenTransport none :: (configures type ++
      [.openEndpoint, .status .useSyncIdleEvents endpoint])
  | .connectThread params =>
    [.status .setBlocking endpoint, .status .setSynchronous endpoint, .status .bind endpoint,
      .status .setNonBlocking endpoint, .status .setAsynchronous endpoint, .installNotifier endpoint,
      .status .initInetAddress none, .connect endpoint (some params.address)]
  | .notifier _ _ code _ => match code with
    | .tConnect => [.status .rcvConnect endpoint, .status .inetAddressToName none]
    | .tData | .tExData => [.status .countDataBytes endpoint]
    | .tDisconnect => [.status .rcvDisconnect endpoint]
    | _ => []
  | .recv _ nbytes _ => [.rcv endpoint nbytes]
  | .send _ buf _ => if buf = [] then [] else [.snd endpoint buf]
  | .connect .. | .select .. => []

/-- The endpoint that a call is about: that of the socket listed under its descriptor, the one
that the event is for, or the one it has opened itself. -/
def Entry.Concerns (net : Net) (calls : List OTCall) (endpoint : Option EndpointRef) : Entry → Prop
  | .connectThread params => ∃ p, net.lookup (key params.socket) = some p ∧ net.endpointAt p = endpoint
  | .recv fd _ _ | .send fd _ _ => ∃ p, net.lookup (key fd) = some p ∧ net.endpointAt p = endpoint
  | .notifier ref _ _ _ => endpoint = some ref
  | .socket .. => ∀ opened result, .openEndpoint opened result ∈ calls → endpoint = opened
  | .connect .. | .select .. => True

/-- The requests are the beginning of the script, and all of it once the call has returned. -/
def Entry.Keeps (net : Net) (events : List Event) (entry : Entry) : Prop :=
  Unreturned events ∧ asked events = [] ∨ ∃ endpoint, entry.Concerns net (asked events) endpoint ∧
    (Unreturned events ∧ (asked events).map OTCall.request <+: entry.script endpoint ∨
      (asked events).map OTCall.request = entry.script endpoint)

/-- A notifier is given the socket whose endpoint it is installed for. -/
def Fits (net : Net) (ref : EndpointRef) (p : Ptr) : Prop := p ∈ net.pointers ∧ net.endpointAt p = some ref

/-- The context pointer of the notifier of an endpoint. -/
def Net.notifierOf (ref : EndpointRef) (net : Net) : Option Ptr := net.endpoints[ref]?.bind Endpoint.notifier

structure Talking (net : Net) : Prop where
  table : Table net
  calm : ∀ s ∈ net.heap, s.recvHalt = false ∧ s.recvBuf = []
  installed : ∀ ref p, net.notifierOf ref = some p → Fits net ref p
  notified : ∀ thread ref p code res, callOf thread net.log = some (.notifier ref p code res) → Fits net ref p
  scripts : ∀ thread entry, callOf thread net.log = some entry → entry.Keeps net (since thread net.log)

section steps
variable {thread : ThreadId} {net after : Net} {entry : Entry}

theorem Entry.Concerns.steady {calls : List OTCall} {endpoint : Option EndpointRef}
    (concerns : entry.Concerns net calls endpoint) (steady : Steady net after) :
    entry.Concerns after calls endpoint := by
  have listed {fd : Nat} (listed : ∃ p, net.lookup fd = some p ∧ net.endpointAt p = endpoint) :
      ∃ p, after.lookup fd = some p ∧ after.endpointAt p = endpoint := by
    obtain ⟨p, found, opened⟩ := listed
    exact ⟨p, steady.lookup found, (steady.endpoint (Net.lookup_pointers found)).trans opened⟩
  cases entry with
  | connectThread | recv | send => exact listed concerns
  | _ => exact concerns

theorem Entry.Keeps.steady {events : List Event} (keeps : entry.Keeps net events) (steady : Steady net after) :
    entry.Keeps after events :=
  keeps.imp_right fun ⟨endpoint, concerns, begins⟩ => ⟨endpoint, concerns.steady steady, begins⟩

theorem Unreturned.concat {events : List Event} {event : Event} (going : Unreturned events)
    (other : ∀ actor value, event ≠ .returned actor value) : Unreturned (events ++ [event]) := by
  intro actor value member
  rcases List.mem_append.mp member with before | last
  · exact going actor value before
  · exact other actor value (List.mem_singleton.mp last).symm

theorem asked_concat {events : List Event} {event : Event} (silent : event.asks = none) :
    asked (events ++ [event]) = asked events := by simp [asked, silent]

theorem Entry.Keeps.concat {events : List Event} {event : Event} (keeps : entry.Keeps net events)
    (silent : event.asks = none) (other : ∀ actor value, event ≠ .returned actor value) :
    entry.Keeps net (events ++ [event]) := by
  rw [Entry.Keeps, asked_concat silent]
  exact keeps.imp (.imp_left fun going => going.concat other) fun ⟨endpoint, concerns, script⟩ =>
    ⟨endpoint, concerns, script.imp_left (.imp_left fun going => going.concat other)⟩

theorem Fits.steady {ref : EndpointRef} {p : Ptr} (fits : Fits net ref p) (steady : Steady net after) :
    Fits after ref p := ⟨steady.pointers fits.1, (steady.endpoint fits.1).trans fits.2⟩

theorem asked_does {o : Op} {reply : o.Reply} (does : Does thread o reply net after) :
    asked (since thread after.log) = asked (since thread net.log) ++ (o.events thread reply).filterMap Event.asks := by
  rw [asked, does.call.2, List.filterMap_append, ← asked]

theorem unreturned_does {o : Op} {reply : o.Reply} (does : Does thread o reply net after)
    (going : Unreturned (since thread net.log)) : Unreturned (since thread after.log) := by
  rw [does.call.2]
  intro actor value member
  rcases List.mem_append.mp member with before | last
  · exact going actor value before
  · cases o <;> simp [Op.events] at last

theorem notifierOf_update {changed ref : EndpointRef} {change : Endpoint → Endpoint}
    (same : ∀ held, (change held).notifier = held.notifier) :
    (net.updateEndpoint changed change).notifierOf ref = net.notifierOf ref := by
  simp only [Net.notifierOf, Net.updateEndpoint, List.getElem?_modify]
  cases net.endpoints[ref]? with
  | none => rfl
  | some held => by_cases here : changed = ref <;> simp [here, same]

theorem notifierOf_congr (same : after.endpoints = net.endpoints) {ref : EndpointRef} :
    after.notifierOf ref = net.notifierOf ref := by
  simp only [Net.notifierOf, same]

/-- Only OTInstallNotifier changes which notifier an endpoint has. -/
theorem exec_notifier {o : Op} {input : Input} {reply : o.Reply} {ref : EndpointRef} {p : Ptr}
    (executed : exec thread o input net = some (reply, after)) (installed : after.notifierOf ref = some p) :
    net.notifierOf ref = some p ∨ o = .otInstallNotifier (some ref) p := by
  cases o with
  | otInstallNotifier endpoint usrPtr =>
    cases input <;> simp only [exec] at executed <;> cases executed
    cases endpoint with
    | none => exact .inl installed
    | some changed =>
      simp only at installed
      split at installed
      · by_cases here : changed = ref
        · subst here
          simp only [Net.notifierOf, Net.record_endpoints, Net.updateEndpoint, List.getElem?_modify_eq] at installed
          cases held : net.endpoints[changed]? with
          | none => simp [held] at installed
          | some found =>
            rw [held] at installed
            cases installed
            exact .inr rfl
        · refine .inl (Eq.trans ?_ installed)
          simp [Net.notifierOf, Net.updateEndpoint, here]
      · exact .inl installed
  | otOpenEndpoint cfg =>
    cases input with
    | status result =>
      cases executed
      refine .inl ?_
      simp only [Net.notifierOf, Net.record_endpoints] at installed ⊢
      split at installed
      · rw [List.getElem?_append] at installed
        split at installed
        · exact installed
        · rw [List.getElem?_singleton] at installed
          split at installed <;> cases installed
      · exact installed
    | none | moved | arrive | close => simp [exec] at executed
  | otRcv endpoint nbytes =>
    simp only [exec, Option.map_eq_some_iff, Prod.mk.injEq] at executed
    obtain ⟨⟨result, middle⟩, moved, rfl, rfl⟩ := executed
    refine .inl (Eq.trans (Eq.symm ?_) installed)
    cases input with
    | moved count flags =>
      simp only [otRcv, Option.bind_eq_bind, Option.bind_eq_some_iff] at moved
      obtain ⟨changed, rfl, held, found, moved⟩ := moved
      split at moved <;> cases moved
      exact notifierOf_update fun _ => rfl
    | status code =>
      simp only [otRcv] at moved
      split at moved <;> cases moved
      rfl
    | none | arrive | close => simp [otRcv] at moved
  | otSnd endpoint buf =>
    simp only [exec, Option.map_eq_some_iff, Prod.mk.injEq] at executed
    obtain ⟨⟨result, middle⟩, sent, rfl, rfl⟩ := executed
    refine .inl (Eq.trans (Eq.symm ?_) installed)
    cases input with
    | moved count flags =>
      simp only [otSnd, Option.bind_eq_bind, Option.bind_eq_some_iff] at sent
      obtain ⟨changed, rfl, held, found, sent⟩ := sent
      split at sent <;> cases sent
      exact notifierOf_update fun _ => rfl
    | status code =>
      simp only [otSnd] at sent
      split at sent <;> cases sent
      rfl
    | none | arrive | close => simp [otSnd] at sent
  | insert fd socket =>
    cases executed
    refine .inl ((notifierOf_congr ?_).symm.trans installed)
    rw [Net.record_endpoints, Net.insert]
    split <;> rfl
  | load | recvHalt | sendHalt | assign =>
    simp only [exec, Option.map_eq_some_iff] at executed
    obtain ⟨s, found, same⟩ := executed
    cases same
    exact .inl installed
  | openTransport | otConnect =>
    cases input <;> simp only [exec] at executed <;> cases executed
    exact .inl installed
  | mainThreadId | newSocket | lookup | size | finished | setFinished | report =>
    cases executed
    exact .inl installed

theorem environment_notifier {input : Input} {ref : EndpointRef} (moved : environment input net = some after) :
    after.notifierOf ref = net.notifierOf ref := by
  cases input with
  | arrive endpoint bytes =>
    simp only [environment, Option.bind_eq_bind, Option.bind_eq_some_iff] at moved
    obtain ⟨held, found, moved⟩ := moved
    split at moved <;> cases moved
    exact notifierOf_update fun _ => rfl
  | close endpoint =>
    cases moved
    exact notifierOf_update fun _ => rfl
  | none | status | moved => simp [environment] at moved

/-- One operation of a thread, whose calls are still the beginning of its script. -/
theorem Talking.does {o : Op} {input : Input} {reply : o.Reply} (talking : Talking net)
    (executed : exec thread o input net = some (reply, after)) (table : Table after) (steady : Steady net after)
    (calm : ∀ s ∈ after.heap, s.recvHalt = false ∧ s.recvBuf = [])
    (installs : ∀ ref p, o = .otInstallNotifier (some ref) p → Fits net ref p)
    (mine : ∀ entry, callOf thread net.log = some entry → entry.Keeps after (since thread after.log)) :
    Talking after := by
  have does := exec_does executed
  have calls (actor : ThreadId) : callOf actor after.log = callOf actor net.log := by
    rw [does.log]
    exact callOf_append (Op.events_begins thread actor o reply)
  refine ⟨table, calm, fun ref p installed => ?_, fun actor ref p code res call => ?_, fun actor entry call => ?_⟩
  · rcases exec_notifier executed installed with before | rfl
    · exact (talking.installed ref p before).steady steady
    · exact (installs ref p rfl).steady steady
  · exact (talking.notified actor ref p code res (calls actor ▸ call)).steady steady
  · rw [calls] at call
    by_cases same : actor = thread
    · subst same
      exact mine entry call
    · have others : since actor after.log = since actor net.log := ((does.extends same).call call).2.1
      exact others ▸ (talking.scripts actor entry call).steady steady

/-- An event that begins no call. -/
theorem Talking.logged {event : Event} (talking : Talking net) (begins : ∀ actor, event.begins actor = none)
    (made : ∀ actor p, event ≠ .created actor p)
    (keeps : ∀ actor entry, callOf actor net.log = some entry →
      entry.Keeps net (since actor net.log ++ if event.thread = some actor then [event] else [])) :
    Talking (net.record event) := by
  have same := SameTable.record net event made
  have calls (actor : ThreadId) : callOf actor (net.record event).log = callOf actor net.log :=
    callOf_append (by simpa using begins actor)
  refine ⟨same.table talking.table, talking.calm, talking.installed, fun actor ref p code res call => ?_,
    fun actor entry call => ?_⟩
  · exact talking.notified actor ref p code res (calls actor ▸ call)
  · rw [Net.record_log, since_concat (begins actor)]
    exact (keeps actor entry (calls actor ▸ call)).steady same.steady

theorem Talking.record {event : Event} (talking : Talking net) (begins : ∀ actor, event.begins actor = none)
    (silent : event.asks = none) (made : ∀ actor p, event ≠ .created actor p)
    (other : ∀ actor value, event ≠ .returned actor value) : Talking (net.record event) := by
  refine talking.logged begins made fun actor entry call => ?_
  have keeps := talking.scripts actor entry call
  split
  · exact keeps.concat silent other
  · rwa [List.append_nil]

/-- A call returns with its script done. -/
theorem Talking.returned {value : Value} {endpoint : Option EndpointRef} (talking : Talking net)
    (call : callOf thread net.log = some entry) (concerns : entry.Concerns net (asked (since thread net.log)) endpoint)
    (whole : (asked (since thread net.log)).map OTCall.request = entry.script endpoint) :
    Talking (net.record (.returned thread value)) := by
  refine talking.logged (fun _ => rfl) (by simp) fun actor other call' => ?_
  by_cases same : actor = thread
  · subst same
    cases call.symm.trans call'
    rw [Event.thread, if_pos rfl, Entry.Keeps, asked_concat rfl]
    exact .inr ⟨endpoint, concerns, .inr whole⟩
  · rw [Event.thread, if_neg fun mine => same (Option.some.inj mine).symm, List.append_nil]
    exact talking.scripts actor other call'

/-- A call begins. -/
theorem Talking.begin {event : Event} {child : ThreadId} (talking : Talking net)
    (begins : event.begins child = some entry) (others : ∀ actor, actor ≠ child → event.begins actor = none)
    (silent : event.asks = none) (made : ∀ actor p, event ≠ .created actor p)
    (unreturned : ∀ actor value, event ≠ .returned actor value)
    (fits : ∀ ref p code res, entry = .notifier ref p code res → Fits net ref p) : Talking (net.record event) := by
  have same := SameTable.record net event made
  have call (actor : ThreadId) : callOf actor (net.record event).log =
      if actor = child then some entry else callOf actor net.log := by
    rw [Net.record_log, callOf_concat]
    split
    next here => rw [here, begins, Option.some_or]
    next other => rw [others actor other, Option.none_or]
  refine ⟨same.table talking.table, talking.calm, talking.installed, fun actor ref p code res called => ?_,
    fun actor started called => ?_⟩
  · rw [call] at called
    split at called
    · exact fits ref p code res (Option.some.inj called)
    · exact talking.notified actor ref p code res called
  · rw [call] at called
    split at called
    next here =>
      subst here
      rw [Net.record_log, since_begins (by simp [begins])]
      exact .inl ⟨by simp [Unreturned], rfl⟩
    next other =>
      have keeps := (talking.scripts actor started called).steady same.steady
      rw [Net.record_log, since_concat (others actor other)]
      split
      · exact keeps.concat silent unreturned
      · rwa [List.append_nil]

end steps

/-- A notifier is called for an endpoint for which it is installed. -/
def noticed : Choices kernel where
  answers _ _ _ _ := True
  calls _ entry net := ∀ ref p code res, entry = .notifier ref p code res → net.notifierOf ref = some p
  moves _ _ := True

theorem reaches_noticed {start world : World kernel} (reached : (Choices.all kernel).Reaches start world) :
    noticed.Reaches start world := by
  induction reached with
  | start => exact .start
  | @step world next action _ _ stepped ih =>
    refine .step ih ?_ stepped
    cases action with
    | call thread entry =>
      rintro ref p code res rfl
      obtain ⟨admitted, _⟩ := World.step_call stepped
      by_contra absent
      have refused : called thread (.notifier ref p code res) world.state = none := if_neg absent
      exact absurd (refused.symm.trans admitted) nofun
    | «continue» => exact fun _ _ _ _ _ => trivial
    | resume | environment => trivial

def talking : Discipline where
  choices := noticed
  invariant := Talking
  keeps := table.keeps
  step _ _ after := Talking after
  idle _ _ := True

theorem talking_regular : talking.Regular where
  refl := table_regular.refl
  trans := table_regular.trans
  record := table_regular.record
  fresh _ _ := trivial
  idles _ _ := trivial

/-- The operations by which nothing is asked and no socket comes to be, and which leave the flag of
the receive buffer down. -/
def Op.Plainly : Op → Prop
  | .newSocket | .insert .. | .openTransport .. | .otOpenEndpoint _ | .otInstallNotifier .. | .otConnect .. | .otRcv ..
  | .otSnd .. => False
  | .assign _ member => match member with
    | .endpoint _ | .recvHalt true | .pushRecvBuf _ => False
    | _ => True
  | _ => True

theorem Op.Plainly.calm {o : Op} (plain : o.Plainly) : ¬ o.Builds ∧ o.Calm := by
  cases o with
  | assign socket member =>
    cases member with
    | recvHalt value => cases value <;> first | exact False.elim plain | exact ⟨id, trivial⟩
    | _ => first | exact False.elim plain | exact ⟨id, trivial⟩
  | _ => first | exact False.elim plain | exact ⟨id, trivial⟩

theorem Op.Plainly.silent {o : Op} (plain : o.Plainly) (thread : ThreadId) (reply : o.Reply) :
    (o.events thread reply).filterMap Event.asks = [] := by
  cases o <;> first | exact False.elim plain | rfl

/-- The socket of a call is listed, or it is the one that `socket` has made. -/
def Entry.Holds (thread : ThreadId) (p : Ptr) (net : Net) : Entry → Prop
  | .socket .. => Owns thread p net
  | _ => p ∈ net.pointers

theorem Entry.Holds.lasts {thread : ThreadId} {p : Ptr} {entry : Entry} {before after : Net}
    (holds : entry.Holds thread p before) (keeps : table.keeps thread before after) :
    entry.Holds thread p after ∧ after.endpointAt p = before.endpointAt p := by
  cases entry with
  | socket => exact keeps.2 p holds
  | _ => exact ⟨keeps.1.pointers holds, keeps.1.endpoint holds⟩

/-- What a thread has asked, and about which endpoint: that of `socket`, once it has one. -/
structure Saying (thread : ThreadId) (entry : Entry) (endpoint : Option EndpointRef) (said : List Request)
    (socket : Option Ptr) (net : Net) : Prop where
  concerns : entry.Concerns net (asked (since thread net.log)) endpoint
  requests : (asked (since thread net.log)).map OTCall.request = said
  going : Unreturned (since thread net.log)
  follows : said <+: entry.script endpoint
  has : ∀ p, socket = some p → entry.Holds thread p net ∧ net.endpointAt p = endpoint

/-- The thread asks nothing and does not return. -/
structure Still (thread : ThreadId) (before after : Net) : Prop where
  asked : PowerNet.asked (since thread after.log) = PowerNet.asked (since thread before.log)
  going : Unreturned (since thread before.log) → Unreturned (since thread after.log)

section saying
variable {thread : ThreadId} {entry : Entry} {endpoint : Option EndpointRef} {said : List Request} {socket : Option Ptr}
  {start now after : Net}

theorem still_does {o : Op} {reply : o.Reply} (does : Does thread o reply now after)
    (silent : (o.events thread reply).filterMap Event.asks = []) : Still thread now after :=
  ⟨by rw [asked_does does, silent, List.append_nil], unreturned_does does⟩

theorem still_record {event : Event} (begins : event.begins thread = none) (silent : event.asks = none)
    (other : ∀ actor value, event ≠ .returned actor value) : Still thread now (now.record event) := by
  constructor <;> rw [Net.record_log, since_concat begins] <;> split
  · exact asked_concat silent
  · rw [List.append_nil]
  · exact fun going => going.concat other
  · rw [List.append_nil]
    exact id

theorem Saying.keeps (saying : Saying thread entry endpoint said socket now) :
    entry.Keeps now (since thread now.log) :=
  .inr ⟨endpoint, saying.concerns, .inl ⟨saying.going, saying.requests ▸ saying.follows⟩⟩

theorem Saying.still (saying : Saying thread entry endpoint said socket now) (still : Still thread now after)
    (keeps : table.keeps thread now after) : Saying thread entry endpoint said socket after where
  concerns := still.asked ▸ saying.concerns.steady keeps.1
  requests := still.asked ▸ saying.requests
  going := still.going saying.going
  follows := saying.follows
  has p mine := by
    obtain ⟨holds, opened⟩ := saying.has p mine
    exact (holds.lasts keeps).imp_right (·.trans opened)

/-- What a thread knows in a call until it makes its next request. -/
structure Lasting (thread : ThreadId) (entry : Entry) (mine : Net → Prop) : Prop where
  keeps : ∀ {now}, mine now → entry.Keeps now (since thread now.log)
  still : ∀ {now after}, mine now → Still thread now after → table.keeps thread now after → mine after

theorem saying_lasting : Lasting thread entry (Saying thread entry endpoint said socket) := ⟨Saying.keeps, Saying.still⟩

/-- It has asked nothing yet. -/
def Mute (thread : ThreadId) (net : Net) : Prop :=
  Unreturned (since thread net.log) ∧ asked (since thread net.log) = []

theorem mute_lasting : Lasting thread entry (Mute thread) where
  keeps mute := .inl mute
  still mute still _ := ⟨still.going mute.1, still.asked.trans mute.2⟩

/-- Any operation of a call that is under way. -/
theorem Lasting.step {mine more : Net → Prop} (lasting : Lasting thread entry more)
    (works : talking.Works thread entry mine start now) {o : Op} {input : Input} {reply : o.Reply}
    (executed : exec thread o input now = some (reply, after)) (table : Table after) (steady : Steady now after)
    (others : ∀ other, other ≠ thread → PowerNet.table.keeps other now after)
    (calm : ∀ s ∈ after.heap, s.recvHalt = false ∧ s.recvBuf = [])
    (installs : ∀ ref p, o = .otInstallNotifier (some ref) p → Fits now ref p) (holds : more after) :
    Talking after ∧ talking.Works thread entry more start after := by
  have talks : Talking after := by
    refine works.1.invariant.does executed table steady calm installs fun entry' call => ?_
    cases works.2.1.symm.trans call
    exact lasting.keeps holds
  exact ⟨talks, works.step talking_regular (exec_does executed) talks others holds⟩

theorem Lasting.keeping {mine : Net → Prop} (lasting : Lasting thread entry mine) :
    talking.Keeping thread entry Op.Plainly connectEntries mine where
  op {o input now reply after} plain _ executed kept call mine := by
    have does := exec_does executed
    have same := does.same_table plain.calm.1
    have mine := lasting.still mine (still_does does (plain.silent thread reply)) (same.keeps thread)
    have talks : Talking after := by
      refine kept.does executed (same.table kept.table) same.steady (does.calm plain.calm.2 kept.calm) ?_ ?_
      · rintro ref p rfl
        exact False.elim plain
      · intro entry' call'
        cases call.symm.trans call'
        exact lasting.keeps mine
    exact ⟨talks, talks, fun other _ => same.keeps other, mine⟩
  record {now} event marks kept call mine := by
    have made : ∀ actor p, event ≠ .created actor p := by
      rintro actor p rfl
      exact marks
    have silent : event.asks = none := by cases event <;> first | rfl | exact False.elim marks
    have mine := lasting.still mine (still_record marks.begins silent marks.unreturned)
      ((SameTable.record now event made).keeps thread)
    suffices talks : Talking (now.record event) from ⟨talks, talks, mine⟩
    cases event with
    | spawned actor child started =>
      have begins : (Event.spawned actor child started).begins child = some started := if_pos rfl
      refine kept.begin begins (fun other different => if_neg (Ne.symm different)) silent made (by simp) ?_
      rintro ref p code res rfl
      exact marks.2.2.elim
    | threw | disposed => exact kept.record (fun _ => rfl) silent made (by simp)
    | _ => exact False.elim marks
  waits kept moved keeps _ call mine := by
    have same := (moved.call call).2.1
    exact lasting.still mine ⟨congrArg asked same, same ▸ id⟩ keeps
  idle _ _ _ := trivial

/-- A request that is next in the script. -/
theorem Saying.asks (works : talking.Works thread entry (Saying thread entry endpoint said socket) start now) (o : Op)
    {request : Request} (plain : ¬ o.Builds) (heap : ∀ heap, o.heap heap = heap)
    (asks : ∀ reply, ∃ call, (o.events thread reply).filterMap Event.asks = [call] ∧ call.request = request ∧
      ∀ opened result, call ≠ .openEndpoint opened result)
    (installs : ∀ ref p, o = .otInstallNotifier (some ref) p → Fits now ref p)
    (follows : said ++ [request] <+: entry.script endpoint) {α : Type} {rest : o.Reply → Shim α}
    {post : α → Net → Net → Prop}
    (safe : ∀ reply after, talking.Works thread entry (Saying thread entry endpoint (said ++ [request]) socket)
      start after → talking.rules.Holds thread (rest reply) post start after) :
    talking.rules.Holds thread (perform o >>= rest) post start now := by
  refine Discipline.holds_op fun input reply after _ executed does => ?_
  obtain ⟨call, one, same_, other⟩ := asks reply
  have same := does.same_table plain
  have said_ : asked (since thread after.log) = asked (since thread now.log) ++ [call] := by rw [asked_does does, one]
  have mine : Saying thread entry endpoint (said ++ [request]) socket after := by
    refine ⟨?_, ?_, unreturned_does does works.2.2.going, follows, fun p mine => ?_⟩
    · have concerns := works.2.2.concerns.steady same.steady
      rw [said_]
      cases entry with
      | socket =>
        intro opened result member
        rcases List.mem_append.mp member with before | last
        · exact concerns opened result before
        · exact (other opened result (List.mem_singleton.mp last).symm).elim
      | _ => exact concerns
    · rw [said_, List.map_append, works.2.2.requests, List.map_singleton, same_]
    · obtain ⟨holds, opened⟩ := works.2.2.has p mine
      exact (holds.lasts (same.keeps thread)).imp_right (·.trans opened)
  obtain ⟨talks, works⟩ := saying_lasting.step works executed (same.table works.1.invariant.table) same.steady
    (fun other _ => same.keeps other) ((does.heap.trans (heap _)) ▸ works.1.invariant.calm) installs mine
  exact ⟨talks, safe reply after works⟩

/-- A request whose answer is only a status. -/
theorem Saying.status (works : talking.Works thread entry (Saying thread entry endpoint said socket) start now)
    (function : OTFunction) (about : Option EndpointRef)
    (follows : said ++ [.status function about] <+: entry.script endpoint) {α : Type} {rest : Int → Shim α}
    {post : α → Net → Net → Prop}
    (safe : ∀ reply after, talking.Works thread entry
      (Saying thread entry endpoint (said ++ [.status function about]) socket) start after →
      talking.rules.Holds thread (rest reply) post start after) :
    talking.rules.Holds thread (perform (.openTransport function about) >>= rest) post start now :=
  Saying.asks works (.openTransport function about) id (fun _ => rfl) (fun _ => ⟨_, rfl, rfl, by simp⟩)
    (by simp) follows safe

end saying

end PowerBoot.PowerNet
