import PowerBoot.PowerNet.Dialogue

/-! Every call keeps to its script. -/

namespace PowerBoot.PowerNet
open Coop Code

theorem reports_plainly : ∀ o, reportOps o → o.Plainly := by
  intro o reports
  cases o <;> first | exact False.elim reports | exact trivial

/-- In the middle of a call that has made these requests. -/
abbrev Speaks (thread : ThreadId) (entry : Entry) (endpoint : Option EndpointRef) (said : List Request)
    (socket : Option Ptr) : Net → Net → Prop := talking.Works thread entry (Saying thread entry endpoint said socket)

section speaks
variable {thread : ThreadId} {entry : Entry} {endpoint : Option EndpointRef} {said : List Request} {socket : Option Ptr}
  {s : Ptr} {start now : Net} {α β : Type} {post : α → Net → Net → Prop}

theorem Speaks.plain (works : Speaks thread entry endpoint said socket start now) {code : Shim β} {rest : β → Shim α}
    (uses : code.Uses Op.Plainly connectEntries)
    (safe : ∀ value start now, Speaks thread entry endpoint said socket start now →
      talking.rules.Holds thread (rest value) post start now) :
    talking.rules.Holds thread (code >>= rest) post start now :=
  Discipline.Works.plain works talking_regular saying_lasting.keeping uses safe

theorem Speaks.last (works : Speaks thread entry endpoint said socket start now) {code : Shim α}
    (uses : code.Uses Op.Plainly connectEntries)
    (safe : ∀ value start now, Speaks thread entry endpoint said socket start now → post value start now) :
    talking.rules.Holds thread code post start now :=
  Discipline.Works.last works talking_regular saying_lasting.keeping uses safe

theorem Speaks.op (works : Speaks thread entry endpoint said socket start now) (o : Op) (plain : o.Plainly)
    {rest : o.Reply → Shim α}
    (safe : ∀ reply after, Does thread o reply now after → Speaks thread entry endpoint said socket start after →
      talking.rules.Holds thread (rest reply) post start after) :
    talking.rules.Holds thread (perform o >>= rest) post start now :=
  Discipline.Works.op works talking_regular saying_lasting.keeping o plain safe

/-- The socket's endpoint is the one that the call is about. -/
theorem Speaks.load (works : Speaks thread entry endpoint said (some s) start now) {rest : Socket → Shim α}
    (safe : ∀ held after, now.heap[s]? = some held → held.endpoint = endpoint →
      Speaks thread entry endpoint said (some s) start after → talking.rules.Holds thread (rest held) post start after)
        :
    talking.rules.Holds thread (perform (.load s) >>= rest) post start now := by
  refine Speaks.op works (.load s) trivial fun held after does works => ?_
  exact safe held after does.answer (does.loaded.2.symm.trans (works.2.2.has s rfl).2) works

theorem Speaks.checked (works : Speaks thread entry endpoint said (some s) start now) {line : Nat} {func : String}
    {function : OTFunction} (follows : said ++ [.status function endpoint] <+: entry.script endpoint)
    {rest : Unit → Shim α}
    (safe : ∀ start now, Speaks thread entry endpoint (said ++ [.status function endpoint]) (some s) start now →
      talking.rules.Holds thread (rest ()) post start now) :
    talking.rules.Holds thread (checked line func function s >>= rest) post start now := by
  apply Rules.Holds.bind
  refine Speaks.load works fun held after _ same works => ?_
  subst same
  refine Saying.status works function held.endpoint follows fun _ _ works => ?_
  exact Speaks.last works (throwOsErr_uses reports_plainly _ _ _ _) fun _ start now works => safe start now works

theorem Speaks.returns (works : Speaks thread entry endpoint said socket start now)
    (whole : said = entry.script endpoint) (value : Value) : talking.rules.Returns thread value start now :=
  Discipline.Works.returns works talking_regular
    (works.1.invariant.returned works.2.1 works.2.2.concerns (works.2.2.requests.trans whole)) trivial

end speaks

section calls
variable {thread : ThreadId} {net : Net}

theorem talking_begins {entry : Entry} (kept : Talking net) (call : callOf thread net.log = some entry)
    (quiet : since thread net.log = []) : talking.Works thread entry (Mute thread) net net :=
  .begins talking_regular kept call (by simp [Mute, Unreturned, asked, quiet])

/-- The call finds its socket in the table, or throws. -/
theorem openSocketsAt_talking {entry : Entry} {fd : Nat} {α : Type} {rest : Ptr → Shim α} {post : α → Net → Net → Prop}
    (kept : Talking net) (call : callOf thread net.log = some entry) (quiet : since thread net.log = [])
    (concerns : ∀ {s now} calls, now.lookup fd = some s → entry.Concerns now calls (now.endpointAt s))
    (holds : ∀ {s now}, s ∈ now.pointers → entry.Holds thread s now)
    (safe : ∀ s endpoint start now, Speaks thread entry endpoint [] (some s) start now →
      talking.rules.Holds thread (rest s) post start now) :
    talking.rules.Holds thread (openSocketsAt fd >>= rest) post net net := by
  refine (talking_begins kept call quiet).openSocketsAt talking_regular mute_lasting.keeping trivial
    fun s now found works => safe s (now.endpointAt s) net now ⟨works.1, works.2.1, ?_⟩
  obtain ⟨going, mute⟩ : Mute thread now := works.2.2
  refine ⟨concerns _ found, by rw [mute]; rfl, going, List.nil_prefix, ?_⟩
  rintro _ ⟨⟩
  exact ⟨holds (Net.lookup_pointers found), rfl⟩

theorem recv_talking {fd : Int} {nbytes : Nat} {flags : Int} (kept : Talking net)
    (call : callOf thread net.log = some (.recv fd nbytes flags)) (quiet : since thread net.log = []) :
    talking.rules.Holds thread (body (.recv fd nbytes flags)) (talking.rules.Returns thread) net net := by
  apply Rules.Holds.bind
  refine openSocketsAt_talking kept call quiet (fun _ found => ⟨_, found, rfl⟩) id fun s endpoint _ _ works => ?_
  refine Speaks.plain works pause_uses fun _ _ _ works => Speaks.load works fun held _ _ same works => ?_
  subst same
  refine Saying.asks works (.otRcv held.endpoint nbytes) id (fun _ => rfl) (fun _ => ⟨_, rfl, rfl, by simp⟩) (by simp)
    ⟨_, rfl⟩ fun reply _ works => ?_
  refine Speaks.last works ?_ fun value _ _ works => Speaks.returns works rfl _
  dsimp only
  split
  · exact uses_op trivial fun _ => trivial
  · refine uses_pause (uses_then (whileYield_uses (perform_uses trivial)) fun _ => ?_)
    exact uses_op trivial fun _ => uses_op trivial fun _ => uses_pause trivial

theorem send_talking {fd : Int} {buf : Bytes} {flags : Int} (kept : Talking net)
    (call : callOf thread net.log = some (.send fd buf flags)) (quiet : since thread net.log = []) :
    talking.rules.Holds thread (body (.send fd buf flags)) (talking.rules.Returns thread) net net := by
  apply Rules.Holds.bind
  refine openSocketsAt_talking kept call quiet (fun _ found => ⟨_, found, rfl⟩) id fun s endpoint _ _ works => ?_
  refine Speaks.plain works pause_uses fun _ _ _ works => ?_
  dsimp only
  split
  next none => exact Speaks.returns works (if_pos (List.length_eq_zero_iff.mp none)).symm _
  next some_ =>
    have script : (Entry.send fd buf flags).script endpoint = [.snd endpoint buf] :=
      if_neg fun none => some_ (by rw [none]; rfl)
    refine Speaks.op works (.assign s (.sendHalt true)) trivial fun _ _ _ works => ?_
    refine Speaks.load works fun held _ _ same works => ?_
    subst same
    refine Saying.asks works (.otSnd held.endpoint buf) id (fun _ => rfl) (fun _ => ⟨_, rfl, rfl, by simp⟩) (by simp)
      (script ▸ List.prefix_rfl) fun reply _ works => ?_
    have uses : (sndAnswered s reply).Uses Op.Plainly connectEntries :=
      sndAnswered_uses trivial trivial trivial trivial reply
    exact Speaks.last works uses fun value _ _ works => Speaks.returns works script.symm _

/-- Nobody raises the flag on which the T_DATA case waits, so it only counts the bytes. -/
theorem receiveData_talking {entry : Entry} {endpoint : Option EndpointRef} {said : List Request} {s : Ptr}
    {start now : Net} (works : Speaks thread entry endpoint said (some s) start now)
    (follows : said ++ [.status .countDataBytes endpoint] <+: entry.script endpoint) :
    talking.rules.Holds thread (receiveData s)
      (fun _ => Speaks thread entry endpoint (said ++ [.status .countDataBytes endpoint]) (some s)) start now := by
  refine Speaks.load works fun held _ _ same works => ?_
  subst same
  refine Saying.status works .countDataBytes held.endpoint follows fun _ _ works => ?_
  refine Speaks.plain works pause_uses fun _ _ now works => ?_
  refine Speaks.op works (.recvHalt s) trivial fun halted after does works => ?_
  obtain ⟨socket, at_, rfl⟩ := does.answer
  have heap : after.heap = now.heap := does.heap
  have down := (works.1.invariant.calm socket (heap ▸ List.mem_of_getElem? at_)).1
  rw [when, if_neg (by simp [down])]
  exact works

theorem handle_talking {ref : EndpointRef} {s : Ptr} {code : OTEventCode} {res : Int} {start now : Net}
    (works : Speaks thread (.notifier ref s code res) (some ref) [] (some s) start now) :
    talking.rules.Holds thread (handle s (some ref) code) (fun _ => Speaks thread (.notifier ref s code res) (some ref)
      ((Entry.notifier ref s code res).script (some ref)) (some s)) start now := by
  cases code with
  | tConnect =>
    refine Saying.status works .rcvConnect (some ref) ⟨_, rfl⟩ fun _ _ works => ?_
    refine Speaks.plain works (throwOsErr_uses reports_plainly _ _ _ _) fun _ start now works => ?_
    refine Saying.status works .inetAddressToName none ⟨_, rfl⟩ fun _ _ works => ?_
    exact Speaks.last works pause_uses fun _ _ _ works => works
  | tData | tExData => exact receiveData_talking works ⟨_, rfl⟩
  | tDisconnect =>
    refine Saying.status works .rcvDisconnect (some ref) ⟨_, rfl⟩ fun _ _ works => ?_
    exact Speaks.last works (macErrorThrow_uses reports_plainly _ _) fun _ _ _ works => works
  | _ =>
    refine Speaks.last works ?_ fun _ _ _ works => works
    first | exact macErrorThrow_uses reports_plainly _ _ | trivial

theorem notifier_talking {ref : EndpointRef} {s : Ptr} {code : OTEventCode} {res : Int} (kept : Talking net)
    (call : callOf thread net.log = some (.notifier ref s code res)) (quiet : since thread net.log = []) :
    talking.rules.Holds thread (body (.notifier ref s code res)) (talking.rules.Returns thread) net net := by
  apply Rules.Holds.bind
  obtain ⟨listed, opened⟩ := kept.notified thread ref s code res call
  have begins : Speaks thread (.notifier ref s code res) (some ref) [] (some s) net net := by
    refine .begins talking_regular kept call ⟨rfl, by rw [quiet]; rfl, by simp [Unreturned, quiet],
      List.nil_prefix, ?_⟩
    rintro _ ⟨⟩
    exact ⟨listed, opened⟩
  refine Speaks.plain begins pause_uses fun _ _ _ works => ?_
  refine Speaks.op works (.setFinished true) trivial fun _ _ _ works => ?_
  refine Speaks.plain works (throwOsErr_uses reports_plainly _ _ _ _) fun _ _ _ works => ?_
  refine Speaks.load works fun held _ _ same works => ?_
  dsimp only
  rw [same]
  apply Rules.Holds.bind
  refine (handle_talking works).mono fun _ start now works => ?_
  refine Speaks.op works (.assign s (.halting false)) trivial fun _ _ _ works => ?_
  exact Speaks.last works pause_uses fun _ _ _ works => Speaks.returns works rfl _

theorem connectThread_talking {params : ConnectThreadParams} (kept : Talking net)
    (call : callOf thread net.log = some (.connectThread params)) (quiet : since thread net.log = []) :
    talking.rules.Holds thread (body (.connectThread params)) (talking.rules.Returns thread) net net := by
  apply Rules.Holds.bind
  refine openSocketsAt_talking kept call quiet (fun _ found => ⟨_, found, rfl⟩) id fun s endpoint _ _ works => ?_
  refine Speaks.plain works pause_uses fun _ _ _ works => ?_
  refine Speaks.op works (.assign s (.halting true)) trivial fun _ _ _ works => ?_
  refine Speaks.checked works ⟨_, rfl⟩ fun _ _ works => Speaks.checked works ⟨_, rfl⟩ fun _ _ works => ?_
  refine Speaks.checked works ⟨_, rfl⟩ fun _ _ works => Speaks.checked works ⟨_, rfl⟩ fun _ _ works => ?_
  refine Speaks.checked works ⟨_, rfl⟩ fun _ _ works => Speaks.load works fun held now _ same works => ?_
  have installs : ∀ ref p, Op.otInstallNotifier held.endpoint s = .otInstallNotifier (some ref) p → Fits now ref p := by
    intro ref p installed
    obtain ⟨opened, rfl⟩ := Op.otInstallNotifier.inj installed
    exact (works.2.2.has s rfl).imp_right (·.trans (same.symm.trans opened))
  subst same
  refine Saying.asks works (.otInstallNotifier held.endpoint s) id (fun _ => rfl) (fun _ => ⟨_, rfl, rfl, by simp⟩)
    installs ⟨_, rfl⟩ fun _ _ works => ?_
  refine Speaks.plain works (throwOsErr_uses reports_plainly _ _ _ _) fun _ _ _ works => ?_
  refine Speaks.plain works pause_uses fun _ _ _ works => ?_
  refine Saying.status works .initInetAddress none ⟨_, rfl⟩ fun _ _ works => ?_
  refine Speaks.plain works pause_uses fun _ _ _ works => ?_
  -- no yield comes between the assignment of the address and OTConnect
  refine Speaks.op works (.assign s (.sndCall params.address)) trivial fun _ _ told works => ?_
  refine Speaks.op works (.setFinished false) trivial fun _ _ cleared works => ?_
  refine Speaks.op works (.assign s (.halting true)) trivial fun _ _ halted works => ?_
  refine Speaks.load works fun target _ at_ same works => ?_
  have address : target.sndCall = some params.address := by
    have inside := told.answer
    simp only [halted.heap, cleared.heap, told.heap, Op.heap, Op.Answers] at at_ inside
    simp [inside, Assign.apply] at at_
    rw [← at_]
  refine Saying.asks works (.otConnect target.endpoint target.sndCall) id (fun _ => rfl)
    (fun _ => ⟨_, rfl, by rw [OTCall.request, same, address], by simp⟩) (by simp) ⟨_, rfl⟩ fun _ _ works => ?_
  refine Speaks.plain works pause_uses fun _ _ _ works => ?_
  refine Speaks.plain works (when_uses (throwOsErr_uses reports_plainly _ _ _ _)) fun _ _ _ works => ?_
  exact Speaks.last works pause_uses fun _ _ _ works => Speaks.returns works rfl _

/-- `connect` and `select` ask nothing. -/
theorem mute_talking {entry : Entry} (kept : Talking net) (call : callOf thread net.log = some entry)
    (quiet : since thread net.log = []) (plain : ∀ o, entry.ops o → o.Plainly) (silent : entry.script none = [])
    (concerns : ∀ net calls, entry.Concerns net calls none) :
    talking.rules.Holds thread (body entry) (talking.rules.Returns thread) net net := by
  refine mute_lasting.keeping.body talking_regular ((body_uses entry).mono plain fun _ used => used) ?_ kept call
    (talking_begins kept call quiet).2.2
  exact fun value now kept call mute => ⟨kept.returned call (concerns _ _) (by rw [mute.2, silent]; rfl), trivial⟩

section socket
variable {domain type protocol : Int} {skt : Ptr} {start now after : Net}

theorem configure_talking
    (works : Speaks thread (.socket domain type protocol) none [.status .initOpenTransport none] (some skt) start now) :
    talking.rules.Holds thread (configure skt type) (fun _ => Speaks thread (.socket domain type protocol) none
      ([.status .initOpenTransport none] ++ configures type) (some skt)) start now := by
  have configured (known : type = SOCK_STREAM ∨ type = SOCK_DGRAM) (cfg : String) :
      talking.rules.Holds thread (do
        let _ ← perform (.openTransport .createConfiguration none)
        perform (.assign skt (.cfg cfg)) : Shim Unit) (fun _ => Speaks thread (.socket domain type protocol) none
          ([.status .initOpenTransport none] ++ configures type) (some skt)) start now := by
    rw [configures, if_pos known]
    refine Saying.status works .createConfiguration none ?_ fun _ _ works => ?_
    · simp [Entry.script, configures, known]
    · exact Speaks.last works (perform_uses trivial) fun _ _ _ works => works
  unfold configure
  split
  next stream => exact configured (.inl stream) "tcp"
  next other =>
    split
    next datagram => exact configured (.inr datagram) "udp"
    next unknown =>
      have none_ : configures type = [] := if_neg (not_or.mpr ⟨other, unknown⟩)
      rw [none_]
      exact Speaks.last works (macErrorThrow_uses reports_plainly _ _) fun _ _ _ works => works

/-- The socket is made, and has no endpoint yet. -/
theorem Saying.created {said : List Request} (saying : Saying thread (.socket domain type protocol) none said none now)
    (kept : Table now) (does : Does thread .newSocket skt now after) :
    Saying thread (.socket domain type protocol) none said (some skt) after := by
  obtain ⟨_, keeps, owns⟩ := kept.create does
  have saying := saying.still (still_does does rfl) (keeps thread)
  refine ⟨saying.concerns, saying.requests, saying.going, saying.follows, ?_⟩
  rintro _ ⟨⟩
  have fresh : skt = now.heap.length := does.answer
  exact ⟨owns, by simp [Net.endpointAt, does.heap, Op.heap, fresh]⟩

/-- From here on the endpoint is known. -/
theorem Saying.opened {cfg : Option String} {reply : Option EndpointRef × Int}
    (saying : Saying thread (.socket domain type protocol) none
      ([.status .initOpenTransport none] ++ configures type) (some skt) now)
    (does : Does thread (.otOpenEndpoint cfg) reply now after) :
    Saying thread (.socket domain type protocol) reply.1
      ([.status .initOpenTransport none] ++ configures type ++ [.openEndpoint]) none after := by
  have asked_ : asked (since thread after.log) = asked (since thread now.log) ++ [.openEndpoint reply.1 reply.2] :=
    asked_does does
  refine ⟨?_, ?_, unreturned_does does saying.going, by simp [Entry.script], by simp⟩
  · intro opened result member
    rw [asked_] at member
    rcases List.mem_append.mp member with before | last
    · have requested : Request.openEndpoint ∈ [.status .initOpenTransport none] ++ configures type :=
        saying.requests ▸ List.mem_map_of_mem (f := OTCall.request) before
      rw [configures] at requested
      split at requested <;> simp at requested
    · exact (OTCall.openEndpoint.inj (List.mem_singleton.mp last)).1.symm
  · rw [asked_, List.map_append, saying.requests]
    rfl

/-- The socket gets the endpoint. -/
theorem Saying.attached {opened : Option EndpointRef} {said : List Request}
    (saying : Saying thread (.socket domain type protocol) opened said none now) (steady : Steady now after)
    (owns : Owns thread skt after) (does : Does thread (.assign skt (.endpoint opened)) () now after) :
    Saying thread (.socket domain type protocol) opened said (some skt) after := by
  have still : Still thread now after := still_does does rfl
  refine ⟨still.asked ▸ saying.concerns.steady steady, still.asked ▸ saying.requests, still.going saying.going,
    saying.follows, ?_⟩
  rintro _ ⟨⟩
  have inside : skt < now.heap.length := does.answer
  exact ⟨owns, by simp [Net.endpointAt, does.heap, Op.heap, inside, Assign.apply]⟩

/-- The socket is listed and its creator needs it no longer. -/
theorem Saying.listed {opened : Option EndpointRef} {said : List Request} {fd : Nat}
    (saying : Saying thread (.socket domain type protocol) opened said (some skt) now) (steady : Steady now after)
    (does : Does thread (.insert fd skt) () now after) :
    Saying thread (.socket domain type protocol) opened said none after := by
  have still : Still thread now after := still_does does rfl
  exact ⟨still.asked ▸ saying.concerns.steady steady, still.asked ▸ saying.requests, still.going saying.going,
    saying.follows, by simp⟩

theorem socket_talking (kept : Talking net) (call : callOf thread net.log = some (.socket domain type protocol))
    (quiet : since thread net.log = []) :
    talking.rules.Holds thread (body (.socket domain type protocol)) (talking.rules.Returns thread) net net := by
  apply Rules.Holds.bind
  have begins : Speaks thread (.socket domain type protocol) none [] none net net := by
    refine .begins talking_regular kept call ⟨?_, by rw [quiet]; rfl, by simp [Unreturned, quiet], List.nil_prefix,
      by simp⟩
    simp [Entry.Concerns, asked, quiet]
  refine Saying.status begins .initOpenTransport none ⟨_, rfl⟩ fun _ _ works => ?_
  refine Speaks.plain works (when_uses (macErrorThrow_uses reports_plainly _ _)) fun _ _ _ works => ?_
  refine Speaks.plain works pause_uses fun _ start now works => Discipline.holds_op fun _ skt after _ executed does =>
    ?_
  obtain ⟨kept, keeps, _⟩ := works.1.invariant.table.create does
  obtain ⟨talks, works⟩ := saying_lasting.step works executed kept (keeps thread).1 (fun other _ => keeps other)
    (does.calm trivial works.1.invariant.calm) (by simp) (works.2.2.created works.1.invariant.table does)
  refine ⟨talks, Speaks.plain works pause_uses fun _ _ _ works => ?_⟩
  apply Rules.Holds.bind
  refine (configure_talking works).mono fun _ _ _ works => Speaks.plain works pause_uses fun _ _ _ works => ?_
  refine Speaks.load works fun held start now _ works => Discipline.holds_op fun _ reply opening _ executed does => ?_
  have same := does.same_table id
  have unused := works.1.invariant.table.open does
  have owns := same.owns (works.2.2.has skt rfl).1
  obtain ⟨talks, works⟩ := saying_lasting.step works executed (same.table works.1.invariant.table) same.steady
    (fun other _ => same.keeps other) (does.calm trivial works.1.invariant.calm) (by simp) (works.2.2.opened does)
  refine ⟨talks, Discipline.holds_op fun _ _ after _ executed does => ?_⟩
  obtain ⟨kept, steady, keeps, owns⟩ := works.1.invariant.table.attach owns unused does
  obtain ⟨talks, works⟩ := saying_lasting.step works executed kept steady keeps
    (does.calm trivial works.1.invariant.calm) (by simp) (works.2.2.attached steady owns does)
  refine ⟨talks, Speaks.plain works (throwOsErr_uses reports_plainly _ _ _ _) fun _ _ _ works => ?_⟩
  refine Speaks.plain works pause_uses fun _ _ _ works => Speaks.load works fun held _ _ same works => ?_
  dsimp only
  rw [same]
  refine Saying.status works .useSyncIdleEvents reply.1 (by simp [Entry.script]) fun _ _ works => ?_
  refine Speaks.plain works pause_uses fun _ _ now works => ?_
  refine Speaks.op works .size trivial fun socketId sized counted works => ?_
  refine Speaks.op works (.assign skt (.id socketId)) trivial fun _ named does works => ?_
  have same : named.openSockets = now.openSockets := does.openSockets.trans counted.openSockets
  have size : socketId = named.openSockets.length := by
    rw [same]
    exact counted.answer
  refine Discipline.holds_op fun _ _ after _ executed does => ?_
  subst size
  obtain ⟨kept, steady, keeps⟩ := works.1.invariant.table.list (works.2.2.has skt rfl).1 does
  obtain ⟨talks, works⟩ := saying_lasting.step works executed kept steady keeps
    (does.calm trivial works.1.invariant.calm) (by simp) (works.2.2.listed steady does)
  refine ⟨talks, Speaks.plain works pause_uses fun _ _ _ works => ?_⟩
  exact Speaks.returns works (by simp [Entry.script]) _

end socket
end calls

theorem talking_moves {input : Input} {net after : Net} (kept : Talking net) (moves : Moves net after)
    (moved : environment input net = some after) : Talking after := by
  have steady := moves.same_table.steady
  obtain ⟨event, owner, log⟩ := moves.log
  have begins (actor : ThreadId) : event.begins actor = none := by cases event <;> first | rfl | cases owner
  have calls (actor : ThreadId) : callOf actor after.log = callOf actor net.log := by
    rw [log, callOf_concat, begins, Option.none_or]
  refine ⟨moves.same_table.table kept.table, moves.heap ▸ kept.calm, fun ref p installed => ?_,
    fun actor ref p code res call => ?_, fun actor entry call => ?_⟩
  · exact (kept.installed ref p (environment_notifier moved ▸ installed)).steady steady
  · exact (kept.notified actor ref p code res (calls actor ▸ call)).steady steady
  · rw [log, since_concat (begins actor), owner, if_neg (by simp), List.append_nil]
    exact (kept.scripts actor entry (calls actor ▸ call)).steady steady

theorem talking_sound : talking.rules.Sound := by
  refine talking_regular.sound ?_ ?_ ?_
  · intro thread entry net allowed kept _ _
    have begins : (Event.called thread entry).begins thread = some entry := if_pos rfl
    refine ⟨kept.begin begins (fun other different => if_neg (Ne.symm different)) rfl (by simp) (by simp) ?_,
      trivial⟩
    exact fun ref p code res same => kept.installed ref p (allowed ref p code res same)
  · exact fun _ kept moves moved => ⟨talking_moves kept moves moved, moves.same_table.keeps⟩
  · intro entry thread net kept call quiet _ _
    cases entry with
    | socket => exact socket_talking kept call quiet
    | connectThread params => exact connectThread_talking kept call quiet
    | notifier => exact notifier_talking kept call quiet
    | recv => exact recv_talking kept call quiet
    | send => exact send_talking kept call quiet
    | connect | select =>
      refine mute_talking kept call quiet (fun o used => ?_) rfl fun _ _ => trivial
      cases o <;> first | exact False.elim used | exact trivial

theorem talking_initial (mainThreadId count : Nat) : talking.rules.Safe (initial mainThreadId count) := by
  refine Rules.Safe.initial ⟨(table_initial mainThreadId count).invariant rfl, by simp, ?_, by simp [callOf],
    by simp [callOf]⟩ ?_
    fun _ => trivial
  · simp [Net.notifierOf]
  · rintro name ⟨event, member, _⟩
    cases member

/-- Whatever the answers are and whichever threads run in between: a call never asks out of
order, leaves nothing out, asks nothing twice and touches no other endpoint than its own, and
it does not return before it has asked everything. -/
theorem script_kept {mainThreadId count : Nat} {world : World kernel}
    (reached : (Choices.all kernel).Reaches (initial mainThreadId count) world) {thread : ThreadId} {entry : Entry}
    (call : callOf thread world.state.log = some entry) : entry.Keeps world.state (since thread world.state.log) :=
  (talking_sound.everywhere (talking_initial mainThreadId count) rfl (fun _ kept => kept)
    (fun _ _ _ stepped => stepped) (reaches_noticed reached) : Talking world.state).scripts thread entry call

private def made : World kernel := (initial 0 1).after (opening 0)

theorem script_kept_opening :
    (asked (since 0 made.state.log)).map OTCall.request = (Entry.socket 2 SOCK_STREAM 0).script (some 0) ∧
      (Entry.socket 2 SOCK_STREAM 0).Keeps made.state (since 0 made.state.log) :=
  ⟨rfl, @script_kept 0 1 made .after 0 _ rfl⟩

end PowerBoot.PowerNet
