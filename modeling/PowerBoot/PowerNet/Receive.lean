import PowerBoot.PowerNet.Descriptors

/-! Receiving. Nobody ever raises the flag on which `recv` and the notifier agree, so
the notifier never reads: all bytes leave an endpoint through the buffer of a
`recv` that returns them at once. -/

namespace PowerBoot.PowerNet
open Coop Code Memory

/-- Parts of a history put one after the other, each seen with its past and future. -/
def along {α : Type} (part : List Event → Event → List Event → List α) : List Event → List Event → List α
  | _, [] => []
  | past, event :: rest => part past event rest ++ along part (past ++ [event]) rest

theorem along_eq_flatMap {α : Type} {part : List Event → Event → List Event → List α} {whole : Event → List α}
    {past log : List Event} (same : ∀ before event rest, log = before ++ event :: rest →
      part (past ++ before) event rest = whole event) : along part past log = log.flatMap whole := by
  induction log generalizing past with
  | nil => rfl
  | cons event log ih =>
    rw [along, List.flatMap_cons]
    have first := same [] event log rfl
    rw [List.append_nil] at first
    rw [first, ih]
    intro before found rest split
    simpa using same (event :: before) found rest (by rw [split, List.cons_append])

/-- What a `recv` on `fd` hands out of this OTRcv call, if it returns a positive count. -/
def handedBy (fd : Nat) (past : List Event) (event : Event) (rest : List Event) : Bytes :=
  match event with
  | .openTransport thread (.rcv ..) =>
    match callOf thread past, resultOf thread rest with
    | some (.recv descriptor _ _), some (.received count buf) =>
      if key descriptor = fd ∧ 0 < count then buf.take count.toNat else []
    | _, _ => []
  | _ => []

/-- The bytes handed out on `fd`, in the order of the OTRcv calls. -/
def handedOut (fd : Nat) (log : List Event) : Bytes := along (handedBy fd) [] log

def Event.Receives : Event → Prop
  | .openTransport _ (.rcv ..) => True
  | _ => False

theorem Event.moved_other {event : Event} (other : ¬ event.Receives) (ref : EndpointRef) : event.moved ref = [] := by
  cases event with
  | openTransport thread call => cases call <;> first | rfl | exact (other trivial).elim
  | _ => rfl

/-- The bytes of an OTRcv call belong to a `recv`, which returns exactly these. -/
def Received (net : Net) (past : List Event) (thread : ThreadId) (event : Event) (result : Option Value) : Prop :=
  ∀ endpoint nbytes ret moved, event = .openTransport thread (.rcv endpoint nbytes ret moved) →
    ∃ fd n flags, callOf thread past = some (.recv fd n flags) ∧
      (∃ p, net.lookup (key fd) = some p ∧ net.endpointAt p = endpoint) ∧
      match result with
      | none => moved = []
      | some value => ∃ count buf, value = .received count buf ∧ buf.take count.toNat = moved ∧
          (ret = kOTNoDataErr → count = 0)

theorem Received.other {net : Net} {past : List Event} {thread : ThreadId} {event : Event} {result : Option Value}
    (other : ¬ event.Receives) : Received net past thread event result := by
  rintro endpoint nbytes ret moved rfl
  exact (other trivial).elim

theorem Received.steady {before after : Net} (steady : Steady before after) {past : List Event} {thread : ThreadId}
    {event : Event} {result : Option Value} (received : Received before past thread event result) :
    Received after past thread event result := by
  intro endpoint nbytes ret moved same
  obtain ⟨fd, n, flags, call, ⟨p, listed, found⟩, rest⟩ := received endpoint nbytes ret moved same
  exact ⟨fd, n, flags, call, ⟨p, steady.lookup listed, (steady.endpoint (Net.lookup_pointers listed)).trans found⟩,
    rest⟩

structure Receiving (net : Net) : Prop where
  calm : ∀ s ∈ net.heap, s.recvHalt = false ∧ s.recvBuf = []
  ledger : Ledger (Received net) net.log
  balance : ∀ ref, net.log.flatMap (Event.moved ref) ++ net.unread ref = net.arrived ref

/-- The operations that neither read an endpoint nor announce that data is wanted. -/
def Op.Calm : Op → Prop
  | .otRcv .. => False
  | .assign _ member => match member with
    | .recvHalt true | .pushRecvBuf _ => False
    | _ => True
  | _ => True

theorem Op.Calm.silent {o : Op} (calm : o.Calm) (thread : ThreadId) (reply : o.Reply) :
    ∀ event ∈ o.events thread reply, ¬ event.Receives := by
  cases o <;> first | exact calm.elim | simp [Op.events, Event.Receives]

section receiving
variable {thread : ThreadId} {net after : Net}

/-- Any operation keeps the balance of bytes. -/
theorem Does.balance {o : Op} {reply : o.Reply} (does : Does thread o reply net after)
    (balance : ∀ ref, net.log.flatMap (Event.moved ref) ++ net.unread ref = net.arrived ref) (ref : EndpointRef) :
    after.log.flatMap (Event.moved ref) ++ after.unread ref = after.arrived ref := by
  rw [does.arrived, ← balance ref, does.log, List.flatMap_append, List.append_assoc, ← does.unread]

theorem Does.calm {o : Op} {reply : o.Reply} (does : Does thread o reply net after) (calm : o.Calm)
    (quiet : ∀ s ∈ net.heap, s.recvHalt = false ∧ s.recvBuf = []) :
    ∀ s ∈ after.heap, s.recvHalt = false ∧ s.recvBuf = [] := by
  rw [does.heap]
  refine Op.heap_forall ⟨rfl, rfl⟩ ?_ quiet
  rintro socket member rfl s before
  cases member with
  | recvHalt value => cases value <;> first | exact False.elim calm | exact ⟨rfl, before.2⟩
  | pushRecvBuf chunk => exact False.elim calm
  | clearRecvBuf => exact ⟨before.1, rfl⟩
  | _ => exact before

theorem Receiving.does {o : Op} {reply : o.Reply} (kept : Receiving net) (calm : o.Calm)
    (does : Does thread o reply net after) (steady : Steady net after) : Receiving after where
  calm := does.calm calm kept.calm
  ledger := by
    refine does.ledger (kept.ledger.mono fun _ _ _ _ received => received.steady steady) fun event member => ?_
    exact .other (calm.silent thread reply event member)
  balance := does.balance kept.balance

theorem Receiving.record {event : Event} (kept : Receiving net) (other : ¬ event.Receives)
    (open_ : ∀ thread value, event ≠ .returned thread value) : Receiving (net.record event) where
  calm := kept.calm
  ledger := kept.ledger.concat (fun _ _ _ => .other other) open_
  balance ref := by
    rw [Net.record_log, List.flatMap_append, List.flatMap_singleton, Event.moved_other other, List.append_nil]
    exact kept.balance ref

theorem Receiving.returned {value : Value} (kept : Receiving net)
    (none : ∀ event ∈ since thread net.log, ¬ event.Receives) : Receiving (net.record (.returned thread value)) where
  calm := kept.calm
  ledger := by
    refine Ledger.returned (kept.ledger.mono fun _ _ _ _ received => received.steady (.record net _)) (.other id) ?_
    exact fun past own between split member call open_ => .other (none own member)
  balance ref := by
    rw [Net.record_log, List.flatMap_append, List.flatMap_singleton, Event.moved_other id, List.append_nil]
    exact kept.balance ref

theorem Receiving.empty {fd : Int} {n nbytes : Nat} {flags : Int} {endpoint : Option EndpointRef}
    {reply : Int × Bytes × OTFlags} (kept : Receiving net) (call : callOf thread net.log = some (.recv fd n flags))
    (listed : ∃ p, net.lookup (key fd) = some p ∧ net.endpointAt p = endpoint)
    (does : Does thread (.otRcv endpoint nbytes) reply net after) (steady : Steady net after)
    (none : reply.2.1 = []) : Receiving after where
  calm := (does.heap : after.heap = net.heap) ▸ kept.calm
  ledger := by
    rw [does.log]
    refine (Ledger.concat kept.ledger ?_ (by simp)).mono fun _ _ _ _ received => received.steady steady
    intro actor owner _ _ _ _ _ same
    cases owner
    cases same
    exact ⟨fd, n, flags, call, listed, none⟩
  balance := does.balance kept.balance

/-- The `recv` that did not read anything returns 0. -/
theorem Receiving.nothing {buf : Bytes} (kept : Receiving net) :
    Receiving (net.record (.returned thread (.received 0 buf))) where
  calm := kept.calm
  ledger := by
    refine Ledger.returned (kept.ledger.mono fun _ _ _ _ received => received.steady (.record net _)) (.other id) ?_
    intro past own between _ _ _ open_ endpoint nbytes ret moved same
    obtain ⟨fd, n, flags, call, listed, none⟩ := open_ endpoint nbytes ret moved same
    exact ⟨fd, n, flags, call, listed, 0, buf, rfl, none.symm, fun _ => rfl⟩
  balance ref := by
    rw [Net.record_log, List.flatMap_append, List.flatMap_singleton, Event.moved_other id, List.append_nil]
    exact kept.balance ref

/-- The `recv` that read something returns it before anything else happens. -/
theorem Receiving.answered {fd : Int} {n nbytes : Nat} {flags : Int} {endpoint : Option EndpointRef} {count : Int}
    {buf : Bytes} {reply : Int × Bytes × OTFlags} {socket : Ptr} {last : Net} (kept : Receiving net)
    (call : callOf thread net.log = some (.recv fd n flags)) (quiet : ∀ event ∈ since thread net.log, ¬ event.Receives)
    (listed : ∃ p, net.lookup (key fd) = some p ∧ net.endpointAt p = endpoint)
    (does : Does thread (.otRcv endpoint nbytes) reply net after) (steady : Steady net after)
    (lowers : Does thread (.assign socket (.recvHalt false)) () after last) (steady' : Steady after last)
    (exact_ : buf.take count.toNat = reply.2.1) (some_ : reply.1 ≠ kOTNoDataErr) :
    Receiving (last.record (.returned thread (.received count buf))) where
  calm := lowers.calm trivial ((does.heap : after.heap = net.heap) ▸ kept.calm)
  ledger := by
    rw [Net.record_log, lowers.log, does.log]
    simp only [Op.events, List.append_nil]
    refine Ledger.mono (@Ledger.returns net.log _ _ thread _ kept.ledger ?_ ?_ (.other id) ?_)
      fun _ _ _ _ received => received.steady (steady.trans (steady'.trans (.record last _)))
    · simp [Event.Inner, Event.begins, Event.thread]
    · intro past event rest split endpoint' _ ret moved same
      cases past with
      | nil =>
        cases split
        cases same
        exact ⟨fd, n, flags, by simpa using call, listed, count, buf, rfl, exact_, fun failed => (some_ failed).elim⟩
      | cons => simp at split
    · exact fun past own between _ member _ _ => .other (quiet own member)
  balance ref := by
    rw [Net.record_log, List.flatMap_append, List.flatMap_singleton, Event.moved_other id, List.append_nil]
    exact lowers.balance (does.balance kept.balance) ref

end receiving

def receiving : Discipline where
  choices := steadily (.all kernel)
  invariant := Receiving
  keeps _ before after := Steady before after
  step _ before after := Steady before after
  idle _ _ := True

theorem receiving_regular : receiving.Regular where
  refl _ net := .refl net
  trans early late := early.trans late
  record _ net event := .record net event
  fresh _ _ := trivial
  idles _ _ := trivial

/-- What a thread knows while its call is under way: whether it has read nothing yet
and which sockets it found in the table. -/
def Reading (thread : ThreadId) (fresh : Prop) (found : Nat → Ptr → Prop) (net : Net) : Prop :=
  (fresh → ∀ event ∈ since thread net.log, ¬ event.Receives) ∧ ∀ fd p, found fd p → net.lookup fd = some p

theorem receiving_keeping (thread : ThreadId) (entry : Entry) (fresh : Prop) (found : Nat → Ptr → Prop) :
    receiving.Keeping thread entry Op.Calm connectEntries (Reading thread fresh found) where
  op {o input now reply after} calm answered executed kept _ mine := by
    have does := exec_does executed
    have steady : Steady now after := answered.2 reply after executed
    refine ⟨steady, kept.does calm does steady, fun _ _ => steady, fun new event member => ?_, fun fd p known => ?_⟩
    · rw [does.call.2] at member
      rcases List.mem_append.mp member with old | last
      · exact mine.1 new event old
      · exact calm.silent thread reply event last
    · exact steady.lookup (mine.2 fd p known)
  record {now} event marks kept _ mine := by
    have other : ¬ event.Receives := by cases event <;> first | exact id | exact False.elim marks
    have begins := marks.begins
    refine ⟨.record now event, kept.record other marks.unreturned, fun new own member => ?_,
      mine.2⟩
    rcases mem_since_concat begins member with old | rfl
    · exact mine.1 new own old
    · exact other
  waits _ moved steady _ call mine := by
    refine ⟨fun new => ?_, fun fd p known => steady.lookup (mine.2 fd p known)⟩
    rw [(moved.call call).2.1]
    exact mine.1 new
  idle _ _ _ := trivial

/-- In a `recv` or a notifier. -/
private abbrev Reads (thread : ThreadId) (entry : Entry) (fresh : Prop) (found : Nat → Ptr → Prop) :
    Net → Net → Prop := receiving.Works thread entry (Reading thread fresh found)

section calls
variable {thread : ThreadId} {entry : Entry} {fresh : Prop} {found : Nat → Ptr → Prop} {start now : Net}

private theorem Reads.plain (reads : Reads thread entry fresh found start now) {α β : Type} {code : Shim α}
    {rest : α → Shim β} {post : β → Net → Net → Prop} (uses : code.Uses Op.Calm connectEntries)
    (safe : ∀ value start now, Reads thread entry fresh found start now →
      receiving.rules.Holds thread (rest value) post start now) :
    receiving.rules.Holds thread (code >>= rest) post start now :=
  Discipline.Works.plain reads receiving_regular (receiving_keeping thread entry fresh found) uses safe

private theorem Reads.last (reads : Reads thread entry fresh found start now) {α : Type} {code : Shim α}
    {post : α → Net → Net → Prop} (uses : code.Uses Op.Calm connectEntries)
    (safe : ∀ value start now, Reads thread entry fresh found start now → post value start now) :
    receiving.rules.Holds thread code post start now :=
  Discipline.Works.last reads receiving_regular (receiving_keeping thread entry fresh found) uses safe

private theorem Reads.op (reads : Reads thread entry fresh found start now) (o : Op) (calm : o.Calm) {α : Type}
    {rest : o.Reply → Shim α} {post : α → Net → Net → Prop}
    (safe : ∀ reply after, Does thread o reply now after → Reads thread entry fresh found start after →
      receiving.rules.Holds thread (rest reply) post start after) :
    receiving.rules.Holds thread (perform o >>= rest) post start now :=
  Discipline.Works.op reads receiving_regular (receiving_keeping thread entry fresh found) o calm safe

private theorem reports_calm : ∀ o, reportOps o → o.Calm := by
  intro o reports
  cases o <;> first | exact False.elim reports | trivial

/-- The flag is never up, so a T_DATA event reads nothing. -/
private theorem receiveData_holds {s : Ptr} (reads : Reads thread entry fresh found start now) :
    receiving.rules.Holds thread (receiveData s) (fun _ => Reads thread entry fresh found) start now := by
  refine reads.plain (perform_uses trivial) fun _ _ _ reads => reads.plain (perform_uses trivial) fun _ _ _ reads => ?_
  refine reads.plain pause_uses fun _ start now reads => ?_
  refine Reads.op reads (.recvHalt s) trivial fun halted after does reads => ?_
  obtain ⟨socket, at_, rfl⟩ := does.answer
  have heap : after.heap = now.heap := does.heap
  have down := (reads.1.invariant.calm socket (heap ▸ List.mem_of_getElem? at_)).1
  rw [when, if_neg (by simp [down])]
  exact reads

private theorem handle_holds {usrPtr : Ptr} {endpoint : Option EndpointRef} {code : OTEventCode}
    (reads : Reads thread entry fresh found start now) :
    receiving.rules.Holds thread (handle usrPtr endpoint code) (fun _ => Reads thread entry fresh found) start now := by
  by_cases data : code = .tData
  · subst data
    exact receiveData_holds reads
  · by_cases exData : code = .tExData
    · subst exData
      exact receiveData_holds reads
    · refine reads.last ((handle_notice usrPtr endpoint data exData).mono ?_ nofun) fun _ _ _ reads => reads
      intro o used
      cases o with
      | assign socket member => cases member <;> first | exact False.elim used | trivial
      | _ => first | exact False.elim used | trivial

theorem notifier_receiving {endpoint : EndpointRef} {usrPtr : Ptr} {code : OTEventCode} {res : Int} {net : Net}
    (kept : Receiving net) (call : callOf thread net.log = some (.notifier endpoint usrPtr code res))
    (quiet : since thread net.log = []) :
    receiving.rules.Holds thread (body (.notifier endpoint usrPtr code res))
      (receiving.rules.Returns thread) net net := by
  apply Rules.Holds.bind
  have begins : Reads thread (.notifier endpoint usrPtr code res) True (fun _ _ => False) net net :=
    .begins receiving_regular kept call ⟨by simp [quiet], fun _ _ never => never.elim⟩
  refine begins.plain pause_uses fun _ _ _ reads => reads.plain (perform_uses trivial) fun _ _ _ reads => ?_
  refine reads.plain (throwOsErr_uses reports_calm _ _ _ _) fun _ _ _ reads => ?_
  refine reads.plain (perform_uses trivial) fun s start now reads => ?_
  apply Rules.Holds.bind
  refine (handle_holds reads).mono fun _ start now reads => ?_
  refine reads.plain (perform_uses trivial) fun _ _ _ reads => reads.last pause_uses fun _ start now reads => ?_
  exact reads.returns receiving_regular (reads.1.invariant.returned (reads.2.2.1 trivial)) trivial

theorem recv_receiving {fd : Int} {nbytes : Nat} {flags : Int} {net : Net} (kept : Receiving net)
    (call : callOf thread net.log = some (.recv fd nbytes flags)) (quiet : since thread net.log = []) :
    receiving.rules.Holds thread (body (.recv fd nbytes flags)) (receiving.rules.Returns thread) net net := by
  apply Rules.Holds.bind
  have begins : Reads thread (.recv fd nbytes flags) True (fun _ _ => False) net net :=
    .begins receiving_regular kept call ⟨by simp [quiet], fun _ _ never => never.elim⟩
  refine begins.openSocketsAt receiving_regular (receiving_keeping ..) trivial fun s after listed works => ?_
  have reads : Reads thread (.recv fd nbytes flags) True (fun k q => k = key fd ∧ q = s) net after :=
    ⟨works.1, works.2.1, works.2.2.1, by rintro _ _ ⟨rfl, rfl⟩; exact listed⟩
  refine reads.plain pause_uses fun _ start now reads => reads.op (.load s) trivial fun socket loaded does reads => ?_
  have listed : loaded.lookup (key fd) = some s := reads.2.2.2 _ _ ⟨rfl, rfl⟩
  have at_ := does.loaded.2
  refine Discipline.holds_op fun input reply after answered executed does => ?_
  have steady : Steady loaded after := answered.2 reply after executed
  refine ⟨steady, ?_⟩
  obtain ⟨ret, moved, dataFlags⟩ := reply
  have answer : ret = moved.length ∧ moved.length ≤ nbytes ∨ ret < 0 ∧ moved = [] := does.answer
  dsimp only
  split
  next some_ =>
    refine Discipline.holds_op fun input _ last answered executed lowers => ?_
    have steady' : Steady after last := answered.2 () last executed
    refine ⟨steady', ⟨?_, fun other different => ?_⟩, trivial⟩
    · refine reads.1.invariant.answered reads.2.1 (reads.2.2.1 trivial) ⟨s, listed, at_⟩ does steady lowers steady' ?_
        some_
      rcases answer with ⟨same, _⟩ | ⟨negative, none⟩
      · simp [overwrite, same]
      · rw [none, Int.toNat_of_nonpos (Int.le_of_lt negative)]
        rfl
    · refine receiving_regular.orderly.trans (reads.1.others other different)
        ⟨?_, steady.trans (steady'.trans (.record ..))⟩
      exact (does.extends different).trans ((lowers.extends different).trans (.record rfl different fun _ => rfl))
  next failed =>
    have none : moved = [] := by
      rcases answer with ⟨same, _⟩ | ⟨_, none⟩
      · simp only [kOTNoDataErr] at failed
        omega
      · exact none
    have reads : Reads thread (.recv fd nbytes flags) False (fun k q => k = key fd ∧ q = s) start after :=
      reads.step receiving_regular does (reads.1.invariant.empty reads.2.1 ⟨s, listed, at_⟩ does steady none)
        (fun _ _ => steady) ⟨fun never => never.elim, fun k q known => steady.lookup (reads.2.2.2 k q known)⟩
    refine reads.plain pause_uses fun _ _ _ reads => reads.plain (whileYield_uses (perform_uses trivial))
      fun _ start now reads => ?_
    refine reads.op (.load s) trivial fun socket loaded does reads => ?_
    have empty := (reads.1.invariant.calm socket (List.mem_of_getElem? does.loaded.1)).2
    refine reads.plain (perform_uses trivial) fun _ _ _ reads => reads.plain pause_uses fun _ start now reads => ?_
    refine reads.returns receiving_regular ?_ trivial
    simp only [flatten, empty, List.flatten_nil, List.length_nil]
    exact reads.1.invariant.nothing

end calls

theorem receiving_sound : receiving.rules.Sound := by
  refine receiving_regular.sound ?_ ?_ ?_
  · intro thread entry net _ kept _ _
    exact ⟨kept.record id (by simp), trivial⟩
  · intro input net after _ kept moves _
    have steady := moves.same_table.steady
    refine ⟨⟨moves.heap ▸ kept.calm, ?_, ?_⟩, fun _ => steady⟩
    · obtain ⟨event, owner, log⟩ := moves.log
      rw [log]
      refine (Ledger.concat kept.ledger ?_ ?_).mono fun _ _ _ _ received => received.steady steady
      · exact fun actor mine => by simp [owner] at mine
      · rintro actor value rfl
        cases owner
    · intro ref
      obtain ⟨event, owner, log⟩ := moves.log
      have other : ¬ event.Receives := by cases event <;> first | exact id | cases owner
      obtain ⟨bytes, arrived, unread, _⟩ := moves.queues ref
      rw [arrived, unread, log, ← kept.balance ref]
      simp [Event.moved_other other]
  · intro entry thread net kept call quiet _ _
    cases entry with
    | recv fd nbytes flags => exact recv_receiving kept call quiet
    | notifier endpoint usrPtr code res => exact notifier_receiving kept call quiet
    | _ =>
      refine (receiving_keeping thread _ True fun _ _ => False).body receiving_regular
        ((body_uses _).mono (fun o used => ?_) fun _ used => used) ?_ kept call ⟨by simp [quiet], nofun⟩
      · cases o with
        | assign socket member => cases member <;> first | exact False.elim used | trivial
        | _ => first | exact False.elim used | trivial
      · exact fun value now kept _ mine => ⟨kept.returned (mine.1 trivial), trivial⟩

theorem receiving_initial (mainThreadId count : Nat) : receiving.rules.Safe (initial mainThreadId count) := by
  refine Rules.Safe.initial ⟨nofun, .nil _, fun ref => ?_⟩ ?_ fun _ => trivial
  · simp [Net.arrived, Net.unread, Net.queue]
  · rintro name ⟨event, member, _⟩
    cases member

theorem receiving_reaches {mainThreadId count : Nat} {world : World kernel}
    (reached : (Choices.all kernel).Reaches (initial mainThreadId count) world) (outside : world.current = none) :
    Receiving world.state :=
  ((receiving_initial mainThreadId count).reaches receiving_sound (reaches_steadily reached)).invariant outside

theorem handedBy_moved {net : Net} (ordered : Table net) {fd : Nat} {p : Ptr} {ref : EndpointRef}
    (listed : net.lookup fd = some p) (opened : net.endpointAt p = some ref) {past rest : List Event} {event : Event}
    (received : ∀ thread, event.thread = some thread → event.begins thread = none →
      Received net past thread event (resultOf thread rest)) : handedBy fd past event rest = event.moved ref := by
  by_cases receives : event.Receives
  · cases event with
    | openTransport thread call =>
      cases call with
      | rcv endpoint nbytes ret moved =>
        obtain ⟨descriptor, n, flags, call, ⟨q, found, at_⟩, result⟩ :=
          received thread rfl rfl endpoint nbytes ret moved rfl
        have same : endpoint = some ref ↔ key descriptor = fd := at_ ▸ ordered.endpoint_iff listed opened found
        simp only [handedBy, call, Event.moved, same]
        cases value : resultOf thread rest with
        | none =>
          rw [value] at result
          simp [result]
        | some value' =>
          rw [value] at result
          obtain ⟨count, buf, rfl, exact_, _⟩ := result
          by_cases here : key descriptor = fd
          · by_cases positive : 0 < count
            · simp [here, positive, exact_]
            · have zero : count.toNat = 0 := by omega
              simp [here, positive, ← exact_, zero]
          · simp [here]
      | _ => exact receives.elim
    | _ => exact receives.elim
  · rw [Event.moved_other receives]
    cases event with
    | openTransport thread call => cases call <;> first | rfl | exact (receives trivial).elim
    | _ => rfl

/-- Stream fidelity: what the calls of `recv` on a socket handed out, in the order in
which they read, followed by what is still unread, is what arrived. -/
theorem recv_stream_fidelity {mainThreadId count : Nat} {world : World kernel}
    (reached : (Choices.all kernel).Reaches (initial mainThreadId count) world) (outside : world.current = none)
    {fd : Nat} {p : Ptr} {ref : EndpointRef} (listed : world.state.lookup fd = some p)
    (opened : world.state.endpointAt p = some ref) :
    handedOut fd world.state.log ++ world.state.unread ref = world.state.arrived ref := by
  have kept := receiving_reaches reached outside
  have ordered := table_reaches reached outside
  rw [← kept.balance ref, handedOut, along_eq_flatMap]
  intro before event rest split
  exact handedBy_moved ordered listed opened fun thread => kept.ledger before event rest thread split

private def reading : World kernel :=
  (initial 0 1).after (opening 0 ++ .environment (Input.arrive 0 [1, 2, 3]) ::
    calling 0 (.recv 0 2 0) [[.none, .none], [.none, .moved 2 .other, .none, .none]])

theorem recv_stream_fidelity_reading : handedOut 0 reading.state.log = [1, 2] ∧
    handedOut 0 reading.state.log ++ reading.state.unread 0 = reading.state.arrived 0 :=
  ⟨by decide, @recv_stream_fidelity 0 1 reading .after rfl 0 0 0 rfl rfl⟩

end PowerBoot.PowerNet
