import PowerBoot.PowerNet.Receive

/-! Sending. Nothing is ever put into a send buffer, so a `send` returns what its own
OTSnd accepted, or 0 where that call was refused. -/

namespace PowerBoot.PowerNet
open Coop Code

/-- What a `send` on `fd` says was accepted of its buffer by this OTSnd call. -/
def sentBy (fd : Nat) (past : List Event) (event : Event) (rest : List Event) : Bytes :=
  match event with
  | .openTransport thread (.snd ..) =>
    match callOf thread past, resultOf thread rest with
    | some (.send descriptor buf _), some (.int count) =>
      if key descriptor = fd ∧ 0 < count then buf.take count.toNat else []
    | _, _ => []
  | _ => []

/-- The bytes that were sent on `fd`, in the order of the OTSnd calls. -/
def sentOut (fd : Nat) (log : List Event) : Bytes := along (sentBy fd) [] log

def Event.Sends : Event → Prop
  | .openTransport _ (.snd ..) => True
  | _ => False

theorem Event.sent_other {event : Event} (other : ¬ event.Sends) (ref : EndpointRef) : event.sent ref = [] := by
  cases event with
  | openTransport thread call => cases call <;> first | rfl | exact (other trivial).elim
  | _ => rfl

/-- An OTSnd call offers the buffer of its `send` to the endpoint of its descriptor,
and the value of the `send` is what that call accepted. -/
def Offered (net : Net) (past : List Event) (thread : ThreadId) (event : Event) (result : Option Value) : Prop :=
  ∀ endpoint offered ret, event = .openTransport thread (.snd endpoint offered ret) →
    ∃ fd flags, callOf thread past = some (.send fd offered flags) ∧
      (∃ p, net.lookup (key fd) = some p ∧ net.endpointAt p = endpoint) ∧
      match result with
      | none => ret < 0
      | some value => ∃ count, value = .int count ∧ count.toNat = ret.toNat

/-- The value of a `send` counts the first bytes of its buffer, and these are what it
made its endpoint accept: none at all where flow control refused them. -/
def Counted (net : Net) (past : List Event) (thread : ThreadId) (event : Event) : Prop :=
  ∀ fd buf flags value, event = .returned thread value → callOf thread past = some (.send fd buf flags) →
    ∃ count p, value = .int count ∧ count ≤ buf.length ∧ net.lookup (key fd) = some p ∧
      (0 < count → (net.endpointAt p).isSome) ∧
      (∀ ref, (since thread past).flatMap (Event.sent ref) =
        if net.endpointAt p = some ref then buf.take count.toNat else []) ∧
      ((∃ endpoint, .openTransport thread (.snd endpoint buf kOTFlowErr) ∈ since thread past) → count = 0)

def Sent (net : Net) (past : List Event) (thread : ThreadId) (event : Event) (result : Option Value) : Prop :=
  Offered net past thread event result ∧ Counted net past thread event

theorem Offered.other {net : Net} {past : List Event} {thread : ThreadId} {event : Event} {result : Option Value}
    (other : ¬ event.Sends) : Offered net past thread event result := by
  rintro endpoint offered ret rfl
  exact (other trivial).elim

theorem Sent.other {net : Net} {past : List Event} {thread : ThreadId} {event : Event} {result : Option Value}
    (other : ¬ event.Sends) (open_ : ∀ actor value, event ≠ .returned actor value) :
    Sent net past thread event result :=
  ⟨.other other, fun _ _ _ value same => (open_ thread value same).elim⟩

structure Sending (net : Net) : Prop where
  calm : ∀ s ∈ net.heap, s.sendBuf = []
  ledger : Ledger (Sent net) net.log
  balance : ∀ ref, net.accepted ref = net.log.flatMap (Event.sent ref)

theorem Sent.steady {before after : Net} (steady : Steady before after) {past : List Event} {thread : ThreadId}
    {event : Event} {result : Option Value} (sent : Sent before past thread event result) :
    Sent after past thread event result := by
  refine ⟨?_, ?_⟩
  · intro endpoint offered ret same
    obtain ⟨fd, flags, call, ⟨p, listed, found⟩, rest⟩ := sent.1 endpoint offered ret same
    exact ⟨fd, flags, call, ⟨p, steady.lookup listed, (steady.endpoint (Net.lookup_pointers listed)).trans found⟩, rest⟩
  · intro fd buf flags value same call
    obtain ⟨count, p, returned, bounded, listed, reached, accepted, refused⟩ := sent.2 fd buf flags value same call
    rw [← steady.endpoint (Net.lookup_pointers listed)] at reached
    simp only [← steady.endpoint (Net.lookup_pointers listed)] at accepted
    exact ⟨count, p, returned, bounded, steady.lookup listed, reached, accepted, refused⟩

section sending
variable {thread : ThreadId} {net after : Net}

theorem Sending.sendBuf {o : Op} {reply : o.Reply} (kept : Sending net) (does : Does thread o reply net after) :
    ∀ s ∈ after.heap, s.sendBuf = [] := by
  rw [does.heap]
  refine Op.heap_forall rfl ?_ kept.calm
  rintro socket member rfl s before
  cases member <;> first | exact before | rfl

/-- Any operation keeps the account of accepted bytes. -/
theorem Sending.accounts {o : Op} {reply : o.Reply} (kept : Sending net) (does : Does thread o reply net after)
    (ref : EndpointRef) : after.accepted ref = after.log.flatMap (Event.sent ref) := by
  rw [does.accepted, does.log, List.flatMap_append, kept.balance]

theorem Sending.does {o : Op} {reply : o.Reply} (kept : Sending net) (other : ∀ endpoint buf, o ≠ .otSnd endpoint buf)
    (does : Does thread o reply net after) (steady : Steady net after) : Sending after where
  calm := kept.sendBuf does
  ledger := by
    refine does.ledger (kept.ledger.mono fun _ _ _ _ sent => sent.steady steady) fun event member => ?_
    refine .other ?_ (Op.events_inner thread o reply event member).2
    cases o <;> first | exact (other _ _ rfl).elim | simp_all [Op.events, Event.Sends]
  balance := kept.accounts does

theorem Sending.record {event : Event} (kept : Sending net) (other : ¬ event.Sends)
    (open_ : ∀ thread value, event ≠ .returned thread value) : Sending (net.record event) where
  calm := kept.calm
  ledger := (kept.ledger.mono fun _ _ _ _ sent => sent.steady (.record net _)).concat
    (fun _ _ _ => .other other open_) open_
  balance ref := by
    rw [Net.record_log, List.flatMap_append, List.flatMap_singleton, Event.sent_other other, List.append_nil]
    exact kept.balance ref

theorem Sending.returned {value : Value} {entry : Entry} (kept : Sending net)
    (call : callOf thread net.log = some entry)
    (other : ∀ fd buf flags, entry ≠ .send fd buf flags) : Sending (net.record (.returned thread value)) where
  calm := kept.calm
  ledger := by
    refine Ledger.returned (kept.ledger.mono fun _ _ _ _ sent => sent.steady (.record net _)) ⟨.other id, ?_⟩ ?_
    · intro fd buf flags _ _ sends
      exact (other fd buf flags (Option.some.inj (call.symm.trans sends))).elim
    · intro past own between split member same open_
      refine ⟨?_, open_.2⟩
      intro endpoint offered ret equal
      obtain ⟨fd, flags, sends, _⟩ := open_.1 endpoint offered ret equal
      exact (other fd offered flags (Option.some.inj ((same.trans call).symm.trans sends))).elim
  balance ref := by
    rw [Net.record_log, List.flatMap_append, List.flatMap_singleton, Event.sent_other id, List.append_nil]
    exact kept.balance ref

/-- A `send` of which nothing was accepted returns 0. -/
theorem Sending.nothing {fd : Int} {buf : Bytes} {flags : Int} {p : Ptr} (kept : Sending net)
    (call : callOf thread net.log = some (.send fd buf flags)) (listed : net.lookup (key fd) = some p)
    (none : ∀ ref, (since thread net.log).flatMap (Event.sent ref) = []) :
    Sending (net.record (.returned thread (.int 0))) where
  calm := kept.calm
  ledger := by
    refine Ledger.returned (kept.ledger.mono fun _ _ _ _ sent => sent.steady (.record net _)) ⟨.other id, ?_⟩ ?_
    · intro fd' buf' flags' value same sends
      cases same
      cases call.symm.trans sends
      exact ⟨0, p, rfl, Int.natCast_nonneg _, listed, by simp, fun ref => (none ref).trans (by split <;> rfl), fun _ =>
        rfl⟩
    · intro past own between _ _ _ open_
      refine ⟨?_, open_.2⟩
      intro endpoint offered ret same
      obtain ⟨fd, flags, sends, listed, negative⟩ := open_.1 endpoint offered ret same
      exact ⟨fd, flags, sends, listed, 0, rfl, by simp only [Int.toNat_zero]; omega⟩
  balance ref := by
    rw [Net.record_log, List.flatMap_append, List.flatMap_singleton, Event.sent_other id, List.append_nil]
    exact kept.balance ref

/-- A `send` whose OTSnd was refused goes on waiting. -/
theorem Sending.refused {fd : Int} {buf : Bytes} {flags : Int} {endpoint : Option EndpointRef} {ret : Int}
    (kept : Sending net) (call : callOf thread net.log = some (.send fd buf flags))
    (listed : ∃ p, net.lookup (key fd) = some p ∧ net.endpointAt p = endpoint)
    (does : Does thread (.otSnd endpoint buf) ret net after) (steady : Steady net after) (negative : ret < 0) :
    Sending after where
  calm := kept.sendBuf does
  ledger := by
    rw [does.log]
    refine (Ledger.concat kept.ledger ?_ (by simp)).mono fun _ _ _ _ sent => sent.steady steady
    intro actor owner _
    cases owner
    refine ⟨?_, fun _ _ _ _ same => nomatch same⟩
    intro _ _ _ same
    cases same
    exact ⟨fd, flags, call, listed, negative⟩
  balance := kept.accounts does

/-- A `send` whose OTSnd was answered returns the answer before anything else happens. -/
theorem Sending.answered {fd : Int} {buf : Bytes} {flags : Int} {endpoint : Option EndpointRef} {ret : Int}
    {socket p : Ptr} {last : Net} (kept : Sending net) (call : callOf thread net.log = some (.send fd buf flags))
    (quiet : ∀ event ∈ since thread net.log, ¬ event.Sends)
    (listed : net.lookup (key fd) = some p) (at_ : net.endpointAt p = endpoint)
    (does : Does thread (.otSnd endpoint buf) ret net after) (steady : Steady net after)
    (lowers : Does thread (.assign socket (.sendHalt false)) () after last) (steady' : Steady after last)
    (some_ : ret ≠ kOTFlowErr) : Sending (last.record (.returned thread (.int ret))) where
  calm := by
    rw [Net.record_heap, lowers.heap]
    refine Op.heap_forall rfl ?_ (kept.sendBuf does)
    rintro socket member same s before
    cases same
    exact before
  ledger := by
    rw [Net.record_log, lowers.log, does.log]
    simp only [Op.events, List.append_nil]
    refine Ledger.mono (@Ledger.returns net.log _ _ thread _ kept.ledger ?_ ?_ ⟨.other id, ?_⟩ ?_)
      fun _ _ _ _ sent => sent.steady (steady.trans (steady'.trans (.record last _)))
    · simp [Event.Inner, Event.begins, Event.thread]
    · intro past event rest split
      cases past with
      | nil =>
        cases split
        refine ⟨?_, fun _ _ _ _ same => by cases same⟩
        intro _ _ _ same
        cases same
        exact ⟨fd, flags, by simpa using call, ⟨p, listed, at_⟩, ret, rfl, rfl⟩
      | cons => simp at split
    · intro fd' buf' flags' value same sends
      cases same
      cases call.symm.trans (show callOf thread net.log = _ by simpa [Event.begins] using sends)
      have none (ref : EndpointRef) : (since thread net.log).flatMap (Event.sent ref) = [] :=
        List.flatMap_eq_nil_iff.mpr fun event member => Event.sent_other (quiet event member) ref
      have answer : (∃ ref, endpoint = some ref) ∧ 0 ≤ ret ∧ ret ≤ buf.length ∨ ret < 0 := does.answer
      refine ⟨ret, p, rfl, by omega, listed, fun positive => ?_, fun ref => ?_, ?_⟩
      · obtain ⟨⟨ref, opened⟩, _⟩ | negative := answer
        · simp [at_, opened]
        · omega
      · rw [since_concat rfl, List.flatMap_append, none ref, List.nil_append]
        simp [Event.thread, Event.sent, at_]
      · rintro ⟨refused, member⟩
        rw [since_concat rfl, List.mem_append] at member
        rcases member with member | member
        · exact (quiet _ member trivial).elim
        · simp only [Event.thread, if_true, List.mem_singleton, Event.openTransport.injEq, OTCall.snd.injEq] at member
          exact (some_ member.2.2.2.symm).elim
    · intro past own between _ member _ open_
      exact ⟨.other (quiet own member), open_.2⟩
  balance ref := by
    rw [Net.record_log, List.flatMap_append, List.flatMap_singleton, Event.sent_other id, List.append_nil]
    have same : last.accepted ref = after.accepted ref := by rw [lowers.accepted]; simp [Op.events]
    have log : last.log = after.log := by rw [lowers.log]; simp [Op.events]
    exact same.trans ((kept.accounts does ref).trans (by rw [log]))

end sending

def sending : Discipline where
  choices := steadily (.all kernel)
  invariant := Sending
  keeps _ before after := Steady before after
  step _ before after := Steady before after
  idle _ _ := True

theorem sending_regular : sending.Regular where
  refl _ net := .refl net
  trans early late := early.trans late
  record _ net event := .record net event
  fresh _ _ := trivial
  idles _ _ := trivial

/-- What a thread knows while its call is under way: whether it has offered nothing
yet, that nothing of it was accepted, and which sockets it found in the table. -/
def Offering (thread : ThreadId) (fresh : Prop) (found : Nat → Ptr → Prop) (net : Net) : Prop :=
  (fresh → ∀ event ∈ since thread net.log, ¬ event.Sends) ∧
  (∀ ref, (since thread net.log).flatMap (Event.sent ref) = []) ∧ ∀ fd p, found fd p → net.lookup fd = some p

theorem sending_keeping (thread : ThreadId) (entry : Entry) (fresh : Prop) (found : Nat → Ptr → Prop) :
    sending.Keeping thread entry (fun o => ∀ endpoint buf, o ≠ .otSnd endpoint buf) connectEntries
      (Offering thread fresh found) where
  op {o input now reply after} other answered executed kept _ mine := by
    have does := exec_does executed
    have steady : Steady now after := answered.2 reply after executed
    have silent : ∀ event ∈ o.events thread reply, ¬ event.Sends := by
      cases o <;> first | exact (other _ _ rfl).elim | simp [Op.events, Event.Sends]
    refine ⟨steady, kept.does other does steady, fun _ _ => steady, fun new event member => ?_, fun ref => ?_,
      fun fd p known => steady.lookup (mine.2.2 fd p known)⟩
    · rw [does.call.2] at member
      exact (List.mem_append.mp member).elim (mine.1 new event) (silent event)
    · rw [does.call.2, List.flatMap_append, mine.2.1 ref, List.nil_append]
      exact List.flatMap_eq_nil_iff.mpr fun event member => Event.sent_other (silent event member) ref
  record {now} event marks kept _ mine := by
    have other : ¬ event.Sends := by cases event <;> first | exact id | exact False.elim marks
    have begins := marks.begins
    refine ⟨.record now event, kept.record other marks.unreturned, fun new own member => ?_,
      fun ref => ?_, mine.2.2⟩
    · rcases mem_since_concat begins member with old | rfl
      · exact mine.1 new own old
      · exact other
    · rw [Net.record_log, since_concat begins, List.flatMap_append, mine.2.1 ref]
      split <;> simp [Event.sent_other other]
  waits _ moved steady _ call mine := by
    rw [Offering, (moved.call call).2.1]
    exact ⟨mine.1, mine.2.1, fun fd p known => steady.lookup (mine.2.2 fd p known)⟩
  idle _ _ _ := trivial

theorem send_sending {thread : ThreadId} {fd : Int} {buf : Bytes} {flags : Int} {net : Net} (kept : Sending net)
    (call : callOf thread net.log = some (.send fd buf flags)) (quiet : since thread net.log = []) :
    sending.rules.Holds thread (body (.send fd buf flags)) (sending.rules.Returns thread) net net := by
  apply Rules.Holds.bind
  have begins : sending.Works thread (.send fd buf flags) (Offering thread True fun _ _ => False) net net :=
    .begins sending_regular kept call ⟨by simp [quiet], by simp [quiet], nofun⟩
  refine begins.openSocketsAt sending_regular (sending_keeping ..) (by simp) fun s after listed works => ?_
  have offers : sending.Works thread (.send fd buf flags) (Offering thread True fun k q => k = key fd ∧ q = s) net
    after :=
    ⟨works.1, works.2.1, works.2.2.1, works.2.2.2.1, by rintro _ _ ⟨rfl, rfl⟩; exact listed⟩
  refine offers.plain sending_regular (sending_keeping ..) pause_uses fun _ start now offers => ?_
  dsimp only
  split
  · refine offers.returns sending_regular ?_ trivial
    exact offers.1.invariant.nothing offers.2.1 (offers.2.2.2.2 _ _ ⟨rfl, rfl⟩) offers.2.2.2.1
  · refine offers.plain sending_regular (sending_keeping ..) (perform_uses (by simp)) fun _ start _ offers => ?_
    refine offers.op sending_regular (sending_keeping ..) (.load s) (by simp) fun socket loaded does offers => ?_
    have listed : loaded.lookup (key fd) = some s := offers.2.2.2.2 _ _ ⟨rfl, rfl⟩
    have at_ := does.loaded.2
    refine Discipline.holds_op fun input ret after answered executed does => ?_
    have steady : Steady loaded after := answered.2 ret after executed
    refine ⟨steady, ?_⟩
    dsimp only [sndAnswered, sndBlocked]
    split
    next some_ =>
      refine Discipline.holds_op fun input _ last answered executed lowers => ?_
      have steady' : Steady after last := answered.2 () last executed
      refine ⟨steady', ⟨?_, fun other different => ?_⟩, trivial⟩
      · exact offers.1.invariant.answered offers.2.1 (offers.2.2.1 trivial) listed at_ does steady lowers steady' some_
      · refine sending_regular.orderly.trans (offers.1.others other different)
          ⟨?_, steady.trans (steady'.trans (.record ..))⟩
        exact (does.extends different).trans ((lowers.extends different).trans (.record rfl different fun _ => rfl))
    next flow =>
      have below : kOTFlowErr < 0 := by decide
      have negative : (ret : Int) < 0 := Int.lt_of_le_of_lt (Int.le_of_eq (Decidable.not_not.mp flow)) below
      have offers : sending.Works thread (.send fd buf flags) (Offering thread False fun k q => k = key fd ∧ q = s)
        start after := by
        refine offers.step sending_regular does
          (offers.1.invariant.refused offers.2.1 ⟨s, listed, at_⟩ does steady negative)
          (fun _ _ => steady) ⟨nofun, fun ref => ?_, fun k q known => steady.lookup (offers.2.2.2.2 k q known)⟩
        rw [does.call.2, List.flatMap_append, offers.2.2.2.1 ref]
        simp [Op.events, Event.sent, Int.toNat_of_nonpos (Int.le_of_lt negative)]
      refine offers.plain sending_regular (sending_keeping ..) pause_uses fun _ _ _ offers => ?_
      refine offers.plain sending_regular (sending_keeping ..) (whileYield_uses (perform_uses (by simp)))
        fun _ _ _ offers => ?_
      refine offers.op sending_regular (sending_keeping ..) (.load s) (by simp) fun socket loaded does offers => ?_
      have empty := offers.1.invariant.calm socket (List.mem_of_getElem? does.loaded.1)
      refine offers.plain sending_regular (sending_keeping ..) (perform_uses (by simp)) fun _ _ _ offers => ?_
      refine offers.plain sending_regular (sending_keeping ..) pause_uses fun _ start now offers => ?_
      refine offers.returns sending_regular ?_ trivial
      simp only [flatten, empty, List.flatten_nil, List.length_nil]
      exact offers.1.invariant.nothing offers.2.1 (offers.2.2.2.2 _ _ ⟨rfl, rfl⟩) offers.2.2.2.1

theorem sending_sound : sending.rules.Sound := by
  refine sending_regular.sound ?_ ?_ ?_
  · intro thread entry net _ kept _ _
    exact ⟨kept.record id (by simp), trivial⟩
  · intro input net after _ kept moves _
    have steady := moves.same_table.steady
    obtain ⟨event, owner, log⟩ := moves.log
    refine ⟨⟨moves.heap ▸ kept.calm, ?_, fun ref => ?_⟩, fun _ => steady⟩
    · rw [log]
      refine (Ledger.concat kept.ledger ?_ ?_).mono fun _ _ _ _ sent => sent.steady steady
      · exact fun actor mine => by simp [owner] at mine
      · rintro actor value rfl
        cases owner
    · have other : ¬ event.Sends := by cases event <;> first | exact id | cases owner
      obtain ⟨bytes, _, _, accepted⟩ := moves.queues ref
      rw [accepted, log, kept.balance ref]
      simp [Event.sent_other other]
  · intro entry thread net kept call quiet _ _
    by_cases sends : ∃ fd buf flags, entry = .send fd buf flags
    · obtain ⟨fd, buf, flags, rfl⟩ := sends
      exact send_sending kept call quiet
    · have other (fd : Int) (buf : Bytes) (flags : Int) : entry ≠ .send fd buf flags :=
        fun same => sends ⟨fd, buf, flags, same⟩
      refine (sending_keeping thread entry True fun _ _ => False).body sending_regular
        ((body_uses entry).mono (fun o used endpoint buf same => ?_) fun _ used => used) ?_ kept call
        ⟨by simp [quiet], by simp [quiet], nofun⟩
      · subst same
        cases entry with
        | send fd buf flags => exact other fd buf flags rfl
        | _ => exact used
      · exact fun value now kept call _ => ⟨kept.returned call other, trivial⟩

theorem sending_reaches {mainThreadId count : Nat} {world : World kernel}
    (reached : (Choices.all kernel).Reaches (initial mainThreadId count) world) (outside : world.current = none) :
    Sending world.state := by
  have safe : sending.rules.Safe (initial mainThreadId count) := by
    refine Rules.Safe.initial ⟨nofun, .nil _, fun ref => ?_⟩ ?_ fun _ => trivial
    · simp [Net.accepted, Net.queue]
    · rintro name ⟨event, member, _⟩
      cases member
  exact (safe.reaches sending_sound (reaches_steadily reached)).invariant outside

theorem sentBy_sent {net : Net} (ordered : Table net) {fd : Nat} {p : Ptr} {ref : EndpointRef}
    (listed : net.lookup fd = some p) (opened : net.endpointAt p = some ref) {past rest : List Event} {event : Event}
    (sent : ∀ thread, event.thread = some thread → event.begins thread = none →
      Sent net past thread event (resultOf thread rest)) : sentBy fd past event rest = event.sent ref := by
  by_cases sends : event.Sends
  · cases event with
    | openTransport thread call =>
      cases call with
      | snd endpoint offered ret =>
        obtain ⟨descriptor, flags, call, ⟨q, found, at_⟩, result⟩ :=
          (sent thread rfl rfl).1 endpoint offered ret rfl
        have same : endpoint = some ref ↔ key descriptor = fd := at_ ▸ ordered.endpoint_iff listed opened found
        simp only [sentBy, call, Event.sent, same]
        cases value : resultOf thread rest with
        | none =>
          rw [value] at result
          simp [Int.toNat_of_nonpos (Int.le_of_lt result)]
        | some value' =>
          rw [value] at result
          obtain ⟨count, rfl, exact_⟩ := result
          by_cases here : key descriptor = fd
          · by_cases positive : 0 < count
            · simp [here, positive, exact_]
            · have zero : ret.toNat = 0 := by omega
              simp [here, positive, zero]
          · simp [here]
      | _ => exact sends.elim
    | _ => exact sends.elim
  · rw [Event.sent_other sends]
    cases event with
    | openTransport thread call => cases call <;> first | rfl | exact (sends trivial).elim
    | _ => rfl

/-- Stream fidelity: a `send` that returns `count` had exactly the first `count` bytes
of its buffer accepted by its endpoint (none where `count ≤ 0`), and what an endpoint
accepted are these prefixes in the order of the OTSnd calls. -/
theorem send_stream_fidelity {mainThreadId threads : Nat} {world : World kernel}
    (reached : (Choices.all kernel).Reaches (initial mainThreadId threads) world) (outside : world.current = none) :
    (∀ past rest thread fd buf flags value, world.state.log = past ++ .returned thread value :: rest →
      callOf thread past = some (.send fd buf flags) → ∃ (count : Int) (p : Ptr), value = .int count ∧
        count ≤ buf.length ∧
        world.state.lookup (key fd) = some p ∧ (0 < count → (world.state.endpointAt p).isSome) ∧
        ∀ ref, (since thread past).flatMap (Event.sent ref) =
          if world.state.endpointAt p = some ref then buf.take count.toNat else []) ∧
    ∀ fd p ref, world.state.lookup fd = some p → world.state.endpointAt p = some ref →
      world.state.accepted ref = sentOut fd world.state.log := by
  have kept := sending_reaches reached outside
  have ordered := table_reaches reached outside
  refine ⟨?_, ?_⟩
  · intro past rest thread fd buf flags value split call
    obtain ⟨count, p, returned, bounded, listed, opened, accepted, _⟩ :=
      (kept.ledger past _ rest thread split rfl rfl).2 fd buf flags value rfl call
    exact ⟨count, p, returned, bounded, listed, opened, accepted⟩
  · intro fd p ref listed opened
    rw [kept.balance ref, sentOut, along_eq_flatMap]
    intro before event rest split
    exact sentBy_sent ordered listed opened fun thread => kept.ledger before event rest thread split

/-- A `send` is refused; another one on the same socket has one byte accepted, and the
first one returns. -/
def twoSenders : World kernel :=
  (initial 0 2).after (opening 0 ++ calling 1 (.send 0 [1, 2, 3] 0)
      [[.none, .none], [.none, .none, .status kOTFlowErr, .none]] ++
    calling 0 (.send 0 [7, 8] 0) [[.none, .none], [.none, .none, .moved 1 .other, .none, .none]] ++
    resuming 1 [[.none, .none, .none, .none, .none], [.none]])

theorem send_stream_fidelity_two : sentOut 0 twoSenders.state.log = [7] ∧
    twoSenders.state.accepted 0 = sentOut 0 twoSenders.state.log :=
  ⟨by decide, (@send_stream_fidelity 0 2 twoSenders .after rfl).2 0 0 0 rfl rfl⟩

end PowerBoot.PowerNet
