import PowerBoot.Coop.Completion
import PowerBoot.PowerNet.Waiting

/-! What `recv` gives out of the bytes that are buffered: all of them, however few it was
asked for. -/

namespace PowerBoot.PowerNet
open Coop Code Memory

/-- `thread` executes the code, and no other thread goes on meanwhile. -/
abbrev Ends (thread : ThreadId) {α : Type} (code : Shim α) (net : Net) (outcome : Outcome α) (last : Net) : Prop :=
  @Completes signature kernel thread α code net outcome last

/-- What `thread` recorded between two states. -/
def Net.recorded (thread : ThreadId) (net last : Net) : List Event :=
  (last.log.drop net.log.length).filter fun event => event.thread = some thread

/-- What is known of a state in which `thread` has recorded these events since `net`. -/
structure Did (thread : ThreadId) (net now : Net) (heap : List Socket) (mine : List Event) : Prop where
  heap : now.heap = heap
  openSockets : now.openSockets = net.openSockets
  mainThreadId : now.mainThreadId = net.mainThreadId
  log : ∃ events, now.log = net.log ++ events ∧ (events.filter fun event => event.thread = some thread) = mine

section did
variable {thread : ThreadId} {net now after last : Net} {heap : List Socket} {mine : List Event}

theorem Did.start (thread : ThreadId) (net : Net) : Did thread net net net.heap [] :=
  ⟨rfl, rfl, rfl, [], (List.append_nil _).symm, rfl⟩

theorem Did.recorded (did : Did thread net now heap mine) : net.recorded thread now = mine := by
  obtain ⟨events, log, own⟩ := did.log
  rw [Net.recorded, log, List.drop_left, own]

theorem Op.events_own (o : Op) (reply : o.Reply) : ∀ event ∈ o.events thread reply, event.thread = some thread := by
  cases o <;> simp [Op.events, Event.thread]

theorem Did.op {o : Op} {reply : o.Reply} (did : Did thread net now heap mine) (does : Does thread o reply now after)
    (registers : ∀ fd socket, o ≠ .insert fd socket) :
    Did thread net after (o.heap heap) (mine ++ o.events thread reply) := by
  obtain ⟨events, log, own⟩ := did.log
  refine ⟨by rw [does.heap, did.heap], ?_, does.mainThreadId.trans did.mainThreadId, events ++ o.events thread reply,
    by rw [does.log, log, List.append_assoc], ?_⟩
  · rw [does.openSockets, ← did.openSockets]
    cases o with
    | insert fd socket => exact (registers fd socket rfl).elim
    | _ => rfl
  · rw [List.filter_append, own, List.filter_eq_self.mpr]
    simpa using Op.events_own o reply

theorem Did.elapse (did : Did thread net now heap mine) (elapsed : @Elapses signature kernel now after) :
    Did thread net after heap mine := by
  induction elapsed with
  | refl => exact did
  | tail _ moved ih =>
    obtain ⟨input, moved⟩ := moved
    have moves := environment_does moved
    obtain ⟨events, log, own⟩ := ih.log
    obtain ⟨event, other, more⟩ := moves.log
    refine ⟨moves.heap.trans ih.heap, moves.openSockets.trans ih.openSockets, moves.mainThreadId.trans ih.mainThreadId,
      events ++ [event], by rw [more, log, List.append_assoc], ?_⟩
    simp [own, other]

end did

section ends
variable {thread : ThreadId} {α : Type} {net now last : Net} {heap : List Socket} {mine : List Event}
  {outcome : Outcome α}

theorem op_ends {o : Op} {rest : o.Reply → Shim α} (did : Did thread net now heap mine)
    (ends : Ends thread ((perform o).bind rest) now outcome last) (registers : ∀ fd socket, o ≠ .insert fd socket) :
    ∃ reply after, Does thread o reply now after ∧
      Did thread net after (o.heap heap) (mine ++ o.events thread reply) ∧
        Ends thread (rest reply) after outcome last := by
  obtain ⟨input, reply, after, executed, later⟩ := Completes.op_iff.mp ends
  have does := exec_does executed
  exact ⟨reply, after, does, did.op does registers, later⟩

theorem pause_ends {rest : Unit → Shim α} (did : Did thread net now heap mine)
    (ends : Ends thread (pause.bind rest) now outcome last) :
    ∃ after, Did thread net after heap mine ∧ Ends thread (rest ()) after outcome last := by
  obtain ⟨between, elapsed, later⟩ := Completes.yield_iff.mp ends
  exact ⟨between, did.elapse elapsed, later⟩

theorem repeatWhile_ends {p : Ptr} {socket : Socket} {rest : Unit → Shim α} (did : Did thread net now heap mine)
    (at_ : heap[p]? = some socket) (down : socket.recvHalt = false)
    (ends : Ends thread ((repeatWhile (perform (.recvHalt p)) pause).bind rest) now outcome last) :
    ∃ after, Did thread net after heap (mine ++ [.readRecvHalt thread p]) ∧
      Ends thread (rest ()) after outcome last := by
  have tested {outcome : Outcome (Unit ⊕ Unit)} {middle : Net} (turned : Ends thread (do
      if ← perform (.recvHalt p) then
        pause
        return .inl ()
      else return .inr ()) now outcome middle) :
      outcome = .value (.inr ()) ∧ Did thread net middle heap (mine ++ [.readRecvHalt thread p]) := by
    obtain ⟨reply, after, does, then_, turned⟩ := op_ends did turned nofun
    obtain ⟨held, found, answer⟩ := does.answer
    rw [did.heap, at_, Option.some.injEq] at found
    obtain rfl : reply = false := by rw [answer, ← found, down]
    obtain ⟨rfl, rfl⟩ := Completes.pure_iff.mp turned
    exact ⟨rfl, then_⟩
  rw [repeatWhile, iterate_bind] at ends
  rcases Completes.loop_iff.mp ends with ⟨result, middle, turned, ends⟩ | ⟨why, _, turned⟩
  · obtain ⟨same, did⟩ := tested turned
    cases same
    exact ⟨middle, did, ends⟩
  · cases (tested turned).1

theorem ends_recorded {code : Shim α} (did : Did thread net now heap mine) (ends : Ends thread code now outcome last) :
    ∃ more, net.recorded thread last = mine ++ more := by
  have grows : ∃ events, last.log = now.log ++ events := by
    refine @Completes.advances signature kernel thread α now last
      (fun net last => ∃ events, last.log = net.log ++ events)
      ?_ ?_ ?_ ?_ ?_ code outcome ends
    · exact fun net => ⟨[], (List.append_nil _).symm⟩
    · rintro first second third ⟨before, log⟩ ⟨events, more⟩
      exact ⟨before ++ events, by rw [more, log, List.append_assoc]⟩
    · exact fun executed => ⟨_, (exec_does executed).log⟩
    · intro input net after moved
      obtain ⟨event, _, log⟩ := (environment_does moved).log
      exact ⟨_, log⟩
    · exact fun other net => ⟨_, rfl⟩
  obtain ⟨before, log, own⟩ := did.log
  obtain ⟨events, more⟩ := grows
  refine ⟨events.filter fun event => event.thread = some thread, ?_⟩
  rw [Net.recorded, more, log, List.append_assoc, List.drop_left, List.filter_append, own]

end ends

/-- Every OTRcv of the thread in this time was answered by kOTNoDataErr. -/
def Starved (thread : ThreadId) (net last : Net) : Prop :=
  ∀ endpoint n result moved, .openTransport thread (.rcv endpoint n result moved) ∈ net.recorded thread last →
    result = kOTNoDataErr

section recv
variable {thread : ThreadId} {fd : Int} {p : Ptr} {nbytes : Nat} {flags : Int} {net last : Net} {socket : Socket}

/-- A request, whatever its size, empties the buffer. -/
theorem recv_starved {outcome : Outcome (Int × Bytes)} (listed : net.lookup (key fd) = some p)
    (at_ : net.heap[p]? = some socket) (down : socket.recvHalt = false)
    (ends : Ends thread (recv fd nbytes flags) net outcome last) (starved : Starved thread net last) :
    outcome = .value ((flatten socket.recvBuf).length,
      overwrite (overwrite (List.replicate nbytes 0) []) (flatten socket.recvBuf)) ∧
      last.heap = net.heap.modify p Assign.clearRecvBuf.apply ∧ last.openSockets = net.openSockets := by
  simp only [recv, openSocketsAt, bind_eq, bind_assoc] at ends
  obtain ⟨found, _, does, did, ends⟩ := op_ends (.start thread net) ends (by simp)
  obtain rfl : found = some p := does.answer.trans listed
  obtain ⟨_, did, ends⟩ := pause_ends did ends
  obtain ⟨held, _, does, did, ends⟩ := op_ends did ends (by simp)
  obtain ⟨⟨ret, moved, dataFlags⟩, _, does, did, ends⟩ := op_ends did ends (by simp)
  obtain rfl : ret = kOTNoDataErr := by
    obtain ⟨more, recorded⟩ := ends_recorded did ends
    refine starved held.endpoint nbytes ret moved ?_
    simp [recorded, Op.events]
  obtain rfl : moved = [] := by
    rcases does.answer with ⟨count, _⟩ | ⟨_, empty⟩
    · simp only [kOTNoDataErr] at count
      omega
    · exact empty
  simp only [ne_eq, not_true_eq_false, if_false] at ends
  obtain ⟨_, did, ends⟩ := pause_ends did ends
  obtain ⟨_, did, ends⟩ := repeatWhile_ends did at_ down ends
  have heap := did.heap
  obtain ⟨found, _, does, did, ends⟩ := op_ends did ends (by simp)
  obtain rfl : socket = found := by
    have answer : (Net.heap _)[p]? = some found := does.answer
    rw [heap] at answer
    exact Option.some.inj (at_.symm.trans answer)
  obtain ⟨_, _, _, did, ends⟩ := op_ends did ends (by simp)
  obtain ⟨_, did, ends⟩ := pause_ends did ends
  obtain ⟨rfl, rfl⟩ := Completes.pure_iff.mp ends
  exact ⟨rfl, did.heap, did.openSockets⟩

theorem recv_starves (listed : net.lookup (key fd) = some p) (at_ : net.heap[p]? = some socket)
    (down : socket.recvHalt = false) : ∃ result last, Ends thread (recv fd nbytes flags) net (.value result) last ∧
      Starved thread net last := by
  obtain ⟨last, runs, log⟩ := @recv_runs thread net fd nbytes flags p socket listed at_ down
  refine ⟨_, last, .of_alone runs, fun endpoint n result moved member => ?_⟩
  rw [Net.recorded, log, List.drop_left] at member
  simp only [List.mem_filter, List.mem_cons, List.not_mem_nil, or_false, reduceCtorEq, false_or, or_false,
    Event.openTransport.injEq, OTCall.rcv.injEq, true_and] at member
  exact member.1.2.2.1

end recv

/-- Requests of the given sizes, one after the other, while Open Transport has nothing to
give, with their results. -/
inductive Starving (thread : ThreadId) (fd flags : Int) : List Nat → Net → List (Int × Bytes) → Net → Prop where
  | nil (net : Net) : Starving thread fd flags [] net [] net
  | cons {nbytes : Nat} {sizes : List Nat} {net middle last : Net} {result : Int × Bytes} {results : List (Int × Bytes)}
      (first : Ends thread (recv fd nbytes flags) net (.value result) middle) (starved : Starved thread net middle)
      (rest : Starving thread fd flags sizes middle results last) :
      Starving thread fd flags (nbytes :: sizes) net (result :: results) last

/-- What one request takes out of the bytes that are buffered, and what it leaves: as many
as it was asked for, stored within the buffer. -/
structure Takes (nbytes : Nat) (buffered : Bytes) (result : Int × Bytes) (left : Bytes) : Prop where
  count : result.1 = min nbytes buffered.length
  within : result.2.length = nbytes
  stored : result.2.take (min nbytes buffered.length) = buffered.take (min nbytes buffered.length)
  left : left = buffered.drop (min nbytes buffered.length)

/-- Every request takes its bytes from what those before it have left. -/
inductive Drains : List Nat → Bytes → List (Int × Bytes) → Bytes → Prop where
  | nil (buffered : Bytes) : Drains [] buffered [] buffered
  | cons {nbytes : Nat} {sizes : List Nat} {buffered middle left : Bytes} {result : Int × Bytes}
      {results : List (Int × Bytes)} (first : Takes nbytes buffered result middle)
      (rest : Drains sizes middle results left) : Drains (nbytes :: sizes) buffered (result :: results) left

/-- What the results of the requests store, in a row. -/
def storedBytes (results : List (Int × Bytes)) : Bytes := results.flatMap fun result => result.2.take result.1.toNat

/-- Starving that take their bytes so lose none, and none changes its place. -/
theorem Drains.whole {sizes : List Nat} {buffered left : Bytes} {results : List (Int × Bytes)}
    (drains : Drains sizes buffered results left) : storedBytes results ++ left = buffered := by
  induction drains with
  | nil => rfl
  | cons first _ ih =>
    have stored := first.stored
    rw [storedBytes, List.flatMap_cons, List.append_assoc, ← storedBytes, ih, first.left, first.count,
      Int.toNat_natCast, stored, List.take_append_drop]

/-- The request is not too small for what is buffered. -/
def Roomy (sizes : List Nat) (buffered : Bytes) : Prop := ∀ nbytes ∈ sizes.head?, buffered.length ≤ nbytes

theorem overwrite_within {nbytes : Nat} {buffered : Bytes} :
    (overwrite (overwrite (List.replicate nbytes 0) []) buffered).length = nbytes ↔ buffered.length ≤ nbytes := by
  simp only [overwrite, List.nil_append, List.length_nil, List.drop_zero, List.length_append, List.length_drop,
    List.length_replicate]
  omega

theorem takes_all {nbytes : Nat} {buffered : Bytes} (room : buffered.length ≤ nbytes) :
    Takes nbytes buffered (buffered.length, overwrite (overwrite (List.replicate nbytes 0) []) buffered) [] := by
  have all : min nbytes buffered.length = buffered.length := Nat.min_eq_right room
  exact ⟨by rw [all], overwrite_within.mpr room, by simp [overwrite, all], by simp [all]⟩

section requests
variable {thread : ThreadId} {fd : Int} {p : Ptr} {flags : Int} {net last : Net} {socket : Socket} {sizes : List Nat}
  {results : List (Int × Bytes)}

private theorem emptied {middle : Net} (at_ : net.heap[p]? = some socket)
    (heap : middle.heap = net.heap.modify p Assign.clearRecvBuf.apply) :
    middle.heap[p]? = some { socket with recvBuf := [] } := by
  rw [heap, List.getElem?_modify_eq, at_]
  rfl

theorem requests_exist (listed : net.lookup (key fd) = some p) (at_ : net.heap[p]? = some socket)
    (down : socket.recvHalt = false) : ∃ results last, Starving thread fd flags sizes net results last := by
  induction sizes generalizing net socket with
  | nil => exact ⟨[], net, .nil net⟩
  | cons nbytes sizes ih =>
    obtain ⟨result, middle, ends, starved⟩ := @recv_starves thread fd p nbytes flags net socket listed at_ down
    obtain ⟨_, heap, sockets⟩ := recv_starved listed at_ down ends starved
    have still : middle.lookup (key fd) = some p := by rw [Net.lookup, sockets]; exact listed
    obtain ⟨results, last, rest⟩ := ih still (emptied at_ heap) down
    exact ⟨_, last, .cons ends starved rest⟩

theorem requests_drain (listed : net.lookup (key fd) = some p) (at_ : net.heap[p]? = some socket)
    (down : socket.recvHalt = false) (room : Roomy sizes (flatten socket.recvBuf))
    (requests : Starving thread fd flags sizes net results last) :
    ∃ left, last.heap[p]? = some left ∧ Drains sizes (flatten socket.recvBuf) results (flatten left.recvBuf) := by
  induction requests generalizing socket with
  | nil net => exact ⟨socket, at_, .nil _⟩
  | @cons nbytes sizes net middle last result results ends starved _ ih =>
    obtain ⟨same, heap, sockets⟩ := recv_starved listed at_ down ends starved
    cases same
    have still : middle.lookup (key fd) = some p := by rw [Net.lookup, sockets]; exact listed
    obtain ⟨left, found, drains⟩ := ih still (emptied at_ heap) down fun _ _ => Nat.zero_le _
    exact ⟨left, found, .cons (takes_all (room nbytes rfl)) drains⟩

/-- A request that is too small for what is buffered stores more than it was asked for. -/
theorem requests_room {left : Bytes} (listed : net.lookup (key fd) = some p) (at_ : net.heap[p]? = some socket)
    (down : socket.recvHalt = false) (requests : Starving thread fd flags sizes net results last)
    (drains : Drains sizes (flatten socket.recvBuf) results left) : Roomy sizes (flatten socket.recvBuf) := by
  cases requests with
  | nil => exact nofun
  | cons ends starved _ =>
    obtain ⟨same, _, _⟩ := recv_starved listed at_ down ends starved
    cases same
    cases drains with
    | cons takes _ =>
      rintro nbytes ⟨⟩
      exact overwrite_within.mp takes.within

/-- All that is buffered is stored, also behind the end of the caller's buffer, and nothing
of it stays: requests drain the buffer as they should only where the first one has room for
everything. -/
theorem recv_drains (listed : net.lookup (key fd) = some p) (at_ : net.heap[p]? = some socket)
    (down : socket.recvHalt = false) (sizes : List Nat) :
    (∃ results last, Starving thread fd flags sizes net results last) ∧
    ((∀ results last, Starving thread fd flags sizes net results last → ∃ left, last.heap[p]? = some left ∧
        Drains sizes (flatten socket.recvBuf) results (flatten left.recvBuf) ∧
        storedBytes results ++ flatten left.recvBuf = flatten socket.recvBuf) ↔
      Roomy sizes (flatten socket.recvBuf)) := by
  have exist := @requests_exist thread fd p flags net socket sizes listed at_ down
  refine ⟨exist, fun all => ?_, fun room results last requests => ?_⟩
  · obtain ⟨results, last, requests⟩ := exist
    obtain ⟨left, _, drains, _⟩ := all results last requests
    exact requests_room listed at_ down requests drains
  · obtain ⟨left, found, drains⟩ := requests_drain listed at_ down room requests
    exact ⟨left, found, drains, drains.whole⟩

end requests

def chunked : Net where
  mainThreadId := 0
  heap := [{ recvBuf := [[1, 2], [3]] }]
  openSockets := [(0, 0)]

theorem recv_drains_chunked : (∃ results last, Starving 0 0 0 [4, 1] chunked results last) ∧
    ((∀ results last, Starving 0 0 0 [4, 1] chunked results last → ∃ left, last.heap[0]? = some left ∧
      Drains [4, 1] [1, 2, 3] results (flatten left.recvBuf) ∧ storedBytes results ++ flatten left.recvBuf = [1, 2, 3])
        ↔
      Roomy [4, 1] [1, 2, 3]) :=
  @recv_drains 0 0 0 0 chunked { recvBuf := [[1, 2], [3]] } rfl rfl rfl [4, 1]

theorem recv_overflows : (∃ results last, Starving 0 0 0 [2] chunked results last) ∧
    ∀ results last left, Starving 0 0 0 [2] chunked results last → ¬ Drains [2] [1, 2, 3] results left := by
  refine ⟨requests_exist rfl rfl rfl, fun results last left requests drains => ?_⟩
  have room : Roomy [2] [1, 2, 3] := @requests_room 0 0 0 0 chunked last _ [2] results left rfl rfl rfl requests drains
  exact absurd (room 2 rfl) (by decide)

end PowerBoot.PowerNet
