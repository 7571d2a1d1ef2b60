import PowerBoot.PowerNet.Buffered

/-! The loop that drains an endpoint on T_DATA: what it makes of each result of OTRcv, and
what it keeps of the bytes. -/

namespace PowerBoot.PowerNet
open Coop Code Memory

def complaint (thread mainThreadId : ThreadId) (format : String) (arguments : List String) : List Event :=
  [.reported thread format arguments, .disposed thread mainThreadId]

section ends
variable {thread : ThreadId} {α : Type} {net now last : Net} {heap : List Socket} {mine : List Event}
  {outcome : Outcome α}

theorem Did.disposes (did : Did thread net now heap mine) (other : ThreadId) :
    Did thread net (now.record (.disposed thread other)) heap (mine ++ [.disposed thread other]) := by
  obtain ⟨events, log, own⟩ := did.log
  refine ⟨did.heap, did.openSockets, did.mainThreadId, events ++ [.disposed thread other], ?_, ?_⟩
  · rw [Net.record_log, log, List.append_assoc]
  · have owner : (Event.disposed thread other).thread = some thread := rfl
    simp [own, owner]

/-- What is executed after a report: nothing on the main thread, which is gone. -/
theorem macErrorThrow_ends {format : String} {arguments : List String} {rest : Unit → Shim α}
    (did : Did thread net now heap mine)
    (ends : Ends thread ((macErrorThrow format arguments).bind rest) now outcome last) :
    (net.mainThreadId = thread ∧ outcome = .fails .stopped ∧
      Did thread net last heap (mine ++ complaint thread net.mainThreadId format arguments)) ∨
    (net.mainThreadId ≠ thread ∧ ∃ after, Did thread net after heap
      (mine ++ complaint thread net.mainThreadId format arguments) ∧
      Ends thread (rest ()) after outcome last) := by
  simp only [macErrorThrow, bind_eq, bind_assoc] at ends
  obtain ⟨_, _, _, did, ends⟩ := op_ends did ends nofun
  obtain ⟨_, did, ends⟩ := pause_ends did ends
  have main := did.mainThreadId
  obtain ⟨mainThreadId, _, does, did, ends⟩ := op_ends did ends nofun
  obtain rfl : mainThreadId = net.mainThreadId := does.answer.trans main
  have complained := did.disposes net.mainThreadId
  rw [List.append_assoc, List.append_assoc] at complained
  have ends := Completes.dispose_iff.mp ends
  split at ends
  next same =>
    obtain ⟨rfl, rfl⟩ := ends
    refine Or.inl ⟨same, rfl, ?_⟩
    rw [same] at complained ⊢
    exact complained
  next different =>
    obtain ⟨after, did, ends⟩ := pause_ends complained ends
    exact Or.inr ⟨different, after, did, ends⟩

end ends

def delivered (events : List Event) : List Bytes :=
  events.filterMap fun event => match event with
    | .openTransport _ (.rcv _ _ _ moved) => some moved
    | _ => none

def counted (events : List Event) : List Nat :=
  events.filterMap fun event => match event with
    | .openTransport _ (.status .countDataBytes _ result) => some result.toNat
    | _ => none

@[simp] theorem delivered_append (first rest : List Event) :
  delivered (first ++ rest) = delivered first ++ delivered rest :=
  List.filterMap_append

@[simp] theorem counted_append (first rest : List Event) : counted (first ++ rest) = counted first ++ counted rest :=
  List.filterMap_append

@[simp] theorem delivered_rcv (thread : ThreadId) (endpoint : Option EndpointRef) (n : Nat) (ret : Int) (moved : Bytes)
    (rest : List Event) :
    delivered (.openTransport thread (.rcv endpoint n ret moved) :: rest) = moved :: delivered rest := rfl

@[simp] theorem counted_rcv (thread : ThreadId) (endpoint : Option EndpointRef) (n : Nat) (ret : Int) (moved : Bytes)
    (rest : List Event) : counted (.openTransport thread (.rcv endpoint n ret moved) :: rest) = counted rest := rfl

/-- What the thread recorded in a turn after the answer of OTRcv. -/
structure Complains (thread : ThreadId) (err : Int) (reports : List Event) : Prop where
  delivered : delivered reports = []
  counted : counted reports = []
  named : ∀ format, osErrFormat err = some format → ∃ arguments, .reported thread format arguments ∈ reports
  known : ∀ format arguments, .reported thread format arguments ∈ reports →
    osErrFormat err = some format ∨ format = "Timed out recieving data"

theorem Complains.nothing {thread : ThreadId} {err : Int} (unnamed : osErrFormat err = none) :
    Complains thread err [] :=
  ⟨rfl, rfl, fun format named => by simp [unnamed] at named, nofun⟩

theorem Complains.once {thread mainThreadId : ThreadId} {err : Int} {format : String} {arguments : List String}
    (named : osErrFormat err = some format) : Complains thread err
      (complaint thread mainThreadId format arguments) := by
  refine ⟨rfl, rfl, fun other also => ⟨arguments, ?_⟩, fun other others member => Or.inl ?_⟩
  · rw [named, Option.some.injEq] at also
    simp [complaint, also]
  · simp only [complaint, List.mem_cons, Event.reported.injEq, reduceCtorEq, List.not_mem_nil, or_false] at member
    rw [member.2.1, named]

theorem Complains.timedOut {thread mainThreadId : ThreadId} {err : Int} {reports : List Event}
    (complains : Complains thread err reports) :
    Complains thread err (reports ++ complaint thread mainThreadId "Timed out recieving data" []) := by
  refine ⟨?_, ?_, fun format named => ?_, fun format arguments member => ?_⟩
  · rw [delivered_append, complains.delivered]
    rfl
  · rw [counted_append, complains.counted]
    rfl
  · obtain ⟨arguments, member⟩ := complains.named format named
    exact ⟨arguments, List.mem_append_left _ member⟩
  · rcases List.mem_append.mp member with member | member
    · exact complains.known format arguments member
    · simp only [complaint, List.mem_cons, Event.reported.injEq, reduceCtorEq, List.not_mem_nil, or_false] at member
      exact Or.inr member.2.1

section answer
variable {thread : ThreadId} {net now last : Net} {heap : List Socket} {mine : List Event} {s : Ptr}
  {dataBuf moved : Bytes}
  {ret : Int} {dataFlags : OTFlags} {outcome : Outcome (Bytes ⊕ Unit)}

theorem answered_done (did : Did thread net now heap mine) (none : toOSErr ret = kOTNoDataErr)
    (ends : Ends thread (rcvAnswered s dataBuf (ret, moved, dataFlags)) now outcome last) :
    outcome = .value (.inr ()) ∧
      Did thread net last (heap.modify s (Assign.pushRecvBuf (overwrite dataBuf moved)).apply) mine := by
  simp only [rcvAnswered, none, if_true, bind_eq] at ends
  obtain ⟨_, _, _, did, ends⟩ := op_ends did ends (by simp)
  obtain ⟨rfl, rfl⟩ := Completes.pure_iff.mp ends
  rw [Op.events, List.append_nil] at did
  exact ⟨rfl, did⟩

/-- A turn goes on with its buffer, unless an error is reported on the main thread. -/
def GoesOn (thread : ThreadId) (net : Net) (dataBuf : Bytes) (reports : List Event) (outcome : Outcome (Bytes ⊕ Unit)) :
    Prop :=
  outcome = .value (.inl dataBuf) ∨ outcome = .fails .stopped ∧ net.mainThreadId = thread ∧
    ∃ format arguments, .reported thread format arguments ∈ reports

private theorem remark_ends {said : Prop} [Decidable said] (did : Did thread net now heap mine)
    (ends : Ends thread ((when said printf).bind fun _ => pause.bind fun _ => .pure (.inl dataBuf)) now outcome last) :
    outcome = .value (.inl dataBuf) ∧ Did thread net last heap mine := by
  have paused {now : Net} (did : Did thread net now heap mine)
      (ends : Ends thread (pause.bind fun _ => .pure (.inl dataBuf)) now outcome last) :
      outcome = .value (.inl dataBuf) ∧ Did thread net last heap mine := by
    obtain ⟨_, did, ends⟩ := pause_ends did ends
    obtain ⟨rfl, rfl⟩ := Completes.pure_iff.mp ends
    exact ⟨rfl, did⟩
  unfold when at ends
  split at ends
  · obtain ⟨_, did, ends⟩ := pause_ends did ends
    exact paused did ends
  · exact paused did ends

private theorem flags_end {reports : List Event} (complains : Complains thread (toOSErr ret) reports)
    (did : Did thread net now heap (mine ++ reports)) (ends : Ends thread ((when (dataFlags = .timedOut)
      (macErrorThrow "Timed out recieving data" [])).bind fun _ => (when dataFlags.remark.isSome printf).bind fun _ =>
        pause.bind fun _ => .pure (.inl dataBuf)) now outcome last) :
    ∃ reports, Complains thread (toOSErr ret) reports ∧ Did thread net last heap (mine ++ reports) ∧
      GoesOn thread net dataBuf reports outcome := by
  by_cases late : dataFlags = .timedOut
  · simp only [when, if_pos late] at ends
    have complains := @complains.timedOut _ net.mainThreadId
    rcases macErrorThrow_ends did ends with ⟨main, rfl, did⟩ | ⟨_, _, did, ends⟩
    all_goals rw [List.append_assoc] at did
    · exact ⟨_, complains, did, Or.inr ⟨rfl, main, _, _, List.mem_append_right _ (List.mem_cons_self ..)⟩⟩
    · obtain ⟨rfl, did⟩ := remark_ends did ends
      exact ⟨_, complains, did, Or.inl rfl⟩
  · rw [when, if_neg late] at ends
    obtain ⟨rfl, did⟩ := remark_ends did ends
    exact ⟨_, complains, did, Or.inl rfl⟩

/-- With any other result the loop goes on, once the error that it is taken for is reported. -/
theorem answered_more (did : Did thread net now heap mine) (other : toOSErr ret ≠ kOTNoDataErr)
    (ends : Ends thread (rcvAnswered s dataBuf (ret, moved, dataFlags)) now outcome last) :
    ∃ reports, Complains thread (toOSErr ret) reports ∧ Did thread net last heap (mine ++ reports) ∧
      GoesOn thread net (overwrite dataBuf moved) reports outcome := by
  simp only [rcvAnswered, other, if_false, bind_eq, throwOsErr] at ends
  split at ends
  next format named =>
    rcases macErrorThrow_ends did ends with ⟨main, rfl, did⟩ | ⟨_, _, did, ends⟩
    · exact ⟨_, .once named, did, Or.inr ⟨rfl, main, _, _, List.mem_cons_self ..⟩⟩
    · obtain ⟨_, did, ends⟩ := pause_ends did ends
      exact flags_end (.once named) did ends
  next unnamed =>
    obtain ⟨_, did, ends⟩ := pause_ends did ends
    rw [← List.append_nil mine] at did
    exact flags_end (.nothing unnamed) did ends

private theorem macErrorThrow_exists {α : Type} {format : String} {arguments : List String} {rest : Unit → Shim α}
    (later : ∀ now, now.heap = net.heap → ∃ outcome last, Ends thread (rest ()) now outcome last) :
    ∃ outcome last, Ends thread ((macErrorThrow format arguments).bind rest) net outcome last := by
  let reported := net.record (.reported thread format arguments)
  have main : kernel.exec thread .mainThreadId .none reported = some (net.mainThreadId, reported) := rfl
  have report : kernel.exec thread (.report format arguments) .none net = some ((), reported) := rfl
  by_cases same : net.mainThreadId = thread
  · refine ⟨.fails .stopped, reported.record (.disposed thread thread), .op report (.yield .refl (.op main ?_))⟩
    exact Completes.dispose_iff.mpr (by rw [if_pos same]; exact ⟨rfl, rfl⟩)
  · obtain ⟨outcome, last, ends⟩ := later (reported.record (.disposed thread net.mainThreadId)) rfl
    exact ⟨outcome, last, .op report (.yield .refl (.op main (.disposes same (.yield .refl ends))))⟩

theorem answered_exists (at_ : s < net.heap.length) :
    ∃ outcome last, Ends thread (rcvAnswered s dataBuf (ret, moved, dataFlags)) net outcome last := by
  have remarked (now : Net) : ∃ (outcome : Outcome (Bytes ⊕ Unit)) (last : Net),
      Ends thread ((when dataFlags.remark.isSome printf).bind fun _ =>
        pause.bind fun _ => .pure (.inl (overwrite dataBuf moved))) now outcome last := by
    refine ⟨.value (.inl (overwrite dataBuf moved)), now, ?_⟩
    unfold when
    split
    · exact .yield .refl (.yield .refl (.pure _ _))
    · exact .yield .refl (.pure _ _)
  have flagged (now : Net) : ∃ (outcome : Outcome (Bytes ⊕ Unit)) (last : Net),
    Ends thread ((when (dataFlags = .timedOut)
      (macErrorThrow "Timed out recieving data" [])).bind fun _ => (when dataFlags.remark.isSome printf).bind fun _ =>
        pause.bind fun _ => .pure (.inl (overwrite dataBuf moved))) now outcome last := by
    by_cases late : dataFlags = .timedOut
    · rw [when, if_pos late]
      exact macErrorThrow_exists fun now _ => remarked now
    · rw [when, if_neg late]
      exact remarked now
  by_cases none : toOSErr ret = kOTNoDataErr
  · have push : kernel.exec thread (.assign s (.pushRecvBuf (overwrite dataBuf moved))) .none net = some ((), { net with
        heap := net.heap.modify s (Assign.pushRecvBuf (overwrite dataBuf moved)).apply }) := by
      simp [exec, List.getElem?_eq_getElem at_]
    refine ⟨.value (.inr ()),
      { net with heap := net.heap.modify s (Assign.pushRecvBuf (overwrite dataBuf moved)).apply }, ?_⟩
    rw [rcvAnswered, if_pos none]
    exact .op push (.pure _ _)
  · simp only [rcvAnswered, none, if_false, bind_eq, throwOsErr]
    split
    · refine macErrorThrow_exists fun now _ => ?_
      obtain ⟨outcome, last, ends⟩ := flagged now
      exact ⟨outcome, last, .yield .refl ends⟩
    · obtain ⟨outcome, last, ends⟩ := flagged net
      exact ⟨outcome, last, .yield .refl ends⟩

end answer

/-- The codes that have a name. -/
def osErrCodes : List Int := osErrNames.map Prod.fst

theorem osErrFormat_some {err : Int} : (∃ format, osErrFormat err = some format) ↔ err ∈ osErrCodes := by
  have listed (names : List (Int × String)) : (names.lookup err).isSome ↔ err ∈ names.map Prod.fst := by
    simp only [List.lookup_isSome_iff, List.mem_map, beq_iff_eq]
    exact exists_congr fun entry => and_congr_right fun _ => eq_comm
  rw [← Option.isSome_iff_exists, osErrFormat, Option.isSome_map, listed, osErrCodes]

theorem toOSErr_eq_iff {ret code : Int} (inside : -2 ^ 15 ≤ code ∧ code < 2 ^ 15) :
    toOSErr ret = code ↔ ret % 2 ^ 16 = code % 2 ^ 16 := by
  rw [toOSErr, Int.bmod_def]
  split <;> omega

theorem osErrCodes_inside : ∀ code ∈ osErrCodes, -2 ^ 15 ≤ code ∧ code < 2 ^ 15 := by decide

theorem osErrFormat_timedOut (err : Int) : osErrFormat err ≠ some "Timed out recieving data" := by
  intro named
  obtain ⟨name, _, same⟩ := Option.map_eq_some_iff.mp named
  have first := congrArg (fun text => text.toList.head?) same
  simp [String.toList_append] at first

/-- A result that OTRcv may give is none that loses its meaning with its upper half: no
count has the lower half of a code, and no other error that of kOTNoDataErr. -/
def Unmistaken (ret : Int) : Prop :=
  ∀ code ∈ osErrCodes, ret % 2 ^ 16 = code % 2 ^ 16 → ret < 0 ∧ (code = kOTNoDataErr → ret = kOTNoDataErr)

/-- The loop ends exactly on kOTNoDataErr, and only negative results are reported as errors. -/
structure Told (thread : ThreadId) (s : Ptr) (dataBuf moved : Bytes) (dataFlags : OTFlags) (net : Net) (ret : Int) :
    Prop where
  done : (∃ last, Ends thread (rcvAnswered s dataBuf (ret, moved, dataFlags)) net (.value (.inr ())) last) ↔
    ret = kOTNoDataErr
  error : ∀ outcome last err format arguments, Ends thread (rcvAnswered s dataBuf (ret, moved, dataFlags)) net outcome
    last
    →
    osErrFormat err = some format → .reported thread format arguments ∈ net.recorded thread last → ret < 0

/-- The conversion to 16 bits does no harm to the results that are not mistaken, and only
to those. -/
theorem drain_narrows {thread : ThreadId} {s : Ptr} {dataBuf moved : Bytes} {dataFlags : OTFlags} {net : Net}
    {ret : Int}
    (at_ : s < net.heap.length) : Told thread s dataBuf moved dataFlags net ret ↔ Unmistaken ret := by
  have exist := @answered_exists thread net s dataBuf moved ret dataFlags at_
  have noData : kOTNoDataErr ∈ osErrCodes := by decide
  constructor
  · intro told code member same
    have narrowed := (toOSErr_eq_iff (osErrCodes_inside code member)).mpr same
    obtain ⟨outcome, last, ends⟩ := exist
    by_cases none : code = kOTNoDataErr
    · obtain ⟨rfl, _⟩ := answered_done (.start thread net) (narrowed.trans none) ends
      have same := told.done.mp ⟨last, ends⟩
      exact ⟨by rw [same]; decide, fun _ => same⟩
    · obtain ⟨reports, complains, did, _⟩ := answered_more (.start thread net) (narrowed ▸ none) ends
      obtain ⟨format, named⟩ := osErrFormat_some.mpr member
      obtain ⟨arguments, reported⟩ := complains.named format (narrowed.symm ▸ named)
      rw [← List.nil_append reports, ← did.recorded] at reported
      exact ⟨told.error outcome last code format arguments ends named reported, fun same => (none same).elim⟩
  · intro unmistaken
    have mistaken (code : Int) (member : code ∈ osErrCodes) (narrowed : toOSErr ret = code) :=
      unmistaken code member ((toOSErr_eq_iff (osErrCodes_inside code member)).mp narrowed)
    refine ⟨⟨?_, ?_⟩, ?_⟩
    · rintro ⟨last, ends⟩
      by_cases none : toOSErr ret = kOTNoDataErr
      · exact (mistaken _ noData none).2 rfl
      · obtain ⟨_, _, _, more⟩ := answered_more (.start thread net) none ends
        rcases more with same | ⟨same, _⟩ <;> cases same
    · rintro rfl
      obtain ⟨outcome, last, ends⟩ := exist
      obtain ⟨rfl, _⟩ := answered_done (.start thread net) (by decide) ends
      exact ⟨last, ends⟩
    · intro outcome last err format arguments ends named reported
      by_cases none : toOSErr ret = kOTNoDataErr
      · obtain ⟨_, did⟩ := answered_done (.start thread net) none ends
        rw [did.recorded] at reported
        cases reported
      · obtain ⟨reports, complains, did, _⟩ := answered_more (.start thread net) none ends
        rw [did.recorded, List.nil_append] at reported
        rcases complains.known format arguments reported with known | rfl
        · exact (mistaken _ (osErrFormat_some.mp ⟨format, known⟩) rfl).1
        · exact (osErrFormat_timedOut err named).elim

/-- Counts below those that have the lower half of a code do no harm. -/
theorem drain_narrows_small : Told 0 0 [] [1, 2] .more chunked 2 :=
  (drain_narrows (by decide)).mpr (by unfold Unmistaken; decide)

/-- A count whose lower half is that of kOTNoDataErr ends the loop. -/
theorem drain_mistakes_count : ¬ Told 0 0 [] (List.replicate 62374 1) .more chunked 62374 := by
  intro told
  obtain ⟨outcome, last, ends⟩ : ∃ outcome last, Ends 0 (rcvAnswered 0 [] (62374, List.replicate 62374 1, .more))
    chunked
      outcome last := answered_exists (by decide)
  obtain ⟨rfl, _⟩ := answered_done (.start 0 chunked) (by decide) ends
  exact absurd (told.done.mp ⟨last, ends⟩) (by decide)

section loop
variable {thread : ThreadId} {net now last : Net} {heap : List Socket} {mine : List Event} {s : Ptr} {dataBuf : Bytes}
  {dataSize : Nat}

theorem turn_ends {outcome : Outcome (Bytes ⊕ Unit)} (did : Did thread net now heap mine)
    (ends : Ends thread (turn s dataSize dataBuf) now outcome last) :
    ∃ endpoint ret moved dataFlags after, moved.length ≤ dataSize ∧
      Did thread net after heap (mine ++ [.openTransport thread (.rcv endpoint dataSize ret moved)]) ∧
      Ends thread (rcvAnswered s dataBuf (ret, moved, dataFlags)) after outcome last := by
  obtain ⟨held, _, _, did, ends⟩ := op_ends did ends nofun
  obtain ⟨⟨ret, moved, dataFlags⟩, after, does, did, ends⟩ := op_ends did ends nofun
  have did : Did thread net after heap
    (mine ++ [] ++ [.openTransport thread (.rcv held.endpoint dataSize ret moved)]) := did
  rw [List.append_nil] at did
  refine ⟨held.endpoint, ret, moved, dataFlags, after, ?_, did, ends⟩
  rcases does.answer with ⟨_, fits⟩ | ⟨_, none⟩
  · exact fits
  · exact le_of_eq_of_le (congrArg List.length none) (Nat.zero_le _)

/-- What the loop comes to: it keeps its buffer at the end, or is stopped by a report on
the main thread. -/
structure Drained (thread : ThreadId) (net : Net) (s : Ptr) (heap : List Socket) (mine : List Event) (dataSize : Nat)
    (dataBuf : Bytes) (more : List Event) (outcome : Outcome Unit) (last : Net) : Prop where
  counted : counted more = []
  fits : ∀ chunk ∈ delivered more, chunk.length ≤ dataSize
  ends : outcome = .value () ∧ Did thread net last
      (heap.modify s (Assign.pushRecvBuf (overlay dataBuf (delivered more))).apply) (mine ++ more) ∨
    outcome = .fails .stopped ∧ net.mainThreadId = thread ∧ Did thread net last heap (mine ++ more) ∧
      ∃ format arguments, .reported thread format arguments ∈ more

theorem Drained.before {outcome : Outcome Unit} {endpoint : Option EndpointRef} {ret : Int} {moved : Bytes}
    {reports more : List Event} (fits : moved.length ≤ dataSize) (complains : Complains thread (toOSErr ret) reports)
    (drained : Drained thread net s heap (mine ++ [.openTransport thread (.rcv endpoint dataSize ret moved)] ++ reports)
      dataSize (overwrite dataBuf moved) more outcome last) : Drained thread net s heap mine dataSize dataBuf
      (.openTransport thread (.rcv endpoint dataSize ret moved) :: (reports ++ more)) outcome last := by
  have bytes : delivered (.openTransport thread (.rcv endpoint dataSize ret moved) :: (reports ++ more)) =
      moved :: delivered more := by
    rw [delivered_rcv, delivered_append, complains.delivered, List.nil_append]
  have events : mine ++ [.openTransport thread (.rcv endpoint dataSize ret moved)] ++ reports ++ more =
      mine ++ (.openTransport thread (.rcv endpoint dataSize ret moved) :: (reports ++ more)) := by simp
  refine ⟨?_, ?_, ?_⟩
  · rw [counted_rcv, counted_append, complains.counted, drained.counted, List.nil_append]
  · rw [bytes]
    intro chunk member
    rcases List.mem_cons.mp member with rfl | member
    · exact fits
    · exact drained.fits chunk member
  · rw [bytes, ← events]
    rcases drained.ends with done | ⟨stopped, main, did, format, arguments, reported⟩
    · exact Or.inl done
    · refine Or.inr ⟨stopped, main, did, format, arguments, ?_⟩
      exact List.mem_cons_of_mem _ (List.mem_append_right _ reported)

theorem drain_ends {outcome : Outcome Unit} (did : Did thread net now heap mine)
    (ends : Ends thread (drain s dataSize dataBuf) now outcome last) :
    ∃ more, Drained thread net s heap mine dataSize dataBuf more outcome last := by
  rw [drain] at ends
  refine @Completes.loop_induction signature kernel thread Unit Bytes Unit now last (turn s dataSize) .pure
    (fun dataBuf now outcome last => ∀ mine, Did thread net now heap mine →
      ∃ more, Drained thread net s heap mine dataSize dataBuf more outcome last)
    ?_ ?_ ?_ dataBuf outcome ends mine did
  · intro dataBuf following now middle outcome last turned ih mine did
    obtain ⟨endpoint, ret, moved, dataFlags, _, fits, did, turned⟩ := turn_ends did turned
    by_cases none : toOSErr ret = kOTNoDataErr
    · cases (answered_done did none turned).1
    · obtain ⟨reports, complains, did, on⟩ := answered_more did none turned
      rcases on with same | ⟨same, _⟩
      · cases same
        obtain ⟨more, drained⟩ := ih _ did
        exact ⟨_, drained.before fits complains⟩
      · cases same
  · intro dataBuf value now middle outcome last turned later mine did
    obtain ⟨rfl, rfl⟩ := Completes.pure_iff.mp later
    obtain ⟨endpoint, ret, moved, dataFlags, _, fits, did, turned⟩ := turn_ends did turned
    by_cases none : toOSErr ret = kOTNoDataErr
    · obtain ⟨_, did⟩ := answered_done did none turned
      refine ⟨[.openTransport thread (.rcv endpoint dataSize ret moved)], rfl, ?_, Or.inl ⟨rfl, did⟩⟩
      simpa [delivered] using fits
    · obtain ⟨_, _, _, on⟩ := answered_more did none turned
      rcases on with same | ⟨same, _⟩ <;> cases same
  · intro dataBuf now why last turned mine did
    obtain ⟨endpoint, ret, moved, dataFlags, _, fits, did, turned⟩ := turn_ends did turned
    by_cases none : toOSErr ret = kOTNoDataErr
    · cases (answered_done did none turned).1
    · obtain ⟨reports, complains, did, on⟩ := answered_more did none turned
      rcases on with same | ⟨same, main, reported⟩
      · cases same
      · cases same
        obtain ⟨format, arguments, reported⟩ := reported
        rw [List.append_assoc] at did
        refine ⟨.openTransport thread (.rcv endpoint dataSize ret moved) :: reports, ?_, ?_,
          Or.inr ⟨rfl, main, did, format, arguments, List.mem_cons_of_mem _ reported⟩⟩
        · rw [counted_rcv, complains.counted]
        · simpa [complains.delivered] using fits

end loop

section overlay
variable {dataBuf : Bytes} {chunks : List Bytes} {dataSize : Nat}

/-- Byte `i` of the last chunk that is longer than that, and 0 where there is none. -/
def shown (chunks : List Bytes) (i : Nat) : UInt8 :=
  ((chunks.filter fun chunk => i < chunk.length).getLast?.bind (·[i]?)).getD 0

/-- The chunks together are as long as was counted, and each of their bytes happens to be
the one at its place in the last chunk that reaches so far. -/
def Coincides (dataSize : Nat) (chunks : List Bytes) : Prop :=
  chunks.flatten.length = dataSize ∧ ∀ i < dataSize, chunks.flatten[i]? = some (shown chunks i)

theorem overlay_eq_iff (fits : ∀ chunk ∈ chunks, chunk.length ≤ dataSize) :
    overlay (List.replicate dataSize 0) chunks = chunks.flatten ↔ Coincides dataSize chunks := by
  have length : (overlay (List.replicate dataSize 0) chunks).length = dataSize := by
    rw [overlay_length (by simpa using fits), List.length_replicate]
  have byte (i : Nat) (inside : i < dataSize) : (overlay (List.replicate dataSize 0) chunks)[i]? = some
    (shown chunks i) := by
    rw [overlay_getElem, shown]
    cases last : (chunks.filter fun chunk => i < chunk.length).getLast? with
    | none => simp [inside]
    | some chunk =>
      have reaches : i < chunk.length := by simpa using (List.mem_filter.mp (List.mem_of_getLast? last)).2
      simp [List.getElem?_eq_getElem reaches]
  constructor
  · intro same
    rw [same] at length byte
    exact ⟨length, byte⟩
  · rintro ⟨whole, each⟩
    apply List.ext_getElem?
    intro i
    by_cases inside : i < dataSize
    · rw [byte i inside, each i inside]
    · rw [List.getElem?_eq_none (by omega), List.getElem?_eq_none (by omega)]

end overlay

/-- What a socket has buffered grew by what OTRcv delivered, in order. -/
def Grew (thread : ThreadId) (s : Ptr) (net last : Net) : Prop :=
  ∃ before after, net.heap[s]? = some before ∧ last.heap[s]? = some after ∧
    flatten after.recvBuf = flatten before.recvBuf ++ (delivered (net.recorded thread last)).flatten

section handle
variable {thread : ThreadId} {net last : Net} {s : Ptr} {socket : Socket} {endpoint : Option EndpointRef}
  {code : OTEventCode} {outcome : Outcome Unit}

theorem handle_ends (up : socket.recvHalt = true) (at_ : net.heap[s]? = some socket)
    (event : code = .tData ∨ code = .tExData) (ends : Ends thread (handle s endpoint code) net outcome last) :
    ∃ endpoint result more, Drained thread net s net.heap
      [.openTransport thread (.status .countDataBytes endpoint result), .readRecvHalt thread s] result.toNat
      (List.replicate result.toNat 0) more outcome last := by
  have ends : Ends thread (receiveData s) net outcome last := by
    rcases event with rfl | rfl <;> exact ends
  obtain ⟨held, _, _, did, ends⟩ := op_ends (.start thread net) ends nofun
  obtain ⟨result, _, _, did, ends⟩ := op_ends did ends nofun
  obtain ⟨_, did, ends⟩ := pause_ends did ends
  have heap := did.heap
  obtain ⟨recvHalt, _, does, did, ends⟩ := op_ends did ends nofun
  obtain ⟨found, answer, halted⟩ := does.answer
  rw [heap] at answer
  obtain rfl : socket = found := Option.some.inj (at_.symm.trans answer)
  have waits : recvHalt = true := halted.trans up
  have ends : Ends thread (when recvHalt (drain s result.toNat (List.replicate result.toNat 0))) _ outcome last := ends
  rw [when, if_pos waits] at ends
  obtain ⟨more, drained⟩ := drain_ends did ends
  exact ⟨held.endpoint, result, more, drained⟩

/-- A handler that comes to its end has kept what its buffer shows. -/
theorem handle_value (at_ : net.heap[s]? = some socket) (up : socket.recvHalt = true)
    (event : code = .tData ∨ code = .tExData) (ends : Ends thread (handle s endpoint code) net (.value ()) last) :
    ∃ dataSize, counted (net.recorded thread last) = [dataSize] ∧
      (Grew thread s net last ↔ Coincides dataSize (delivered (net.recorded thread last))) := by
  obtain ⟨_, result, more, drained⟩ := handle_ends up at_ event ends
  rcases drained.ends with ⟨_, did⟩ | ⟨stopped, _⟩
  · have bytes : delivered (net.recorded thread last) = delivered more := by
      rw [did.recorded, delivered_append]
      rfl
    have after : last.heap[s]? = some
      ((Assign.pushRecvBuf (overlay (List.replicate result.toNat 0) (delivered more))).apply
        socket) := by
      rw [did.heap, List.getElem?_modify_eq, at_]
      rfl
    refine ⟨result.toNat, by rw [did.recorded, counted_append, drained.counted]; rfl, ?_⟩
    rw [bytes, ← overlay_eq_iff drained.fits, Grew, bytes]
    simp only [at_, after, Option.some.injEq, exists_and_left, exists_eq_left', Assign.apply, flatten,
      List.flatten_append, List.flatten_singleton, List.append_cancel_left_eq]
  · cases stopped

/-- One that is stopped has reported an error on the main thread, and has kept nothing. -/
theorem handle_fails {why : Failure} (at_ : net.heap[s]? = some socket) (up : socket.recvHalt = true)
    (event : code = .tData ∨ code = .tExData) (ends : Ends thread (handle s endpoint code) net (.fails why) last) :
    (net.mainThreadId = thread ∧ ∃ format arguments, .reported thread format arguments ∈ net.recorded thread last) ∧
      (Grew thread s net last ↔ (delivered (net.recorded thread last)).flatten = []) := by
  obtain ⟨_, result, more, drained⟩ := handle_ends up at_ event ends
  rcases drained.ends with ⟨value, _⟩ | ⟨_, main, did, format, arguments, reported⟩
  · cases value
  · refine ⟨⟨main, format, arguments, ?_⟩, ?_⟩
    · rw [did.recorded]
      exact List.mem_append_right _ reported
    · simp only [Grew, did.heap, at_, Option.some.injEq, exists_and_left, exists_eq_left', List.self_eq_append_right]

/-- The bytes are kept as they came only where they coincide with what the reused buffer
shows at the end. -/
theorem drain_appends (at_ : net.heap[s]? = some socket) (up : socket.recvHalt = true)
    (event : code = .tData ∨ code = .tExData) (ends : Ends thread (handle s endpoint code) net outcome last) :
    match outcome with
    | .value _ => ∃ dataSize, counted (net.recorded thread last) = [dataSize] ∧
      (Grew thread s net last ↔ Coincides dataSize (delivered (net.recorded thread last)))
    | .fails _ => (net.mainThreadId = thread ∧
        ∃ format arguments, .reported thread format arguments ∈ net.recorded thread last) ∧
      (Grew thread s net last ↔ (delivered (net.recorded thread last)).flatten = []) := by
  cases outcome with
  | value => exact handle_value at_ up event ends
  | fails why => exact handle_fails at_ up event ends

end handle

section deliver
variable {thread : ThreadId} {s : Ptr} {dataSize : Nat}

/-- The calls of OTRcv that deliver these chunks, and the last one, which finds none. -/
def deliveries (thread : ThreadId) (ref : EndpointRef) (dataSize : Nat) (chunks : List Bytes) : List Event :=
  chunks.map (fun chunk => .openTransport thread (.rcv (some ref) dataSize chunk.length chunk)) ++
    [.openTransport thread (.rcv (some ref) dataSize kOTNoDataErr [])]

theorem delivered_deliveries {ref : EndpointRef} {chunks : List Bytes} :
    delivered (deliveries thread ref dataSize chunks) = chunks ++ [[]] := by
  induction chunks with
  | nil => rfl
  | cons chunk chunks ih =>
    rw [deliveries, List.map_cons, List.cons_append, delivered_rcv, ← deliveries, ih, List.cons_append]

theorem counted_deliveries {ref : EndpointRef} {chunks : List Bytes} :
    counted (deliveries thread ref dataSize chunks) = [] := by
  induction chunks with
  | nil => rfl
  | cons chunk chunks ih => rwa [deliveries, List.map_cons, List.cons_append, counted_rcv]

/-- A chunk that is not taken for an error. -/
def Plain (dataSize : Nat) (chunk : Bytes) : Prop :=
  chunk.length ≤ dataSize ∧ chunk.length < 2 ^ 31 ∧ toOSErr chunk.length ∉ osErrCodes

theorem drain_exists {net : Net} {socket : Socket} {dataBuf : Bytes} {ref : EndpointRef} {held : Endpoint}
    {chunks : List Bytes}
    {more : Bytes} (at_ : net.heap[s]? = some socket) (endpoint : socket.endpoint = some ref)
    (opened : net.endpoints[ref]? = some held) (unread : held.unread = chunks.flatten ++ more)
    (plain : ∀ chunk ∈ chunks, Plain dataSize chunk) : ∃ last, Ends thread (drain s dataSize dataBuf) net
      (.value ()) last ∧
      last.log = net.log ++ deliveries thread ref dataSize chunks := by
  induction chunks generalizing net held dataBuf with
  | nil =>
    let failed := net.record (.openTransport thread (.rcv socket.endpoint dataSize kOTNoDataErr []))
    let last : Net := { failed with heap := failed.heap.modify s (Assign.pushRecvBuf (overwrite dataBuf [])).apply }
    have load : kernel.exec thread (.load s) .none net = some (socket, net) := by simp [exec, at_]
    have receive : kernel.exec thread (.otRcv socket.endpoint dataSize) (.status kOTNoDataErr) net =
        some ((kOTNoDataErr, [], .other), failed) := by
      simp [exec, otRcv, failed, kOTNoDataErr]
    have push : kernel.exec thread (.assign s (.pushRecvBuf (overwrite dataBuf []))) .none failed = some
      ((), last) := by
      simp [exec, failed, last, at_]
    refine ⟨last, ?_, by simp [last, failed, deliveries, endpoint]⟩
    rw [drain]
    refine .leaves (.op load (.op receive ?_)) (.pure _ _)
    rw [Code.pure_bind, rcvAnswered, if_pos (by decide)]
    exact .op push (.pure _ _)
  | cons chunk chunks ih =>
    obtain ⟨fits, small, unnamed⟩ := plain chunk (List.mem_cons_self ..)
    let after := (net.updateEndpoint ref (.discard chunk.length)).record
      (.openTransport thread (.rcv socket.endpoint dataSize chunk.length chunk))
    have load : kernel.exec thread (.load s) .none net = some (socket, net) := by simp [exec, at_]
    have receive : kernel.exec thread (.otRcv socket.endpoint dataSize) (.moved chunk.length .more) net =
        some (((chunk.length : Int), chunk, OTFlags.more), after) := by
      have room : chunk.length ≤ held.unread.length := by simp [unread]
      have short : chunk.length < 2147483648 := small
      simp [exec, otRcv, endpoint, opened, fits, short, room, after]
      simp [unread]
    have named : toOSErr chunk.length ≠ kOTNoDataErr := fun none => unnamed (none ▸ by decide)
    have silent : osErrFormat (toOSErr chunk.length) = none :=
      Option.eq_none_iff_forall_ne_some.mpr fun format named => unnamed (osErrFormat_some.mp ⟨format, named⟩)
    have left : after.endpoints[ref]? = some (held.discard chunk.length) := by
      simp [after, Net.updateEndpoint, opened]
    obtain ⟨last, ends, log⟩ := @ih after (overwrite dataBuf chunk) (held.discard chunk.length) at_ left
      (by simp [Endpoint.discard, unread]) fun chunk member => plain chunk (List.mem_cons_of_mem _ member)
    refine ⟨last, ?_, ?_⟩
    · rw [drain]
      refine .again (.op load (.op receive ?_)) ends
      rw [Code.pure_bind, rcvAnswered, if_neg named, throwOsErr, silent]
      exact .yield .refl (.yield .refl (.pure _ _))
    · rw [log]
      simp [after, deliveries, endpoint, Net.updateEndpoint]

/-- Whatever was counted and whatever the chunks are, the handler can be given them. -/
theorem handle_exists {net : Net} {socket : Socket} {ref : EndpointRef} {held : Endpoint} {chunks : List Bytes}
    {more : Bytes}
    {given : Option EndpointRef} {code : OTEventCode} (at_ : net.heap[s]? = some socket) (up : socket.recvHalt = true)
    (endpoint : socket.endpoint = some ref) (opened : net.endpoints[ref]? = some held)
    (unread : held.unread = chunks.flatten ++ more) (plain : ∀ chunk ∈ chunks, Plain dataSize chunk)
    (event : code = .tData ∨ code = .tExData) : ∃ last, Ends thread (handle s given code) net (.value ()) last ∧
      counted (net.recorded thread last) = [dataSize] ∧ delivered (net.recorded thread last) = chunks ++ [[]] := by
  let counts := net.record (.openTransport thread (.status .countDataBytes socket.endpoint dataSize))
  let tested := counts.record (.readRecvHalt thread s)
  have load : kernel.exec thread (.load s) .none net = some (socket, net) := by simp [exec, at_]
  have count : kernel.exec thread (.openTransport .countDataBytes socket.endpoint) (.status dataSize) net =
      some ((dataSize : Int), counts) := rfl
  have test : kernel.exec thread (.recvHalt s) .none counts = some (true, tested) := by
    simp [exec, counts, at_, up, tested]
  obtain ⟨last, ends, log⟩ := @drain_exists thread s dataSize tested socket (List.replicate dataSize 0) ref held chunks
    more
    at_ endpoint opened unread plain
  have recorded : net.recorded thread last = [.openTransport thread (.status .countDataBytes socket.endpoint dataSize),
      .readRecvHalt thread s] ++ deliveries thread ref dataSize chunks := by
    have log : last.log = net.log ++ ([.openTransport thread (.status .countDataBytes socket.endpoint dataSize),
        .readRecvHalt thread s] ++ deliveries thread ref dataSize chunks) := by
      rw [log]
      simp [tested, counts]
    rw [Net.recorded, log, List.drop_left, List.filter_eq_self]
    intro event member
    simp only [deliveries, List.mem_append, List.mem_cons, List.mem_map, List.not_mem_nil, or_false] at member
    rcases member with (rfl | rfl) | ⟨chunk, _, rfl⟩ | rfl <;> exact decide_eq_true rfl
  refine ⟨last, ?_, ?_, ?_⟩
  · have run : Ends thread (receiveData s) net (.value ()) last := by
      refine .op load (.op count (.yield .refl (.op test ?_)))
      exact ends
    rcases event with rfl | rfl <;> exact run
  · rw [recorded, counted_append, counted_deliveries]
    rfl
  · rw [recorded, delivered_append, delivered_deliveries]
    rfl

end deliver

def arriving : Net where
  mainThreadId := 0
  heap := [{ recvHalt := true, endpoint := some 0 }]
  endpoints := [{ arrived := [1, 2], unread := [1, 2] }]

/-- One chunk of both bytes is kept. -/
theorem drain_appends_whole :
    ∃ last, Ends 1 (handle 0 none .tData) arriving (.value ()) last ∧ Grew 1 0 arriving last := by
  obtain ⟨last, ends, count, chunks⟩ : ∃ last, Ends 1 (handle 0 none .tData) arriving (.value ()) last ∧
      counted (arriving.recorded 1 last) = [2] ∧ delivered (arriving.recorded 1 last) = [[1, 2]] ++ [[]] :=
    @handle_exists 1 0 2 arriving _ 0 _ [[1, 2]] [] none .tData rfl rfl rfl rfl rfl (by simp [Plain]; decide)
      (Or.inl rfl)
  obtain ⟨dataSize, again, grew⟩ := drain_appends rfl rfl (Or.inl rfl) ends
  rw [count, List.cons.injEq] at again
  obtain ⟨rfl, _⟩ := again
  refine ⟨last, ends, grew.mpr ?_⟩
  rw [chunks]
  unfold Coincides
  decide

/-- Two chunks of one byte each are not: the second one is written over the first one. -/
theorem drain_overwrites : ∃ last, Ends 1 (handle 0 none .tData) arriving (.value ()) last ∧
    delivered (arriving.recorded 1 last) = [[1], [2], []] ∧ ¬ Grew 1 0 arriving last := by
  obtain ⟨last, ends, count, chunks⟩ : ∃ last, Ends 1 (handle 0 none .tData) arriving (.value ()) last ∧
      counted (arriving.recorded 1 last) = [2] ∧ delivered (arriving.recorded 1 last) = [[1], [2]] ++ [[]] :=
    @handle_exists 1 0 2 arriving _ 0 _ [[1], [2]] [] none .tData rfl rfl rfl rfl rfl (by simp [Plain]; decide)
      (Or.inl rfl)
  obtain ⟨dataSize, again, grew⟩ := handle_value rfl rfl (Or.inl rfl) ends
  rw [count, List.cons.injEq] at again
  obtain ⟨rfl, _⟩ := again
  refine ⟨last, ends, chunks, fun grown => ?_⟩
  have coincides := grew.mp grown
  rw [chunks] at coincides
  unfold Coincides at coincides
  revert coincides
  decide

end PowerBoot.PowerNet
