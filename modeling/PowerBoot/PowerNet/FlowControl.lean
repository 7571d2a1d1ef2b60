import PowerBoot.PowerNet.Send
import PowerBoot.PowerNet.Waiting

/-! Flow control. No event lowers the flag on which a refused `send` waits. Another
sender does, and then the refused `send` returns 0 without having offered its
buffer again. -/

namespace PowerBoot.PowerNet
open Coop Code

/-- A `send` that is refused returns after T_GODATA for its endpoint and only once
some of its buffer was accepted. -/
def WaitsForRoom (log : List Event) : Prop :=
  ∀ past rest thread ref fd buf flags value before after, log = past ++ .returned thread value :: rest →
    callOf thread past = some (.send fd buf flags) → buf ≠ [] →
    during thread past = before ++ .openTransport thread (.snd (some ref) buf kOTFlowErr) :: after →
    (∃ actor ptr res, .called actor (.notifier ref ptr .tGoData res) ∈ after) ∧
      (since thread past).flatMap (Event.sent ref) ≠ [] ∧ value ≠ .int 0

theorem send_returns_unsent :
    (Choices.all kernel).Reaches (initial 0 2) twoSenders ∧ ¬ WaitsForRoom twoSenders.state.log := by
  refine ⟨.after, fun waits => ?_⟩
  exact (waits (twoSenders.state.log.take 16) [] 1 0 0 [1, 2, 3] 0 (.int 0) [.lookedUp 1 0 (some 0)]
    ((twoSenders.state.log.take 16).drop 11) rfl rfl nofun rfl).2.2 rfl

/-- No event changes the flag of a sender. -/
private theorem notifier_keeps_sendHalt (thread : ThreadId) (p : Ptr) :
    KeptBy (K := kernel) (fun net => net.heap[p]?.map Socket.sendHalt = some true) thread notifierOps
      connectEntries where
  op {o input net reply after} used executed holds := by
    have heap : after.heap = o.heap net.heap := (exec_does executed).heap
    rw [heap]
    cases o with
    | assign socket member =>
      have same (s : Socket) : (member.apply s).sendHalt = s.sendHalt := by
        cases member <;> first | exact False.elim used | rfl
      obtain ⟨s, found, halted⟩ := Option.map_eq_some_iff.mp holds
      simp only [Op.heap, List.getElem?_modify, found]
      split
      · exact congrArg some ((same s).trans halted)
      · exact congrArg some halted
    | newSocket => exact False.elim used
    | _ => exact holds
  spawned _ holds := holds
  disposed holds := holds
  returned holds := holds
  threw holds := holds
  exited holds := holds

/-- What is left of the call once a refused `send` has yielded. -/
private def blocked (s : Ptr) : Shim Value := do return .int (← sndBlocked s)

section alone
variable {thread : ThreadId} {net : Net} {fd : Int} {buf : Bytes} {flags : Int} {p : Ptr} {ref : EndpointRef}
  {socket : Socket}

private theorem send_offers (listed : net.lookup (key fd) = some p) (at_ : net.heap[p]? = some socket)
    (opened : socket.endpoint = some ref) (some_ : buf ≠ []) {ret : Int} (failed : ret < 0) :
    ∃ last, RunsTo thread (send fd buf flags) net (sndAnswered p ret) last ∧
      last.openSockets = net.openSockets ∧ last.heap[p]? = some { socket with sendHalt := true } ∧
      last.log = net.log ++ [.lookedUp thread (key fd) (some p), .openTransport thread (.snd (some ref) buf ret)] := by
  let looked := net.record (.lookedUp thread (key fd) (some p))
  let raised : Net := { looked with heap := net.heap.modify p (Assign.sendHalt true).apply }
  let offered := raised.record (.openTransport thread (.snd (some ref) buf ret))
  have now : raised.heap[p]? = some { socket with sendHalt := true } := by simp [raised, at_, Assign.apply]
  have lookup : kernel.exec thread (.lookup (key fd)) .none net = some
    (some p, looked) := by simp [exec, listed, looked]
  have raise : kernel.exec thread (.assign p (.sendHalt true)) .none looked = some ((), raised) := by
    simp [exec, looked, at_, raised]
  have load : kernel.exec thread (.load p) .none raised = some ({ socket with sendHalt := true }, raised) := by
    simp [exec, now]
  have offer : kernel.exec thread (.otSnd socket.endpoint buf) (.status ret) raised = some (ret, offered) := by
    simp [exec, otSnd, opened, offered, failed]
  refine ⟨offered, ?_, rfl, now, by simp [offered, raised, looked]⟩
  refine Runs.andThen (.op lookup (.here (.pure p) _)) (.yield ?_)
  rw [Code.pure_bind]
  simp only [List.length_eq_zero_iff, some_, if_false]
  exact .op raise (.op load (.op offer (.here _ _)))

private theorem send_refused (listed : net.lookup (key fd) = some p) (at_ : net.heap[p]? = some socket)
    (opened : socket.endpoint = some ref) (some_ : buf ≠ []) :
    ∃ last, RunsTo thread (body (.send fd buf flags)) net (.yield (blocked p)) last ∧
      last.openSockets = net.openSockets ∧ last.heap[p]? = some { socket with sendHalt := true } ∧
      last.log = net.log ++ [.lookedUp thread (key fd) (some p),
        .openTransport thread (.snd (some ref) buf kOTFlowErr)] := by
  obtain ⟨last, runs, same⟩ := @send_offers thread net fd buf flags p ref socket listed at_ opened some_ kOTFlowErr
    (by decide)
  exact ⟨last, runs.bind, same⟩

private theorem send_fails (listed : net.lookup (key fd) = some p) (at_ : net.heap[p]? = some socket)
    (opened : socket.endpoint = some ref) (some_ : buf ≠ []) {err : Int} (failed : err < 0) (other : err ≠ kOTFlowErr) :
    ∃ last, RunsTo thread (body (.send fd buf flags)) net (.pure (.int err)) last ∧
      last.heap[p]? = some { socket with sendHalt := false } ∧
      last.log = net.log ++ [.lookedUp thread (key fd) (some p), .openTransport thread (.snd (some ref) buf err)] := by
  obtain ⟨offered, runs, _, now, log⟩ := @send_offers thread net fd buf flags p ref socket listed at_ opened some_ err
    failed
  let lowered : Net := { offered with heap := offered.heap.modify p (Assign.sendHalt false).apply }
  have lower : kernel.exec thread (.assign p (.sendHalt false)) .none offered = some ((), lowered) := by
    simp [exec, lowered, now]
  have rest : RunsTo thread (sndAnswered p err) offered (.pure err) lowered := by
    rw [sndAnswered, if_pos other]
    exact .op lower (.here _ _)
  exact ⟨lowered, (runs.trans rest).bind, by simp [lowered, now, Assign.apply], log⟩

private theorem blocked_returns (at_ : net.heap[p]? = some socket) (down : socket.sendHalt = false)
    (empty : socket.sendBuf = []) :
    ∃ last, RunsTo thread (blocked p) net (.pure (.int 0)) last ∧
      last.log = net.log ++ [.readSendHalt thread p] := by
  let read := net.record (.readSendHalt thread p)
  let last : Net := { read with heap := read.heap.modify p Assign.clearSendBuf.apply }
  have flag : kernel.exec thread (.sendHalt p) .none net = some (false, read) := by simp [exec, at_, down, read]
  have load : kernel.exec thread (.load p) .none read = some (socket, read) := by simp [exec, read, at_]
  have clear : kernel.exec thread (.assign p .clearSendBuf) .none read = some ((), last) := by
    simp [exec, read, at_, last]
  refine ⟨last, ?_, by simp [last, read]⟩
  have run : RunsTo thread (blocked p) net (.pure (.int (flatten socket.sendBuf).length)) last :=
    .loop (.op flag (.op load (.op clear (.yield (.here _ _)))))
  rw [empty] at run
  exact run

end alone

/-- A `send` is refused, another one on its socket fails, and the first returns 0. -/
private theorem released_unsent {world : World kernel} {fd : Int} {p : Ptr} {ref : EndpointRef} {buf : Bytes}
    {flags : Int} (outside : world.current = none) (calm : ∀ s ∈ world.state.heap, s.sendBuf = [])
    (listed : world.state.lookup (key fd) = some p) (opened : world.state.endpointAt p = some ref) (some_ : buf ≠ []) :
    ∃ first second later, first ≠ second ∧ (Choices.all kernel).Reaches world later ∧ later.current = none ∧
      later.state.log = world.state.log ++ [.called first (.send fd buf flags), .lookedUp first (key fd) (some p),
        .openTransport first (.snd (some ref) buf kOTFlowErr), .called second (.send fd buf flags),
        .lookedUp second (key fd) (some p), .openTransport second (.snd (some ref) buf kOTLookErr),
        .returned second (.int kOTLookErr), .readSendHalt first p, .returned first (.int 0)] := by
  obtain ⟨socket, at_, endpoint⟩ := Option.bind_eq_some_iff.mp opened
  have empty := calm socket (List.mem_of_getElem? at_)
  let first := world.threads.length
  let begun := world.state.record (.called first (.send fd buf flags))
  obtain ⟨refused, runs, same, raised, log⟩ := @send_refused first begun fd buf flags p ref socket listed at_ endpoint
    some_
  let waiting : World kernel := ⟨refused, world.threads ++ [.running (blocked p)], none⟩
  have waits : (Choices.all kernel).Reaches world waiting :=
    Runs.called outside (show kernel.called _ (.send fd buf flags) world.state = some begun from rfl) runs
  let second := waiting.threads.length
  let again := refused.record (.called second (.send fd buf flags))
  obtain ⟨failed, runs', lowered, log'⟩ := @send_fails second again fd buf flags p ref { socket with sendHalt := true }
    ((congrArg (List.lookup (key fd)) same).trans listed) raised endpoint some_ kOTLookErr (by decide) (by decide)
  let released : World kernel :=
    ⟨failed.record (.returned second (.int kOTLookErr)), waiting.threads ++ [.idle], none⟩
  have fails : (Choices.all kernel).Reaches waiting released :=
    Alone.called rfl (show kernel.called _ (.send fd buf flags) waiting.state = some again from rfl) runs'
  obtain ⟨last, rest, log''⟩ := @blocked_returns first released.state p _ lowered rfl empty
  have returns := @Runs.returns _ kernel first _ (blocked p) (.int 0) last released rest
    (by simp [released, waiting, first]) rfl
  refine ⟨first, second, _, ?_, waits.trans _ (fails.trans _ returns), rfl, ?_⟩
  · simp [second, waiting, first]
  · simp [log'', released, log', again, log, begun]

/-- In every state, T_GODATA leaves the flag of a waiting sender up, and a refused
`send` returns 0 with nothing of its buffer accepted. -/
theorem refused_send_never_resends {mainThreadId count : Nat} {world : World kernel}
    (reached : (Choices.all kernel).Reaches (initial mainThreadId count) world) (outside : world.current = none) :
    (∀ thread ref p begun sections later, world.state.heap[p]?.map Socket.sendHalt = some true →
      world.step (.call thread (Entry.notifier ref p .tGoData noErr)) = some begun →
      begun.run (World.alone thread sections) = some later → later.state.heap[p]?.map Socket.sendHalt = some true) ∧
    (∀ past rest thread fd buf flags value endpoint, world.state.log = past ++ .returned thread value :: rest →
      callOf thread past = some (.send fd buf flags) →
      .openTransport thread (.snd endpoint buf kOTFlowErr) ∈ since thread past →
      value = .int 0 ∧ ∀ ref, (since thread past).flatMap (Event.sent ref) = []) ∧
    ∀ fd p ref (buf : Bytes), world.state.lookup (key fd) = some p → world.state.endpointAt p = some ref → buf ≠ [] →
      ∃ later : World kernel, (Choices.all kernel).Reaches world later ∧ later.current = none ∧
        ¬ WaitsForRoom later.state.log := by
  have kept := sending_reaches reached outside
  refine ⟨?_, ?_, ?_⟩
  · intro thread ref p begun sections later halted delivered ran
    obtain ⟨admitted, free, found⟩ := World.step_call delivered
    have admitted : called thread (.notifier ref p .tGoData noErr) world.state = some begun.state := admitted
    have state := (called_does admitted).1
    refine (notifier_keeps_sendHalt thread p).alone free (fun code running => ?_) (by rw [state]; exact halted) ran
    cases found.symm.trans running
    exact body_uses (.notifier ref p .tGoData noErr)
  · intro past rest thread fd buf flags value endpoint split call refused
    obtain ⟨count, p, rfl, _, _, _, accepted, none⟩ :=
      (kept.ledger past _ rest thread split rfl rfl).2 fd buf flags value rfl call
    obtain rfl := none ⟨endpoint, refused⟩
    exact ⟨rfl, fun ref => (accepted ref).trans (by split <;> rfl)⟩
  · intro fd p ref buf listed opened some_
    obtain ⟨first, second, later, different, reaches, free, log⟩ :=
      @released_unsent world fd p ref buf 0 outside kept.calm listed opened some_
    refine ⟨later, reaches, free, fun waits => ?_⟩
    let start := world.state.log ++ [.called first (.send fd buf 0)]
    let between : List Event := [.lookedUp first (key fd) (some p),
      .openTransport first (.snd (some ref) buf kOTFlowErr), .called second (.send fd buf 0),
      .lookedUp second (key fd) (some p), .openTransport second (.snd (some ref) buf kOTLookErr),
      .returned second (.int kOTLookErr), .readSendHalt first p]
    have silent : ∀ event ∈ between, event.begins first = none := by
      simp [between, Event.begins, Ne.symm different]
    have call : callOf first (start ++ between) = some (.send fd buf 0) := by
      rw [callOf_append silent, callOf_concat]
      simp [Event.begins]
    have own : during first (start ++ between) = between := by
      rw [during_append silent, during_concat]
      simp [Event.begins]
    have split : later.state.log = (start ++ between) ++ [.returned first (.int 0)] := by
      simp [log, start, between]
    exact (waits _ [] first ref fd buf 0 _ [.lookedUp first (key fd) (some p)] _ split call some_ own).2.2 rfl

theorem refused_send_never_resends_two : ∃ later : World kernel,
    (Choices.all kernel).Reaches ((initial 0 1).after (opening 0)) later ∧ ¬ WaitsForRoom later.state.log := by
  obtain ⟨later, reaches, _, never⟩ :=
    (@refused_send_never_resends 0 1 ((initial 0 1).after (opening 0)) .after rfl).2.2 0 0 0 [1] rfl rfl nofun
  exact ⟨later, reaches, never⟩

end PowerBoot.PowerNet
