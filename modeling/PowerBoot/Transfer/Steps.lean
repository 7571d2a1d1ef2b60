import PowerBoot.Transfer.Footprint

/-! What the small functions of the client do when their thread runs alone. -/

namespace PowerBoot.Transfer
open Coop Code

/-- `thread` runs alone up to the end of `code`, or is stopped. A run that throws is no
outcome, nor is one that hangs, as either may do in the `select` of `wait`. -/
abbrev EndsIn (build : Build) (thread : ThreadId) {α : Type} (code : Program α) (client : Client) (result : Option α)
    (last : Client) : Prop :=
  Finishes (K := kernel build) thread code client result last

namespace Client
variable {this other : Ptr} {change : Sftp → Sftp} {event : Event} {client : Client}

@[simp] theorem record_sftp : (client.record event).sftp = client.sftp := rfl

@[simp] theorem record_log : (client.record event).log = client.log ++ [event] := rfl

@[simp] theorem record_readThreadId : (client.record event).readThreadId = client.readThreadId := rfl

@[simp] theorem update_log : (client.update this change).log = client.log := rfl

@[simp] theorem update_readThreadId : (client.update this change).readThreadId = client.readThreadId := rfl

@[simp] theorem update_same : (client.update this change).sftp this = change (client.sftp this) :=
  Function.update_self ..

theorem update_other (different : other ≠ this) : (client.update this change).sftp other = client.sftp other :=
  Function.update_of_ne different ..

@[simp] theorem record_session : (client.record event).session = client.session := rfl

@[simp] theorem record_rc : (client.record event).rc = client.rc := rfl

@[simp] theorem update_session : (client.update this change).session = client.session := rfl

@[simp] theorem update_rc : (client.update this change).rc = client.rc := rfl

section answered
variable {thread : ThreadId} {call : Call} {answer : Answer} {script : List Answer}

@[simp] theorem answered_sftp : (client.answered thread this call answer script).sftp = client.sftp := rfl

@[simp] theorem answered_rc : (client.answered thread this call answer script).rc = client.rc := rfl

@[simp] theorem answered_log : (client.answered thread this call answer script).log =
    client.log ++ [.library thread this call answer] := rfl

@[simp] theorem answered_session : (client.answered thread this call answer script).session this =
    { errno := answer.errno, script } := Function.update_self ..

end answered

def keepRc (owner : Owner) (value : Int) (client : Client) : Client :=
  { client with rc := Function.update client.rc owner value }

section keepRc
variable {owner another : Owner} {value : Int}

@[simp] theorem keepRc_sftp : (client.keepRc owner value).sftp = client.sftp := rfl

@[simp] theorem keepRc_session : (client.keepRc owner value).session = client.session := rfl

@[simp] theorem keepRc_log : (client.keepRc owner value).log = client.log := rfl

@[simp] theorem keepRc_readThreadId : (client.keepRc owner value).readThreadId = client.readThreadId := rfl

@[simp] theorem keepRc_same : (client.keepRc owner value).rc owner = value := Function.update_self ..

end keepRc
end Client

variable {build : Build} {thread : ThreadId} {this : Ptr} {client last : Client} {α : Type}

theorem exec_library {call : Call} {input : Input} {result : call.function.Result} {after : Client} :
    exec thread (.library this call) input client = some (result, after) ↔
      ∃ answer script, client.answer this call.function input = some (answer, script) ∧
        answer.for call.function = some result ∧ after = client.answered thread this call answer script := by
  simp only [exec, Option.bind_eq_bind, Option.bind_eq_some_iff, Option.pure_def, Option.some.injEq, Prod.exists,
    Prod.mk.injEq]
  constructor
  · rintro ⟨answer, script, answered, found, given, rfl, rfl⟩
    exact ⟨answer, script, answered, given, rfl⟩
  · rintro ⟨answer, script, answered, given, rfl⟩
    exact ⟨answer, script, answered, result, given, rfl, rfl⟩

def Op.Steady : Op → Prop
  | .newThread | .assign .. | .setRc .. | .library .. | .waited _ | .report .. | .noMessage => False
  | _ => True

theorem exec_newThread {input : Input} {err : Int} {after : Client}
    (executed : exec thread .newThread input client = some (err, after)) :
    err ≤ 0 ∧ input = .status err ∧ after = { client with readThreadId := none } := by
  cases input with
  | status status =>
    simp only [exec, Option.ite_none_right_eq_some, Option.some.injEq, Prod.mk.injEq] at executed
    obtain ⟨negative, rfl, rfl⟩ := executed
    exact ⟨negative, rfl, rfl⟩
  | _ => cases executed

theorem exec_steady {o : Op} {input : Input} {reply : o.Reply} {after : Client}
    (executed : exec thread o input client = some (reply, after)) (steady : o.Steady) : after = client := by
  cases o with
  | memory =>
    cases input with
    | memory bytes =>
      simp only [exec, Option.ite_none_right_eq_some, Option.some.injEq, Prod.mk.injEq] at executed
      exact executed.2.2.symm
    | _ => cases executed
  | dir | select =>
    cases input <;> cases executed
    rfl
  | mainThreadId | readThreadId | member | rc | sessionLastErrno =>
    cases executed
    rfl
  | _ => exact steady.elim

def Op.Logs (thread : ThreadId) (o : Op) (reply : o.Reply) (events : List Event) : Prop :=
  match o, reply with
  | .library this call, result => ∃ answer : Answer, answer.for call.function = some result ∧
    events = [.library thread this call answer]
  | .waited this, _ => events = [.waited thread this]
  | .report format arguments, _ => events = [.reported thread format arguments]
  | .noMessage, _ => events = [.noMessage thread]
  | _, _ => events = []

theorem exec_log {o : Op} {input : Input} {reply : o.Reply} {after : Client}
    (executed : exec thread o input client = some (reply, after)) :
    ∃ events, after.log = client.log ++ events ∧ o.Logs thread reply events := by
  cases o with
  | library this call =>
    obtain ⟨answer, script, _, given, rfl⟩ := exec_library.mp executed
    exact ⟨_, rfl, answer, given, rfl⟩
  | waited | report | noMessage =>
    cases executed
    exact ⟨_, rfl, rfl⟩
  | newThread =>
    obtain ⟨_, _, rfl⟩ := exec_newThread executed
    exact ⟨[], (List.append_nil _).symm, rfl⟩
  | assign | setRc =>
    cases executed
    exact ⟨[], (List.append_nil _).symm, rfl⟩
  | _ =>
    obtain rfl := exec_steady executed trivial
    exact ⟨[], (List.append_nil _).symm, rfl⟩

theorem log_grows {code rest : Program α} {state later : (kernel build).State}
    (runs : Runs thread code state rest later) : ∃ more, later.log = state.log ++ more := by
  induction runs with
  | here => exact ⟨[], (List.append_nil _).symm⟩
  | op executed _ ih =>
    obtain ⟨events, now, _⟩ := exec_log executed
    obtain ⟨more, later⟩ := ih
    exact ⟨events ++ more, by rw [later, now, List.append_assoc]⟩
  | «yield» _ ih => exact ih
  | loop _ ih => exact ih

theorem ends_grows {code : Program α} {result : Option α}
    (ends : EndsIn build thread code client result last) :
    ∃ more, last.log = client.log ++ more := by
  obtain ⟨_, runs, _⟩ := ends
  exact log_grows runs

theorem pure_ends {value : α} {result : Option α} :
    EndsIn build thread (.pure value) client result last ↔ result = some value ∧ last = client :=
  Finishes.pure_iff

theorem iterate_ends {β γ : Type} {body : β → Program (β ⊕ γ)} {turn : β} {result : Option γ} :
    EndsIn build thread (iterate body turn) client result last ↔
      EndsIn build thread ((body turn).bind (.turn body .pure)) client result last :=
  Finishes.loop_iff

theorem iterate_then {β γ : Type} {body : β → Program (β ⊕ γ)} {turn : β} {rest : γ → Program α} {result : Option α} :
    EndsIn build thread ((iterate body turn).bind rest) client result last ↔
      EndsIn build thread ((body turn).bind (.turn body rest)) client result last :=
  Finishes.loop_iff

theorem repeatWhile_then {condition : Program Bool} {body : Program Unit} {rest : Unit → Program α}
    {result : Option α} :
    EndsIn build thread ((repeatWhile condition body).bind rest) client result last ↔
      EndsIn build thread (condition.bind fun holds =>
        if holds then body.bind fun _ => (repeatWhile condition body).bind rest else rest ()) client result last := by
  rw [repeatWhile, iterate_then, bind_eq, bind_assoc]
  refine iff_of_eq (congrArg (fun next => EndsIn build thread (condition.bind next) client result last)
    (funext fun holds => ?_))
  cases holds with
  | true => exact bind_assoc ..
  | false => rfl

theorem yieldToAnyThread_then {rest : Unit → Program α} {result : Option α} :
    EndsIn build thread ((yieldToAnyThread build).bind rest) client result last ↔
      EndsIn build thread (rest ()) client result last := by
  cases build
  · exact Finishes.yield_iff
  · rfl

theorem perform_then {o : Op} {rest : o.Reply → Program α} {result : Option α} :
    EndsIn build thread ((perform o).bind rest) client result last ↔ ∃ input reply after,
      exec thread o input client = some (reply, after) ∧ EndsIn build thread (rest reply) after result last :=
  Finishes.op_iff

theorem read_then {o : Op} {rest : o.Reply → Program α} {result : Option α} (given : o.Reply → Prop)
    (reads : ∀ input reply after, exec thread o input client = some (reply, after) → given reply ∧ after = client)
    (answers : ∀ reply, given reply → ∃ input, exec thread o input client = some (reply, client)) :
    EndsIn build thread ((perform o).bind rest) client result last ↔
      ∃ reply, given reply ∧ EndsIn build thread (rest reply) client result last := by
  rw [perform_then]
  constructor
  · rintro ⟨input, reply, after, executed, finishes⟩
    obtain ⟨bounded, rfl⟩ := reads input reply after executed
    exact ⟨reply, bounded, finishes⟩
  · rintro ⟨reply, bounded, finishes⟩
    obtain ⟨input, executed⟩ := answers reply bounded
    exact ⟨input, reply, client, executed, finishes⟩

theorem sure_then {o : Op} {rest : o.Reply → Program α} {result : Option α} {reply : o.Reply} {after : Client}
    (sure : ∀ input, exec thread o input client = some (reply, after)) :
    EndsIn build thread ((perform o).bind rest) client result last ↔
      EndsIn build thread (rest reply) after result last := by
  rw [perform_then]
  constructor
  · rintro ⟨input, _, _, executed, finishes⟩
    cases (sure input).symm.trans executed
    exact finishes
  · exact fun finishes => ⟨.none, reply, after, sure _, finishes⟩

theorem member_then {rest : (Op.member this).Reply → Program α} {result : Option α} :
    EndsIn build thread ((perform (.member this)).bind rest) client result last ↔
      EndsIn build thread (rest (client.sftp this)) client result last := sure_then fun _ => rfl

theorem assign_then {member : Assign} {rest : (Op.assign this member).Reply → Program α} {result : Option α} :
    EndsIn build thread ((perform (.assign this member)).bind rest) client result last ↔
      EndsIn build thread (rest ()) (client.update this member.apply) result last := sure_then fun _ => rfl

theorem rc_then {owner : Owner} {rest : (Op.rc owner).Reply → Program α} {result : Option α} :
    EndsIn build thread ((perform (.rc owner)).bind rest) client result last ↔
      EndsIn build thread (rest (client.rc owner)) client result last := sure_then fun _ => rfl

theorem setRc_then {owner : Owner} {value : Int} {rest : (Op.setRc owner value).Reply → Program α}
    {result : Option α} : EndsIn build thread ((perform (.setRc owner value)).bind rest) client result last ↔
      EndsIn build thread (rest ()) (client.keepRc owner value) result last := sure_then fun _ => rfl

theorem sessionLastErrno_then {rest : (Op.sessionLastErrno this).Reply → Program α} {result : Option α} :
    EndsIn build thread ((perform (.sessionLastErrno this)).bind rest) client result last ↔
      EndsIn build thread (rest (client.session this).errno) client result last := sure_then fun _ => rfl

theorem waited_then {rest : (Op.waited this).Reply → Program α} {result : Option α} :
    EndsIn build thread ((perform (.waited this)).bind rest) client result last ↔
      EndsIn build thread (rest ()) (client.record (.waited thread this)) result last := sure_then fun _ => rfl

theorem report_then {format : String} {arguments : List String}
    {rest : (Op.report format arguments).Reply → Program α} {result : Option α} :
    EndsIn build thread ((perform (.report format arguments)).bind rest) client result last ↔
      EndsIn build thread (rest ()) (client.record (.reported thread format arguments)) result last :=
  sure_then fun _ => rfl

theorem noMessage_then {rest : Op.noMessage.Reply → Program α} {result : Option α} :
    EndsIn build thread ((perform .noMessage).bind rest) client result last ↔
      EndsIn build thread (rest ()) (client.record (.noMessage thread)) result last := sure_then fun _ => rfl

theorem dir_then {rest : Op.dir.Reply → Program α} {result : Option α} :
    EndsIn build thread ((perform .dir).bind rest) client result last ↔
      ∃ dir, EndsIn build thread (rest dir) client result last := by
  rw [read_then (fun _ => True)]
  · simp
  · intro input reply after executed
    cases input <;> cases executed
    exact ⟨trivial, rfl⟩
  · exact fun dir _ => ⟨.dir dir, rfl⟩

theorem memory_then {length : Nat} {rest : (Op.memory length).Reply → Program α} {result : Option α} :
    EndsIn build thread ((perform (.memory length)).bind rest) client result last ↔
      ∃ bytes : Bytes, bytes.length = length ∧ EndsIn build thread (rest bytes) client result last := by
  rw [read_then (fun bytes : Bytes => bytes.length = length)]
  · intro input reply after executed
    cases input with
    | memory bytes =>
      simp only [exec] at executed
      split at executed
      next same =>
        cases executed
        exact ⟨same, rfl⟩
      · cases executed
    | _ => cases executed
  · exact fun bytes same => ⟨.memory bytes, if_pos same⟩

theorem select_then {nfds : Int} {readfds writefds : Option Int} 
    {rest : (Op.select nfds readfds writefds).Reply → Program α} {result : Option α} :
    EndsIn build thread ((perform (.select nfds readfds writefds)).bind rest) client result last ↔
      ∃ next, EndsIn build thread (rest next) client result last := by
  rw [read_then (fun _ => True)]
  · simp
  · intro input reply after executed
    cases input <;> cases executed
    exact ⟨trivial, rfl⟩
  · exact fun next _ => ⟨.select next, rfl⟩

theorem library_then {call : Call} {rest : call.function.Result → Program α} {result : Option α} :
    EndsIn build thread ((library this call).bind rest) client result last ↔
      ∃ input answer script value, client.answer this call.function input = some (answer, script) ∧
        answer.for call.function = some value ∧
        EndsIn build thread (rest value) (client.answered thread this call answer script) result last := by
  rw [library, perform_then]
  constructor
  · rintro ⟨input, value, after, executed, finishes⟩
    obtain ⟨answer, script, answered, given, rfl⟩ := exec_library.mp executed
    exact ⟨input, answer, script, value, answered, given, finishes⟩
  · rintro ⟨input, answer, script, value, answered, given, finishes⟩
    exact ⟨input, value, _, exec_library.mpr ⟨answer, script, answered, given, rfl⟩, finishes⟩

/-- Going to the network is one call where a thread runs alone. -/
theorem network_then {call : Call} {rest : call.function.Result → Program α} {result : Option α} :
    EndsIn build thread ((network build this call).bind rest) client result last ↔
      EndsIn build thread ((library this call).bind rest) client result last := by
  simp only [network, bind_eq, bind_assoc, yieldToAnyThread_then]
  rw [library_then, library_then]
  simp only [yieldToAnyThread_then, pure_eq, pure_bind]

theorem library_scripted {call : Call} {rest : call.function.Result → Program α} {result : Option α}
    {value : call.function.Result} {errno : Int} {script : List Answer}
    (scripted : nextAnswer call.function (client.session this).script = some (⟨call.function, value, errno⟩, script)) :
    EndsIn build thread ((library this call).bind rest) client result last ↔
      EndsIn build thread (rest value) (client.answered thread this call ⟨call.function, value, errno⟩ script)
        result last := by
  rw [library_then]
  simp only [Client.answer, scripted, Option.some.injEq, Prod.mk.injEq]
  constructor
  · rintro ⟨_, answer, left, found, ⟨rfl, rfl⟩, given, finishes⟩
    cases Answer.for_iff.mp given
    exact finishes
  · exact fun finishes => ⟨.none, _, _, value, ⟨rfl, rfl⟩, Answer.for_iff.mpr rfl, finishes⟩

theorem sftpPointer_then {rest : Option Ptr → Program α} {result : Option α} :
    EndsIn build thread ((sftpPointer this).bind rest) client result last ↔
      EndsIn build thread (rest (client.sftp this).sftpPointer) client result last := by
  rw [sftpPointer, bind_eq, bind_assoc, member_then]
  rfl

theorem message_then {err : Int} {rest : String → Program α} {result : Option α} (named : err ≠ 1) :
    EndsIn build thread ((message this err).bind rest) client result last ↔
      EndsIn build thread ((library this .sessionLastError).bind fun st => rest (st ++ " (" ++ toString err ++ ")"))
        client result last := by
  simp only [message, errorMsg, named, if_false, bind_eq, bind_assoc]
  rfl

theorem message_one_then {rest : String → Program α} {result : Option α} :
    EndsIn build thread ((message this 1).bind rest) client result last ↔
      EndsIn build thread (rest "") (client.record (.noMessage thread)) result last := by
  simp only [message, errorMsg, if_true, bind_eq, pure_eq, pure_bind, bind_assoc]
  exact noMessage_then

/-- An error on the main thread is its end. -/
theorem errorThrow_then {format : String} {arguments : List String} {rest : Unit → Program α} {result : Option α}
    (main : build = .retro → client.mainThreadId = thread) :
    EndsIn build thread ((errorThrow build format arguments).bind rest) client result last ↔
      result = none ∧ last = client.record (.reported thread format arguments) := by
  simp only [errorThrow, printf, bind_eq, bind_assoc]
  rw [report_then, yieldToAnyThread_then]
  cases build with
  | retro =>
    simp only [leave, bind_eq, bind_assoc, stop_bind]
    rw [sure_then fun _ => rfl]
    exact Finishes.dispose_iff.trans (by simp [Client.record, main rfl])
  | direct => exact Finishes.exit_iff

theorem errorThrow_never {α : Type} {format : String} {arguments : List String} {rest : Unit → Program α} {value : α} :
    ¬ EndsIn build thread ((errorThrow build format arguments).bind rest) client (some value) last := by
  simp only [errorThrow, printf, bind_eq, bind_assoc]
  rw [report_then, yieldToAnyThread_then]
  cases build with
  | retro =>
    simp only [leave, bind_eq, bind_assoc, stop_bind]
    rw [sure_then fun _ => rfl]
    exact fun ends => by cases (Finishes.dispose_iff.mp ends).1
  | direct => exact fun ends => by cases (Finishes.exit_iff.mp ends).1

/-- An error on the read thread is its end, where it is the one that is named. Where none is
named the code goes on. -/
theorem readErrorThrow_iff {format : String} {arguments : List String} {rest : Unit → Program α}
    {result : Option α} :
    EndsIn build thread ((readErrorThrow build format arguments).bind rest) client result last ↔
      if build = .retro ∧ client.readThreadId = none then
        EndsIn build thread (rest ()) (client.record (.reported thread format arguments)) result last
      else (build = .retro → client.readThreadId = some thread) ∧ result = none ∧
        last = client.record (.reported thread format arguments) := by
  simp only [readErrorThrow, printf, bind_eq, bind_assoc]
  rw [report_then, yieldToAnyThread_then]
  cases build with
  | retro =>
    simp only [leave, bind_eq, bind_assoc]
    rw [sure_then fun _ => rfl, Client.record_readThreadId]
    cases named : client.readThreadId with
    | none => exact @yieldToAnyThread_then .retro ..
    | some name =>
      rw [if_neg (by simp)]
      exact Finishes.dispose_iff.trans (by simp; tauto)
  | direct => exact Finishes.exit_iff.trans (by simp)

theorem readErrorThrow_then {format : String} {arguments : List String} {rest : Unit → Program α}
    {result : Option α} (reader : build = .retro → client.readThreadId = some thread) :
    EndsIn build thread ((readErrorThrow build format arguments).bind rest) client result last ↔
      result = none ∧ last = client.record (.reported thread format arguments) := by
  have named : ¬ (build = .retro ∧ client.readThreadId = none) := by
    rintro ⟨retro, none⟩
    cases none.symm.trans (reader retro)
  rw [readErrorThrow_iff, if_neg named]
  exact and_iff_right reader

theorem select_turn {nfds : Int} {readfds writefds : Option Int} {outcome : Option (Unit ⊕ Int)} :
    EndsIn build thread (do
        match ← perform (.select nfds readfds writefds) with
        | .halts =>
          yieldToAnyThread build
          return .inl ()
        | .returns rc => return .inr rc
        | .throws => .throw) client outcome last ↔
      last = client ∧ (outcome = some (.inl ()) ∨ ∃ rc, outcome = some (.inr rc)) := by
  rw [bind_eq, select_then]
  constructor
  · rintro ⟨next, finishes⟩
    cases next with
    | halts =>
      simp only [bind_eq, yieldToAnyThread_then] at finishes
      obtain ⟨given, ends⟩ := Finishes.pure_iff.mp finishes
      exact ⟨ends, Or.inl given⟩
    | returns rc =>
      obtain ⟨given, ends⟩ := Finishes.pure_iff.mp finishes
      exact ⟨ends, Or.inr ⟨rc, given⟩⟩
    | throws => exact (Finishes.throw_iff.mp finishes).elim
  · rintro ⟨rfl, rfl | ⟨rc, rfl⟩⟩
    · refine ⟨.halts, ?_⟩
      simp only [bind_eq, yieldToAnyThread_then]
      exact Finishes.pure_iff.mpr ⟨rfl, rfl⟩
    · exact ⟨.returns rc, Finishes.pure_iff.mpr ⟨rfl, rfl⟩⟩

/-- `select` returns, with any result, and changes nothing; or it never returns. -/
theorem select_iff {nfds : Int} {readfds writefds : Option Int} {result : Option Int} :
    EndsIn build thread (select build nfds readfds writefds) client result last ↔
      (∃ rc, result = some rc) ∧ last = client := by
  rw [select, EndsIn, Finishes.iterate_iff]
  constructor
  · rintro ⟨_, middle, turns, left⟩
    obtain ⟨rfl, ends⟩ := select_turn.mp left
    have same : last = client := by
      refine turns.keeps (· = client) (fun first same => ?_) rfl
      exact (select_turn.mp (Finishes.some_iff.mpr first)).1.trans same
    refine ⟨?_, same⟩
    cases result with
    | none => rcases ends with never | ⟨_, never⟩ <;> cases never
    | some rc => exact ⟨rc, rfl⟩
  · rintro ⟨⟨rc, rfl⟩, rfl⟩
    exact ⟨(), last, .refl _ _, select_turn.mpr ⟨rfl, Or.inr ⟨rc, rfl⟩⟩⟩

/-- Where its `select` returns, `wait` changes nothing. -/
theorem wait_then {rest : Program α} {result : Option α} :
    EndsIn build thread ((wait build this).bind fun _ => rest) client result last ↔
      EndsIn build thread rest (client.record (.waited thread this)) result last := by
  simp only [wait, bind_eq, bind_assoc]
  rw [waited_then, dir_then]
  constructor
  · rintro ⟨_, finishes⟩
    rw [member_then] at finishes
    rcases Finishes.bind_iff.mp finishes with ⟨_, _, runs, later⟩ | ⟨_, stopped⟩
    · obtain ⟨_, rfl⟩ := select_iff.mp (Finishes.some_iff.mpr runs)
      exact later
    · obtain ⟨⟨_, never⟩, _⟩ := select_iff.mp stopped
      cases never
  · intro finishes
    refine ⟨0, member_then.mpr (Finishes.bind_iff.mpr (Or.inl ⟨0, client.record (.waited thread this), ?_, finishes⟩))⟩
    exact Finishes.some_iff.mp (select_iff.mpr ⟨⟨0, rfl⟩, rfl⟩)

end PowerBoot.Transfer
