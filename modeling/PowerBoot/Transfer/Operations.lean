import PowerBoot.Coop.Allowance
import PowerBoot.Transfer.Footprint
import PowerBoot.Transfer.SetUp

/-! The functions of an object as wholes of their operations: what these keep, the functions
keep. No method of an object sets a connection up or assigns to a member. -/

namespace PowerBoot.Transfer
open Coop Code

section safe
variable {build : Build} {this : Ptr} {safe : ∀ {α : Type}, Program α → Prop}

/-- The calls that the methods make are safe, each of them on its own and in a loop. -/
structure Methods (build : Build) (this : Ptr) (safe : ∀ {α : Type}, Program α → Prop) :
    Prop extends Waits build this safe where
  calls : ∀ call : Call, call.function.setsUp = false → safe (library this call)
  rcErrHandle : ∀ {Memory : Type} {funcname : String} {rc : Owner} {cmd : Memory → Program (Int × Memory)}
    {memory : Memory},
    (∀ memory, safe (cmd memory)) → safe (rcErrHandle build funcname this rc cmd memory)
  openEx : ∀ {filename : Bytes} {flags mode openType : Int}, safe (openEx build this filename flags mode openType)

theorem Permits.methods (permits : Permits build this safe)
    (calls : ∀ call : Call, call.function.setsUp = false → safe (library this call)) : Methods build this safe where
  toWaits := permits.toWaits
  calls := calls
  rcErrHandle := permits.rcErrHandle
  openEx := permits.openEx fun _ => calls _ rfl

namespace Methods
variable (methods : Methods build this safe)
include methods

theorem called {call : Call} (aside : call.function.setsUp = false) : safe (network build this call) :=
  methods.network (methods.calls _ aside)

theorem handled {funcname : String} {rc : Owner} {cmd : Program Int} (part : safe cmd) :
    safe (handled build funcname this rc cmd) :=
  methods.rcErrHandle fun _ => methods.bind part fun _ => methods.pure _

theorem filled {Data : Type} {funcname : String} {rc : Owner} {cmd : Program (Filled Data)} {data : Data}
    (part : safe cmd) : safe (filled build funcname this rc cmd data) :=
  methods.rcErrHandle fun _ => methods.bind part fun _ => methods.pure _

theorem parts (operation : Operation) : ∃ (Result : Type) (part : Program Result) (value : Result → Value),
    operate build this operation = part.bind (fun result => .pure (value result)) ∧ safe part ∧
      ∀ result object, value result ≠ .connected object := by
  cases operation with
  | openfile | opendir => exact ⟨_, _, _, rfl, methods.openEx, nofun⟩
  | lstat | stat | statvfs => exact ⟨_, _, _, rfl, methods.filled (methods.pointed fun _ => methods.called rfl), nofun⟩
  | fileStat | fileStatvfs => exact ⟨_, _, _, rfl, methods.filled (methods.called rfl), nofun⟩
  | fileClose | fileSetstat | fileSync | dirClose => exact ⟨_, _, _, rfl, methods.handled (methods.called rfl), nofun⟩
  | fileWrite =>
    refine ⟨_, _, _, rfl, methods.handled ?_, nofun⟩
    exact methods.bind (methods.called rfl) fun _ => methods.pure _
  | fileRewind | fileSeek | fileTell => exact ⟨_, _, _, rfl, methods.calls _ rfl, nofun⟩
  | fileRead handle =>
    refine ⟨_, _, _, rfl, methods.bind (methods.filled (methods.called rfl)) fun attributes => ?_, nofun⟩
    refine methods.bind (methods.blind _ trivial) fun buffer => methods.bind ?_ fun _ => methods.pure _
    exact methods.rcErrHandle fun _ => methods.bind (methods.called rfl) fun _ => methods.pure _
  | dirNext handle =>
    refine ⟨_, _, _, rfl, methods.bind (methods.blind _ trivial) fun _ => ?_, nofun⟩
    refine methods.bind (methods.blind _ trivial) fun _ => methods.bind (methods.blind _ trivial) fun _ => ?_
    refine methods.bind (methods.rcErrHandle fun _ => ?_) fun buffers => methods.bind (methods.blind _ trivial)
      fun rc => ?_
    · exact methods.bind (methods.called rfl) fun _ => methods.pure _
    · split <;> exact methods.pure _
  | _ => exact ⟨_, _, _, rfl, methods.handled (methods.pointed fun _ => methods.called rfl), nofun⟩

theorem operate (operation : Operation) : safe (operate build this operation) := by
  obtain ⟨_, part, value, whole, safe, _⟩ := methods.parts operation
  rw [whole]
  exact methods.bind safe fun _ => methods.pure _

theorem destroy (member : safe (perform (.member this))) : safe (destroy build this) := by
  refine methods.bind member fun _ => methods.bind (methods.called rfl) fun _ => ?_
  refine methods.bind member fun _ => methods.bind (methods.called rfl) fun _ => ?_
  refine methods.bind member fun _ => methods.bind (methods.when fun _ => ?_) fun _ => ?_
  · refine methods.bind (methods.repeatWhile ?_ (methods.pure _)) fun _ => methods.bind (methods.calls _ rfl) fun _ =>
      methods.pure _
    exact methods.bind (methods.called rfl) fun _ => methods.pure _
  · refine methods.bind member fun sftp => methods.bind (methods.when fun _ => ?_) fun _ => methods.calls _ rfl
    refine methods.bind (methods.when fun _ => ?_) fun _ => methods.bind (methods.called rfl) fun _ => methods.pure _
    exact methods.bind (methods.called rfl) fun _ => methods.pure _

end Methods

/-- An assignment that leaves the state of the read thread alone. -/
def Assign.Silent (assigned : Assign) : Prop :=
  ∀ sftp, (assigned.apply sftp).readThreadState = sftp.readThreadState

/-- The operations of a set-up are safe, and its errors. -/
structure SettingUp (build : Build) (this : Ptr) (safe : ∀ {α : Type}, Program α → Prop) :
    Prop extends Waits build this safe where
  member : safe (perform (.member this))
  noMessage : safe (perform .noMessage)
  calls : ∀ call : Call, safe (library this call)
  assigns : ∀ assigned : Assign, assigned.Silent → safe (perform (.assign this assigned))
  readErrorThrow : ∀ format arguments, safe (readErrorThrow build format arguments)

namespace SettingUp
variable {options : ConnectionOptions} {rc : Int} (sets : SettingUp build this safe)
include sets

theorem called (call : Call) : safe (network build this call) := sets.network (sets.calls call)

theorem asked (err : Int) : safe (message this err) := sets.message (.inr sets.noMessage)

theorem handshake : safe (handshake build this) := by
  refine sets.iterate fun _ => sets.bind sets.member fun sftp => sets.bind (sets.called _) fun (rc : Int) => ?_
  split
  · exact sets.bind sets.yields fun _ => sets.pure _
  · exact sets.pure _

theorem listMethods : safe (listMethods build this options) := by
  refine sets.repeatWhile (sets.bind sets.member fun sftp => sets.pure _) ?_
  refine sets.bind (sets.called _) fun methods => sets.bind (sets.assigns _ fun _ => rfl) fun _ => ?_
  exact sets.bind sets.wait fun _ => sets.pure _

theorem attempt {call : Call} {accepts : call.function.Result → Prop} [DecidablePred accepts] :
    safe ((Transfer.network build this call).bind fun result =>
      if accepts result then .pure true else (Transfer.message this rc).bind fun _ => (printf build).bind fun _ =>
        .pure false) := by
  refine sets.bind (sets.called _) fun result => ?_
  split
  · exact sets.pure _
  · exact sets.bind (sets.asked _) fun _ => sets.bind sets.yields fun _ => sets.pure _

theorem tryPublickey : safe (tryPublickey build this options rc) := by
  refine sets.bind sets.member fun sftp => ?_
  split
  · exact sets.attempt
  · exact sets.pure _

theorem tryPassword : safe (tryPassword build this options rc) := by
  refine sets.bind sets.member fun sftp => ?_
  split
  · exact sets.attempt
  · exact sets.pure _

theorem authenticate : safe (authenticate build this options rc) := by
  refine sets.bind sets.member fun sftp => ?_
  split
  · refine sets.bind sets.yields fun _ => sets.bind sets.tryPublickey fun ok => ?_
    cases ok with
    | true => exact sets.yields
    | false =>
      refine sets.bind sets.tryPassword fun ok => ?_
      cases ok with
      | true => exact sets.yields
      | false => exact sets.bind (sets.readErrorThrow _ _) fun _ => sets.yields
  · exact sets.bind (sets.asked _) fun msg => sets.readErrorThrow _ _

theorem initSftp : safe (initSftp build this) := by
  refine sets.iterate fun _ => sets.bind (sets.called _) fun pointer => sets.bind (sets.assigns _ fun _ => rfl) fun _ =>
    ?_
  refine sets.bind (sets.when fun _ => ?_) fun _ => sets.bind sets.member fun sftp => ?_
  · refine sets.bind (sets.blind _ trivial) fun errno => ?_
    split
    · exact sets.bind sets.wait fun _ => sets.pure _
    · exact sets.bind (sets.asked _) fun msg => sets.readErrorThrow _ _
  · split <;> exact sets.pure _

/-- The state becomes Open with the last operation of a set-up. -/
theorem setUp {last : Program Unit → Prop}
    (after : ∀ {α : Type} {code : Program α} {rest : α → Program Unit}, safe code → (∀ value, last (rest value)) →
      last (code.bind rest))
    (opens : last (perform (.assign this (.readThreadState .open_)))) : last (setUp build this options) := by
  refine after (sets.called _) fun sock => after (sets.assigns _ fun _ => rfl) fun _ => ?_
  refine after (sets.when fun _ => sets.readErrorThrow _ _) fun _ => after (sets.calls _) fun hostaddr => ?_
  refine after sets.member fun sftp => after (sets.called _) fun failed => ?_
  refine after (sets.when fun _ => sets.readErrorThrow _ _) fun _ => after sets.handshake fun rc => ?_
  refine after (sets.when fun _ => sets.bind (sets.asked _) fun msg => sets.readErrorThrow _ _) fun _ => ?_
  refine after (sets.calls _) fun _ => after sets.listMethods fun _ => after sets.authenticate fun _ => ?_
  exact after sets.initSftp fun _ => after (sets.called _) fun channel => after (sets.assigns _ fun _ => rfl) fun _ =>
    opens

theorem serve : safe (serve build this) := by
  refine sets.bind (sets.repeatWhile (sets.bind sets.member fun sftp => ?_) ?_) fun _ => sets.readErrorThrow _ _
  · split
    · exact sets.bind (sets.calls _) fun eof => sets.pure _
    · exact sets.pure _
  · refine sets.bind sets.member fun sftp => sets.bind (sets.called _) fun rc => ?_
    exact sets.bind (sets.when fun _ => sets.readErrorThrow _ _) fun _ => sets.yields

end SettingUp

end safe

section within
variable {build : Build} {may : Allowance signature} {this : Ptr} {α : Type}

theorem yieldToAnyThread_within : (yieldToAnyThread build).Within may := by
  cases build <;> trivial

theorem perform_within {o : Op} (used : may.ops o) : (perform o).Within may := ⟨used, fun _ _ => trivial⟩

theorem network_within {call : Call} (used : may.ops (.library this call)) : (network build this call).Within may :=
  network_safe Code.Within.composes yieldToAnyThread_within (perform_within used)

theorem message_within {err : Int} (asks : may.ops (.library this .sessionLastError))
    (named : err ≠ 1 ∨ may.ops .noMessage) : (message this err).Within may :=
  message_safe Code.Within.composes (perform_within asks) (named.imp_right perform_within)

theorem waits_within (minor : ∀ o : Op, o.Minor → may.ops o) (throws : may.throws) :
    Waits build this fun {_} code => code.Within may :=
  waits_of Code.Within.composes (fun o used => perform_within (minor o used)) yieldToAnyThread_within throws

theorem leave_within {dispose : Program Unit} (disposes : build = .retro → (dispose.bind fun _ => pause).Within may)
    (exits : build ≠ .retro → may.exits) : (leave build dispose).Within may := by
  cases build with
  | retro => exact disposes rfl
  | direct => exact exits (by simp)

theorem permits_within (minor : ∀ o : Op, o.Minor → may.ops o)
    (reports : ∀ format arguments, may.ops (.report format arguments))
    (noMessage : may.ops .noMessage) (throws : may.throws)
    (disposes : build = .retro → ∀ main, may.replies .mainThreadId main → may.disposes main)
    (exits : build ≠ .retro → may.exits) : Permits build this fun {_} code => code.Within may where
  toWaits := waits_within minor throws
  noMessage := perform_within noMessage
  errorThrow format arguments := by
    refine .op (reports _ _) fun _ _ => yieldToAnyThread_within.bind fun _ => leave_within (fun retro => ?_) exits
    exact ⟨minor .mainThreadId trivial, fun main expected => ⟨disposes retro main expected, trivial⟩⟩

/-- An allowance for a set-up, which may dispose of the thread that is named as the reader. -/
theorem settingUp_within (minor : ∀ o : Op, o.Minor → may.ops o)
    (reports : ∀ format arguments, may.ops (.report format arguments))
    (noMessage : may.ops .noMessage) (throws : may.throws)
    (calls : ∀ call, may.ops (.library this call))
    (assigns : ∀ assigned : Assign, assigned.Silent → may.ops (.assign this assigned))
    (disposes : build = .retro → ∀ reader, may.replies .readThreadId (some reader) → may.disposes reader)
    (exits : build ≠ .retro → may.exits) : SettingUp build this fun {_} code => code.Within may where
  toWaits := waits_within minor throws
  member := perform_within (minor _ trivial)
  noMessage := perform_within noMessage
  calls call := perform_within (calls call)
  assigns assigned silent := perform_within (assigns assigned silent)
  readErrorThrow format arguments := by
    refine .op (reports _ _) fun _ _ => yieldToAnyThread_within.bind fun _ => leave_within (fun retro => ?_) exits
    refine ⟨minor .readThreadId trivial, fun name expected => ?_⟩
    cases name with
    | some reader => exact ⟨disposes retro reader expected, trivial⟩
    | none => trivial

end within
end PowerBoot.Transfer
