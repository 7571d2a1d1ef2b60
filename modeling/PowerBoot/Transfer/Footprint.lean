import PowerBoot.Transfer.Calls
import PowerBoot.Coop.Routine

/-! Properties that the functions of the client have where the operations they use have them. -/

namespace PowerBoot.Transfer
open Coop Code

/-- Every operation but assignments, reports of errors, the use of a message that there is
not, the making of a thread, and the calls that a property may be about. -/
def Op.Minor : Op → Prop
  | .newThread | .assign .. | .report .. | .noMessage => False
  | .library _ call => call = .sessionLastError
  | _ => True

/-- Those of them that read no memory which may never have been set. -/
def Op.Blind : Op → Prop
  | .member _ | .dir => False
  | o => o.Minor

theorem Op.Blind.minor {o : Op} (blind : o.Blind) : o.Minor := by
  cases o with
  | member | dir => exact blind.elim
  | _ => exact blind

/-- The loop of RC_ERR_HANDLE. -/
def rcLoop {Memory : Type} (build : Build) (this : Ptr) (rc : Owner) (cmd : Memory → Program (Int × Memory)) :
    Memory → Program Memory :=
  iterate fun memory => do
    if (← perform (.rc rc)) = LIBSSH2_ERROR_EAGAIN then
      let (result, memory) ← cmd memory
      perform (.setRc rc result)
      when ((← perform (.rc rc)) = LIBSSH2_ERROR_EAGAIN) (do let _ ← wait build this)
      return .inl memory
    else return .inr memory

/-- The error of RC_ERR_HANDLE. -/
def rcError {Memory : Type} (build : Build) (funcname : String) (this : Ptr) (rc : Owner) (memory : Memory) :
    Program Memory := do
  when ((← perform (.rc rc)) < 0) (do
    let msg ← message this (← perform (.rc rc))
    errorThrow build ("[" ++ funcname ++ "] %s") [msg])
  return memory

theorem rcErrHandle_eq {build : Build} {this : Ptr} {Memory : Type} {funcname : String} {rc : Owner}
    {cmd : Memory → Program (Int × Memory)} {memory : Memory} : rcErrHandle build funcname this rc cmd memory =
    (perform (.setRc rc LIBSSH2_ERROR_EAGAIN)).bind fun _ =>
      (rcLoop build this rc cmd memory).bind (rcError build funcname this rc) := rfl

/-- The operations that most functions use have the property. -/
structure Waits (build : Build) (this : Ptr) (safe : ∀ {α : Type}, Program α → Prop) : Prop extends Composes safe where
  blind : ∀ o : Op, o.Blind → safe (perform o)
  yields : safe (yieldToAnyThread build)
  throws : ∀ {α : Type}, safe (.throw : Program α)
  wait : safe (wait build this)
  sftpPointer : safe (sftpPointer this)

section safe
variable {build : Build} {this : Ptr} {α : Type} {safe : ∀ {α : Type}, Program α → Prop}

theorem message_safe (composes : Composes safe) {err : Int} (asks : safe (library this .sessionLastError))
    (named : err ≠ 1 ∨ safe (perform .noMessage)) : safe (message this err) := by
  rw [message, errorMsg]
  split
  next one =>
    rcases named with named | used
    · exact (named one).elim
    · exact @Composes.bind _ _ composes _ _ (perform .noMessage) _ used fun _ => composes.pure ""
  · exact @Composes.bind _ _ composes _ _ (library this .sessionLastError) _ asks fun st =>
      composes.pure (st ++ " (" ++ toString err ++ ")")

theorem network_safe (composes : Composes safe) (yields : safe (yieldToAnyThread build)) {call : Call}
    (used : safe (library this call)) : safe (network build this call) :=
  composes.bind yields fun _ => composes.bind used fun _ => composes.bind yields fun _ => composes.pure _

theorem waits_of (composes : Composes safe) (minor : ∀ o : Op, o.Minor → safe (perform o))
    (yields : safe (yieldToAnyThread build)) (throws : ∀ {α : Type}, safe (.throw : Program α)) :
    Waits build this safe where
  toComposes := composes
  blind o used := minor o used.minor
  yields := yields
  throws := throws
  wait := by
    refine composes.bind (minor _ trivial) fun _ => composes.bind (minor _ trivial) fun dir => ?_
    refine composes.bind (minor _ trivial) fun sftp => composes.iterate fun _ => ?_
    refine composes.bind (minor _ trivial) fun next => ?_
    cases next with
    | halts => exact composes.bind yields fun _ => composes.pure _
    | returns => exact composes.pure _
    | throws => exact throws
  sftpPointer := composes.bind (minor _ trivial) fun _ => composes.pure _

namespace Waits
variable (waits : Waits build this safe)
include waits

theorem network {call : Call} (used : safe (library this call)) : safe (network build this call) :=
  network_safe waits.toComposes waits.yields used

theorem message {err : Int} (named : err ≠ 1 ∨ safe (perform .noMessage)) : safe (message this err) :=
  message_safe waits.toComposes (waits.blind _ rfl) named

theorem pointed {Result : Type} {cmd : Option Ptr → Program Result} (part : ∀ sftp, safe (cmd sftp)) :
    safe (Transfer.sftpPointer this >>= cmd) := waits.bind waits.sftpPointer part

theorem rcLoop {Memory : Type} {rc : Owner} {cmd : Memory → Program (Int × Memory)} {memory : Memory}
    (cmds : ∀ memory, safe (cmd memory)) : safe (rcLoop build this rc cmd memory) := by
  refine waits.iterate fun memory => waits.bind (waits.blind _ trivial) fun now => ?_
  split
  · refine waits.bind (cmds memory) fun outcome => waits.bind (waits.blind _ trivial) fun _ => ?_
    refine waits.bind (waits.blind _ trivial) fun now => waits.bind (waits.when fun _ => ?_) fun _ => waits.pure _
    exact waits.bind waits.wait fun _ => waits.pure _
  · exact waits.pure _

end Waits

/-- The same, and so do the errors of the main thread. -/
structure Permits (build : Build) (this : Ptr) (safe : ∀ {α : Type}, Program α → Prop) :
    Prop extends Waits build this safe where
  noMessage : safe (perform .noMessage)
  errorThrow : ∀ format arguments, safe (errorThrow build format arguments)

namespace Permits
variable (permits : Permits build this safe)
include permits

theorem rcErrHandle {Memory : Type} {funcname : String} {rc : Owner} {cmd : Memory → Program (Int × Memory)}
    {memory : Memory} (cmds : ∀ memory, safe (cmd memory)) : safe (rcErrHandle build funcname this rc cmd memory) := by
  rw [rcErrHandle_eq]
  refine permits.bind (permits.blind _ trivial) fun _ => permits.bind (permits.rcLoop cmds) fun memory => ?_
  refine permits.bind (permits.blind _ trivial) fun now => permits.bind (permits.when fun _ => ?_) fun _ =>
    permits.pure _
  refine permits.bind (permits.blind _ trivial) fun now => ?_
  exact permits.bind (permits.message (.inr permits.noMessage)) fun msg => permits.errorThrow _ _

theorem openEx {filename : Bytes} {flags mode openType : Int}
    (opens : ∀ sftp, safe (library this (.sftpOpenEx sftp filename filename.length flags mode openType))) :
    safe (openEx build this filename flags mode openType) := by
  refine permits.iterate fun _ => permits.pointed fun sftp => permits.bind (permits.network (opens _)) fun handle => ?_
  cases handle with
  | some handle => exact permits.pure _
  | none =>
    refine permits.bind (permits.blind _ trivial) fun errno => ?_
    split
    · exact permits.bind permits.wait fun _ => permits.pure _
    · refine permits.bind (permits.blind _ trivial) fun rc => ?_
      refine permits.bind (permits.message (.inr permits.noMessage)) fun msg => ?_
      exact permits.bind (permits.errorThrow _ _) fun _ => permits.pure _

theorem handled {funcname : String} {rc : Owner} {cmd : Program Int} (part : safe cmd) :
    safe (handled build funcname this rc cmd) :=
  permits.rcErrHandle fun _ => permits.bind part fun _ => permits.pure _

theorem unlink {filename : Bytes}
    (unlinks : ∀ sftp, safe (library this (.sftpUnlinkEx sftp filename filename.length))) :
    safe (unlink build this filename) :=
  permits.handled (permits.pointed fun _ => permits.network (unlinks _))

end Permits
end safe

section uses
variable {build : Build} {ops : Op → Prop} {entries : Entry → Prop} {this : Ptr}

theorem perform_uses {o : Op} (used : ops o) : (perform o).Uses ops entries := ⟨used, fun _ => trivial⟩

theorem yieldToAnyThread_uses : (yieldToAnyThread build).Uses ops entries := by
  cases build <;> trivial

theorem uses_waits (minor : ∀ o, o.Minor → ops o) : Waits build this fun {_} code => code.Uses ops entries :=
  waits_of Code.Uses.composes (fun o used => perform_uses (minor o used)) yieldToAnyThread_uses trivial

theorem errorThrow_uses (minor : ∀ o, o.Minor → ops o) {format : String} {arguments : List String}
    (reports : ops (.report format arguments)) : (errorThrow build format arguments).Uses ops entries := by
  refine .op reports fun _ => yieldToAnyThread_uses.bind fun _ => ?_
  cases build with
  | retro => exact ⟨minor .mainThreadId trivial, fun _ => trivial⟩
  | direct => trivial

theorem uses_permits (minor : ∀ o, o.Minor → ops o) (reports : ∀ format arguments, ops (.report format arguments))
    (noMessage : ops .noMessage) :
    Permits build this fun {_} code => code.Uses ops entries where
  toWaits := uses_waits minor
  noMessage := perform_uses noMessage
  errorThrow _ _ := errorThrow_uses minor (reports _ _)

end uses

end PowerBoot.Transfer
