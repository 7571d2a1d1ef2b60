import PowerBoot.Coop.Alone
import PowerBoot.PowerNet.Drain

/-! Which results of Open Transport are reported. ThrowOSErr keeps 16 bits of a status and looks for them among
the codes that have a name. -/

namespace PowerBoot.PowerNet
open Coop Code

variable {thread : ThreadId} {net : Net} {file func : String} {line : Nat} {status : Int}

/-- The code calls mac_error_throw, which reports an error before anything else happens. -/
def Reports (thread : ThreadId) (code : Shim Unit) (net : Net) : Prop :=
  ∃ (rest : Shim Unit) (last : Net) (format : String) (arguments : List String),
    @Runs _ kernel thread _ code net rest last ∧ last.log = net.log ++ [.reported thread format arguments]

/-- The lower half of the status is that of a code with a name. -/
def Listed (status : Int) : Prop := ∃ code ∈ osErrCodes, status % 2 ^ 16 = code % 2 ^ 16

instance : DecidablePred Listed := fun _ => inferInstanceAs (Decidable (∃ _ ∈ _, _))

theorem listed_iff : Listed status ↔ toOSErr status ∈ osErrCodes := by
  constructor
  · rintro ⟨code, member, same⟩
    rwa [(toOSErr_eq_iff (osErrCodes_inside code member)).mpr same]
  · intro member
    exact ⟨_, member, (toOSErr_eq_iff (osErrCodes_inside _ member)).mp rfl⟩

theorem macErrorThrow_reports {format : String} {arguments : List String} :
    Reports thread (macErrorThrow format arguments) net := by
  let later : Shim Unit := do
    printf
    let mainThreadId ← perform .mainThreadId
    stop mainThreadId
    pause
  refine ⟨later, net.record (.reported thread format arguments), format, arguments, ?_, rfl⟩
  exact @Runs.op _ kernel thread _ (.report format arguments) _ _ _ _ _ .none () rfl (.here ..)

theorem throwOSErr_listed : Reports thread (throwOSErr file line func status) net ↔ Listed status := by
  rw [listed_iff, ← osErrFormat_some, throwOSErr, throwOsErr]
  cases osErrFormat (toOSErr status) with
  | some format => exact iff_of_true macErrorThrow_reports ⟨format, rfl⟩
  | none =>
    refine iff_of_false ?_ (by simp)
    rintro ⟨rest, last, format, arguments, runs, more⟩
    obtain rfl := @Runs.of_pure _ kernel thread _ () rest net last runs
    simp at more

/-- The macro's own conversion changes nothing where its argument has been converted before. -/
theorem throwOSErr_converted : throwOSErr file line func (toOSErr status) = throwOSErr file line func status := by
  rw [throwOSErr, throwOSErr, toOSErr, toOSErr, Int.bmod_bmod]

/-- A status is reported exactly if it is an error, where the codes with a name tell that from its lower half. -/
theorem throwOSErr_reports : (Reports thread (throwOSErr file line func status) net ↔ status < 0) ↔
    (status < 0 ↔ Listed status) := by
  rw [throwOSErr_listed]
  exact iff_comm

/-- An error that has no name is swallowed, and a count of 62375 bytes is reported as kOTFlowErr. -/
theorem throwOSErr_swallows :
    ¬ (Reports 0 (throwOSErr "connect.cpp" 77 "OTBind(s->endpoint, nil, nil)" (-108)) (initial 0 1).state ↔
      (-108 : Int) < 0) ∧
    ¬ (Reports 0 (throwOSErr "connect.cpp" 166 "OTRcvResult" 62375) (initial 0 1).state ↔ (62375 : Int) < 0) := by
  rw [throwOSErr_listed, throwOSErr_listed]
  decide +kernel

end PowerBoot.PowerNet
