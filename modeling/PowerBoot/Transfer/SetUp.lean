import PowerBoot.Coop.Log
import PowerBoot.Transfer.State

/-! What the set-up of a connection is for: its calls, each of them made only after the
answer that allows it. The stage that a set-up has come to is read off the log. -/

namespace PowerBoot.Transfer
open Coop

/-- The address that stands for an error. -/
def INADDR_NONE : Nat := 0xFFFFFFFF

inductive Stage where
  | begun
  | socketed
  | addressed
  | connected
  | shaken (methods : Option String)
  | refused (methods : String)
  | authenticated
  | initialized (pointer : Ptr)
  | opened (pointer : Ptr)
  | failed
deriving DecidableEq

/-- The functions that set a connection up. -/
def Function.setsUp : Function → Bool
  | .socket | .inetAddr | .connect | .sessionHandshake | .userauthList | .userauthPublickeyFromfileEx
  | .userauthPassword | .sftpInit | .channelOpenSession => true
  | _ => false

/-- A failure that the client does not look at: no address, no list of methods or no channel. -/
def Answer.unchecked : Answer → Bool
  | ⟨.inetAddr, address, _⟩ => address = INADDR_NONE
  | ⟨.userauthList, methods, errno⟩ => methods = none ∧ errno ≠ LIBSSH2_ERROR_EAGAIN
  | ⟨.channelOpenSession, channel, errno⟩ => channel = none ∧ errno ≠ LIBSSH2_ERROR_EAGAIN
  | _ => false

/-- The stage after an answer; none where the call should not have been made. `methods` is
what the member `userauthlist` holds when nothing has set it. -/
def Stage.next (methods : Option String) : Stage → Answer → Option Stage
  | .begun, ⟨.socket, sock, _⟩ => some (if sock = LIBSSH2_INVALID_SOCKET then .failed else .socketed)
  | .socketed, ⟨.inetAddr, _, _⟩ => some .addressed
  | .addressed, ⟨.connect, rc, _⟩ => some (if rc = 0 then .connected else .failed)
  | .connected, ⟨.sessionHandshake, rc, _⟩ =>
    some (if rc = LIBSSH2_ERROR_EAGAIN then .connected else if rc = 0 then .shaken methods else .failed)
  | .shaken none, ⟨.userauthList, found, _⟩ => some (.shaken found)
  | .shaken (some methods), ⟨.userauthPublickeyFromfileEx, rc, _⟩ =>
    if strstr methods "publickey" then
      some (if rc ≥ 0 then .authenticated else if strstr methods "password" then .refused methods else .failed)
    else none
  | .shaken (some methods), ⟨.userauthPassword, rc, _⟩ =>
    if strstr methods "publickey" then none
    else if strstr methods "password" then some (if rc ≥ 0 then .authenticated else .failed) else none
  | .refused _, ⟨.userauthPassword, rc, _⟩ => some (if rc ≥ 0 then .authenticated else .failed)
  | .authenticated, ⟨.sftpInit, pointer, errno⟩ => match pointer with
    | some pointer => some (.initialized pointer)
    | none => some (if errno = LIBSSH2_ERROR_EAGAIN then .authenticated else .failed)
  | .initialized pointer, ⟨.channelOpenSession, _, _⟩ => some (.opened pointer)
  | stage, answer => if answer.function.setsUp then none else some stage

/-- The answer that an event shows of a call on this object. -/
def Event.answer (this : Ptr) : Event → Option Answer
  | .library _ object _ answer => if object = this then some answer else none
  | _ => none

/-- A failure that is not looked at ends the set-up where `strict` holds. -/
def Stage.event (strict : Bool) (this : Ptr) (methods : Option String) (stage : Stage) (event : Event) : Option Stage :=
  match event.answer this with
  | some answer => (stage.next methods answer).map fun next => if strict && answer.unchecked then .failed else next
  | none => some stage

def stageOf (strict : Bool) (this : Ptr) (methods : Option String) (log : List Event) : Option Stage :=
  log.foldl (fun stage event => stage.bind (·.event strict this methods event)) (some .begun)

/-- The thread that an event makes responsible for the set-up of the object: the one that
calls `connect`, and then the one that is created to read. -/
def Event.owns (this : Ptr) : Event → Option ThreadId
  | .called thread (.connect object _) => if object = this then some thread else none
  | .spawned _ child (.readThread object _) => if object = this then some child else none
  | _ => none

def owner (this : Ptr) (log : List Event) : Option ThreadId :=
  log.foldl (fun owner event => (event.owns this).or owner) none

section stages
variable {strict : Bool} {this : Ptr} {methods : Option String} {log rest : List Event} {event : Event} {stage : Stage}

@[simp] theorem stageOf_concat : stageOf strict this methods (log ++ [event]) =
    (stageOf strict this methods log).bind (·.event strict this methods event) := by
  simp [stageOf]

@[simp] theorem owner_concat : owner this (log ++ [event]) = (event.owns this).or (owner this log) := by
  simp [owner]

theorem owner_kept {rest : List Event} (kept : ∀ event ∈ rest, event.owns this = none) :
    owner this (log ++ rest) = owner this log := by
  induction rest generalizing log with
  | nil => rw [List.append_nil]
  | cons event rest ih =>
    rw [List.append_cons, ih fun found member => kept found (List.mem_cons_of_mem _ member), owner_concat,
      kept event (List.mem_cons_self ..), Option.none_or]

theorem Stage.next_aside {answer : Answer} (aside : answer.function.setsUp = false) :
    stage.next methods answer = some stage := by
  unfold Stage.next
  split <;> first | cases aside | simp [aside]

/-- An event that is no call of the object's set-up. -/
def Event.Aside (this : Ptr) (event : Event) :
    Prop := ∀ answer, event.answer this = some answer → answer.function.setsUp = false

theorem Answer.unchecked_setsUp {answer : Answer} (unchecked : answer.unchecked = true) :
    answer.function.setsUp = true := by
  obtain ⟨function, result, errno⟩ := answer
  cases function <;> first | rfl | cases unchecked

theorem Stage.event_aside (aside : event.Aside this) : stage.event strict this methods event = some stage := by
  unfold Stage.event
  split
  next answer shown =>
    have function := aside answer shown
    have checked : answer.unchecked = false := by
      by_contra unchecked
      rw [Answer.unchecked_setsUp (by simpa using unchecked)] at function
      cases function
    simp [Stage.next_aside function, checked]
  · rfl

theorem stageOf_aside (aside : event.Aside this) :
    stageOf strict this methods (log ++ [event]) = stageOf strict this methods log := by
  rw [stageOf_concat]
  cases stageOf strict this methods log with
  | none => rfl
  | some stage => exact Stage.event_aside aside

theorem stageOf_asides (asides : ∀ event ∈ rest, event.Aside this) :
    stageOf strict this methods (log ++ rest) = stageOf strict this methods log := by
  induction rest generalizing log with
  | nil => rw [List.append_nil]
  | cons event rest ih =>
    rw [List.append_cons, ih fun found member => asides found (List.mem_cons_of_mem _ member),
      stageOf_aside (asides event (List.mem_cons_self ..))]

theorem stageOf_prefix (ordered : stageOf strict this methods (log ++ rest) = some stage) :
    ∃ earlier, stageOf strict this methods log = some earlier := by
  induction rest using List.reverseRecOn generalizing stage with
  | nil => exact ⟨stage, by simpa using ordered⟩
  | append_singleton rest event ih =>
    rw [← List.append_assoc, stageOf_concat] at ordered
    obtain ⟨earlier, found, _⟩ := Option.bind_eq_some_iff.mp ordered
    exact ih found

/-- The stages that end a set-up. -/
def Stage.Last (stage : Stage) : Prop := stage = .failed ∨ ∃ pointer, stage = .opened pointer

theorem Stage.Last.next {answer : Answer} (last : stage.Last) (call : answer.function.setsUp = true) :
    stage.next methods answer = none := by
  obtain ⟨function, result, errno⟩ := answer
  rcases last with rfl | ⟨pointer, rfl⟩ <;> cases function <;> first | rfl | cases call

/-- No call of the set-up comes after its end. -/
theorem stageOf_last {last : Stage} (isLast : stage.Last) (ended : stageOf strict this methods log = some stage)
    (ordered : stageOf strict this methods (log ++ rest) = some last) :
    last = stage ∧ ∀ event ∈ rest, event.Aside this := by
  induction rest using List.reverseRecOn generalizing last with
  | nil =>
    rw [List.append_nil, ended] at ordered
    exact ⟨(Option.some.inj ordered).symm, fun _ member => (List.not_mem_nil member).elim⟩
  | append_singleton rest event ih =>
    rw [← List.append_assoc, stageOf_concat] at ordered
    obtain ⟨earlier, found, ordered⟩ := Option.bind_eq_some_iff.mp ordered
    obtain ⟨rfl, asides⟩ := ih found
    have aside : event.Aside this := by
      intro answer shown
      by_contra call
      simp [Stage.event, shown, isLast.next (by simpa using call)] at ordered
    rw [Stage.event_aside aside] at ordered
    refine ⟨(Option.some.inj ordered).symm, fun found member => ?_⟩
    rcases List.mem_append.mp member with early | now
    · exact asides found early
    · exact List.mem_singleton.mp now ▸ aside

end stages
end PowerBoot.Transfer
