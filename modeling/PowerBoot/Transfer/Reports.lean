import PowerBoot.Transfer.SetUp
import PowerBoot.Transfer.Attempts

/-! Scripts with which a set-up fails. A read thread that runs alone gets to the report of
the failure, whatever it has to repeat before. -/

namespace PowerBoot.Transfer
open Coop Code

/-- The stage that a set-up comes to with these answers. -/
def Stage.plays (methods : Option String) : Stage → List Answer → Option Stage
  | stage, [] => some stage
  | stage, answer :: script => (stage.next methods answer).bind (plays methods · script)

def Stage.due : Stage → Option Function
  | .begun => some .socket
  | .socketed => some .inetAddr
  | .addressed => some .connect
  | .connected => some .sessionHandshake
  | .shaken none => some .userauthList
  | .shaken (some methods) =>
    if strstr methods "publickey" then some .userauthPublickeyFromfileEx
    else if strstr methods "password" then some .userauthPassword else none
  | .refused _ => some .userauthPassword
  | .authenticated => some .sftpInit
  | .initialized _ => some .channelOpenSession
  | .opened _ | .failed => none

/-- The thread can run this code alone up to a report. -/
def Reports (build : Build) (thread : ThreadId) {α : Type} (code : Program α) (client : Client) : Prop :=
  ∃ last, EndsIn build thread code client none last ∧ ∃ format arguments, .reported thread format arguments ∈ last.log

/-- The set-up is at this stage, and the script makes it fail. -/
structure Doomed (build : Build) (thread : ThreadId) (this : Ptr) (methods : Option String) (stage : Stage)
    (client : Client) : Prop where
  reader : build = .retro → client.readThreadId = some thread
  plays : stage.plays methods (client.session this).script = some .failed

variable {build : Build} {thread : ThreadId} {this : Ptr} {client : Client} {methods : Option String}
  {stage last : Stage}
  {function : Function} {script : List Answer} {α : Type}

theorem Stage.due_of_next {answer : Answer} {next : Stage} (call : answer.function.setsUp = true)
    (moved : stage.next methods answer = some next) : stage.due = some answer.function := by
  unfold Stage.next at moved
  split at moved
  all_goals grind [Stage.due]

theorem plays_aside {answer : Answer} {left : List Answer} (found : nextAnswer function script = some (answer, left))
    (aside : function.setsUp = false) : stage.plays methods script = stage.plays methods left := by
  induction script generalizing stage left with
  | nil => cases found
  | cons head script ih =>
    rw [nextAnswer] at found
    split at found
    next same =>
      cases found
      rw [Stage.plays, Stage.next_aside (same ▸ aside)]
      rfl
    · obtain ⟨⟨_, rest⟩, later, same⟩ := Option.map_eq_some_iff.mp found
      cases same
      simp only [Stage.plays]
      exact congrArg _ (funext fun stage => ih later)

/-- The script has an answer to the next call, which takes the set-up further. -/
theorem plays_call (plays : stage.plays methods script = some last) (early : stage ≠ last)
    (due : stage.due = some function) (call : function.setsUp = true) :
    ∃ answer left next, nextAnswer function script = some (answer, left) ∧ stage.next methods answer = some next ∧
      next.plays methods left = some last ∧ left.length < script.length := by
  induction script with
  | nil => exact (early (Option.some.inj plays)).elim
  | cons answer script ih =>
    obtain ⟨next, moved, later⟩ := Option.bind_eq_some_iff.mp plays
    cases setsUp : answer.function.setsUp with
    | true =>
      obtain rfl := Option.some.inj (due.symm.trans (Stage.due_of_next setsUp moved))
      exact ⟨answer, script, next, by simp [nextAnswer], moved, later, Nat.lt_succ_self _⟩
    | false =>
      obtain rfl := Option.some.inj ((Stage.next_aside setsUp).symm.trans moved)
      obtain ⟨found, left, next, taken, moved, later, shorter⟩ := ih later
      have other : answer.function ≠ function := by
        rintro rfl
        cases setsUp.symm.trans call
      refine ⟨found, answer :: left, next, by simp [nextAnswer, other, taken], moved, ?_, Nat.succ_lt_succ shorter⟩
      rw [Stage.plays, Stage.next_aside setsUp]
      exact later

theorem plays_opened {pointer : Ptr} (plays : (Stage.opened pointer).plays methods script = some last) :
    last = .opened pointer := by
  induction script with
  | nil => exact (Option.some.inj plays).symm
  | cons answer script ih =>
    obtain ⟨next, moved, later⟩ := Option.bind_eq_some_iff.mp plays
    cases setsUp : answer.function.setsUp with
    | true => cases (Stage.Last.next (Or.inr ⟨pointer, rfl⟩) setsUp).symm.trans moved
    | false =>
      obtain rfl := Option.some.inj ((Stage.next_aside setsUp).symm.trans moved)
      exact ih later

namespace Reports
variable {β : Type} {code : Program α} {other : Program β} {after : Client}

theorem of_iff (reports : Reports build thread other after)
    (same : ∀ last, EndsIn build thread code client none last ↔ EndsIn build thread other after none last) :
    Reports build thread code client := by
  obtain ⟨last, ends, reported⟩ := reports
  exact ⟨last, (same last).mpr ends, reported⟩

theorem readErrorThrow (reader : build = .retro → client.readThreadId = some thread) {format : String}
    {arguments : List String} {rest : Unit → Program α} :
    Reports build thread ((Transfer.readErrorThrow build format arguments).bind rest) client :=
  ⟨_, (readErrorThrow_then reader).mpr ⟨rfl, rfl⟩, format, arguments, List.mem_append_right _
    (List.mem_singleton_self _)⟩

theorem aside (doomed : Doomed build thread this methods stage client) (call : Call)
    (aside : call.function.setsUp = false) (free : call.function.Result) {rest : call.function.Result → Program α}
    (goes : ∀ value after, Doomed build thread this methods stage after → after.sftp = client.sftp →
      Reports build thread (rest value) after) :
    Reports build thread ((Transfer.library this call).bind rest) client := by
  cases found : nextAnswer call.function (client.session this).script with
  | none =>
    have answered : client.answer this call.function (.answer ⟨call.function, free, 0⟩) =
        some (⟨call.function, free, 0⟩, (client.session this).script) := by
      simp [Client.answer, found]
    obtain ⟨last, ends, reported⟩ := goes free (client.answered thread this call ⟨call.function, free, 0⟩
      (client.session this).script) ⟨doomed.reader, by simpa using doomed.plays⟩ rfl
    exact ⟨last, library_then.mpr ⟨_, _, _, free, answered, Answer.for_iff.mpr rfl, ends⟩, reported⟩
  | some taken =>
    obtain ⟨answer, left⟩ := taken
    have same := (nextAnswer_some found).1
    obtain ⟨function, value, errno⟩ := answer
    subst same
    refine (goes value (client.answered thread this call ⟨_, value, errno⟩ left) ⟨doomed.reader, ?_⟩ rfl).of_iff
      fun last => library_scripted found
    simpa using (plays_aside found aside).symm.trans doomed.plays

theorem message (doomed : Doomed build thread this methods stage client) {rest : String → Program α}
    (goes : ∀ msg after, Doomed build thread this methods stage after → after.sftp = client.sftp →
      Reports build thread (rest msg) after) :
    Reports build thread ((Transfer.message this 0).bind rest) client :=
  of_iff (aside doomed .sessionLastError rfl "" fun st after doomed same =>
    goes (st ++ " (" ++ toString (0 : Int) ++ ")") after doomed same)
    fun _ => message_then (by decide)

theorem library (doomed : Doomed build thread this methods stage client) (call : Call) (early : stage ≠ .failed)
    (due : stage.due = some call.function) (setsUp : call.function.setsUp = true)
    {rest : call.function.Result → Program α} (goes : ∀ value errno next after,
      stage.next methods ⟨call.function, value, errno⟩ = some next → Doomed build thread this methods next after →
      after.sftp = client.sftp → (after.session this).errno = errno →
      (after.session this).script.length < (client.session this).script.length →
      Reports build thread (rest value) after) :
    Reports build thread ((Transfer.library this call).bind rest) client := by
  obtain ⟨answer, left, next, found, moved, plays, shorter⟩ := plays_call doomed.plays early due setsUp
  have same := (nextAnswer_some found).1
  obtain ⟨function, value, errno⟩ := answer
  subst same
  refine (goes value errno next (client.answered thread this call ⟨_, value, errno⟩ left) moved ⟨doomed.reader, ?_⟩
    rfl ?_ ?_).of_iff
    fun last => library_scripted found
  · simpa using plays
  · simp
  · simpa using shorter

theorem network (doomed : Doomed build thread this methods stage client) (call : Call) (early : stage ≠ .failed)
    (due : stage.due = some call.function) (setsUp : call.function.setsUp = true)
    {rest : call.function.Result → Program α} (goes : ∀ value errno next after,
      stage.next methods ⟨call.function, value, errno⟩ = some next → Doomed build thread this methods next after →
      after.sftp = client.sftp → (after.session this).errno = errno →
      (after.session this).script.length < (client.session this).script.length →
      Reports build thread (rest value) after) :
    Reports build thread ((Transfer.network build this call).bind rest) client :=
  (library doomed call early due setsUp goes).of_iff fun _ => network_then

end Reports

theorem handshake_reports {rest : Int → Program α} (doomed : Doomed build thread this methods .connected client)
    (goes : ∀ rc after, Doomed build thread this methods (if rc = 0 then .shaken methods else .failed) after →
      after.sftp = client.sftp → Reports build thread (rest rc) after) :
    Reports build thread ((handshake build this).bind rest) client := by
  induction length : (client.session this).script.length using Nat.strongRecOn generalizing client with
  | _ bound ih =>
    refine Reports.of_iff ?_ fun last => iterate_then
    simp only [bind_eq, bind_assoc]
    refine Reports.of_iff ?_ fun last => member_then
    refine Reports.network doomed (.sessionHandshake _) (by simp) rfl rfl
      fun (rc : Int) errno next after moved doomed same _ shorter => ?_
    obtain rfl := Option.some.inj moved
    by_cases again : rc = LIBSSH2_ERROR_EAGAIN
    · simp only [if_pos again, bind_assoc] at doomed ⊢
      refine Reports.of_iff ?_ fun last => yieldToAnyThread_then
      exact ih _ (length ▸ shorter) doomed (fun rc last doomed kept => goes rc last doomed (kept.trans same)) rfl
    · simp only [if_neg again] at doomed ⊢
      exact goes rc after doomed same

theorem listMethods_reports {options : ConnectionOptions} {rest : Unit → Program α}
    (doomed : Doomed build thread this methods (.shaken (client.sftp this).userauthlist) client)
    (goes : ∀ offered after, Doomed build thread this methods (.shaken (some offered)) after →
      (after.sftp this).userauthlist = some offered → Reports build thread (rest ()) after) :
    Reports build thread ((listMethods build this options).bind rest) client := by
  induction length : (client.session this).script.length using Nat.strongRecOn generalizing client with
  | _ bound ih =>
    refine Reports.of_iff ?_ fun last => repeatWhile_then
    simp only [bind_eq, bind_assoc]
    refine Reports.of_iff ?_ fun last => member_then
    cases known : (client.sftp this).userauthlist with
    | some offered => exact goes offered client (known ▸ doomed) known
    | none =>
      rw [known] at doomed
      simp only [Option.isNone_none, pure_eq, pure_bind, if_true]
      refine Reports.network doomed (.userauthList ..) (by simp) rfl rfl
        fun found errno next after moved doomed same _ shorter => ?_
      obtain rfl := Option.some.inj moved
      refine Reports.of_iff ?_ fun last => assign_then
      refine Reports.of_iff ?_ fun last => wait_then
      have list :
        ((((after.update this (Assign.userauthlist found).apply)).record (.waited thread this)).sftp this).userauthlist
        =
          found := by
        rw [Client.record_sftp, Client.update_same]
        rfl
      exact @ih _ (length ▸ shorter)
        ((after.update this (Assign.userauthlist found).apply).record (.waited thread this))
        (list.symm ▸ ⟨doomed.reader, doomed.plays⟩) rfl

theorem tryPassword_reports {options : ConnectionOptions} {offered : String} {rest : Bool → Program α}
    (doomed : Doomed build thread this methods stage client) (list : (client.sftp this).userauthlist = some offered)
    (accepting : strstr offered "password" = true → stage ≠ .failed ∧ stage.due = some .userauthPassword ∧
      ∀ (rc errno : Int), stage.next methods ⟨.userauthPassword, rc, errno⟩ =
        some (if rc ≥ 0 then .authenticated else .failed))
    (accepted : ∀ after, Doomed build thread this methods .authenticated after → Reports build thread (rest true) after)
    (refused : ∀ stage after, Doomed build thread this methods stage after → Reports build thread (rest false) after) :
    Reports build thread ((tryPassword build this options 0).bind rest) client := by
  simp only [tryPassword, bind_eq, Code.bind_assoc]
  refine Reports.of_iff ?_ fun last => member_then
  rw [list, advertises_some]
  split
  next password =>
    obtain ⟨early, due, moves⟩ := accepting password
    simp only [Code.bind_assoc]
    refine Reports.network doomed (.userauthPassword ..) early due rfl
      fun (rc : Int) errno next after moved doomed _ _ _ => ?_
    obtain rfl := Option.some.inj ((moves rc errno).symm.trans moved)
    by_cases success : rc ≥ 0
    · simp only [if_pos success] at doomed ⊢
      exact accepted after doomed
    · simp only [if_neg success, Code.bind_assoc, printf] at doomed ⊢
      refine Reports.message doomed fun msg after doomed _ => ?_
      exact Reports.of_iff (refused _ after doomed) fun last => yieldToAnyThread_then
  · exact refused _ client doomed

theorem authenticate_reports {options : ConnectionOptions} {offered : String} {rest : Unit → Program α}
    (doomed : Doomed build thread this methods (.shaken (some offered)) client)
    (list : (client.sftp this).userauthlist = some offered)
    (goes : ∀ after, Doomed build thread this methods .authenticated after → Reports build thread (rest ()) after) :
    Reports build thread ((authenticate build this options 0).bind rest) client := by
  have accepted (after : Client) (doomed : Doomed build thread this methods .authenticated after) :
      Reports build thread ((printf build).bind rest) after :=
    Reports.of_iff (goes after doomed) fun _ => yieldToAnyThread_then
  have refused (stage : Stage) (after : Client) (doomed : Doomed build thread this methods stage after) :
      Reports build thread ((readErrorThrow build "failed to connect" []).bind fun _ => (printf build).bind rest)
        after :=
    Reports.readErrorThrow doomed.reader
  have tries {stage : Stage} {client : Client} (doomed : Doomed build thread this methods stage client)
      (list : (client.sftp this).userauthlist = some offered)
      (accepting : strstr offered "password" = true → stage ≠ .failed ∧ stage.due = some .userauthPassword ∧
        ∀ (rc errno : Int), stage.next methods ⟨.userauthPassword, rc, errno⟩ =
          some (if rc ≥ 0 then .authenticated else .failed)) :
      Reports build thread ((tryPassword build this options 0).bind fun ok =>
        (if ok then printf build
        else (readErrorThrow build "failed to connect" []).bind fun _ => printf build).bind rest) client := by
    refine tryPassword_reports doomed list accepting (fun after doomed => accepted after doomed)
      fun stage after doomed => ?_
    simp only [Bool.false_eq_true, if_false, Code.bind_assoc]
    exact refused stage after doomed
  simp only [authenticate, bind_eq, Code.bind_assoc]
  refine Reports.of_iff ?_ fun last => member_then
  simp only [list, Code.bind_assoc]
  refine Reports.of_iff ?_ fun last => yieldToAnyThread_then
  simp only [tryPublickey, bind_eq, Code.bind_assoc]
  refine Reports.of_iff ?_ fun last => member_then
  rw [list, advertises_some]
  split
  next key =>
    simp only [Code.bind_assoc]
    refine Reports.network doomed (.userauthPublickeyFromfileEx ..) (by simp) (if_pos key) rfl
      fun (rc : Int) errno next after moved doomed same _ _ => ?_
    obtain rfl := Option.some.inj ((if_pos key).symm.trans moved)
    by_cases success : rc ≥ 0
    · simp only [if_pos success] at doomed ⊢
      exact accepted after doomed
    · simp only [if_neg success, Code.bind_assoc] at doomed ⊢
      refine Reports.message doomed fun msg later doomed kept => ?_
      refine Reports.of_iff ?_ fun last => yieldToAnyThread_then
      simp only [pure_eq, pure_bind, Bool.false_eq_true, if_false, Code.bind_assoc]
      refine tries doomed (by rw [kept, same, list]) fun password => ?_
      simp [password, Stage.due, Stage.next]
  next keyless =>
    simp only [pure_eq, pure_bind, Bool.false_eq_true, if_false, Code.bind_assoc]
    refine tries doomed list fun password => ?_
    simp [password, keyless, Stage.due, Stage.next]

theorem initSftp_reports {rest : Unit → Program α} (doomed : Doomed build thread this methods .authenticated client)
    (goes : ∀ pointer after, Doomed build thread this methods (.initialized pointer) after →
      Reports build thread (rest ()) after) :
    Reports build thread ((initSftp build this).bind rest) client := by
  induction length : (client.session this).script.length using Nat.strongRecOn generalizing client with
  | _ bound ih =>
    refine Reports.of_iff ?_ fun last => iterate_then
    simp only [bind_eq, Code.bind_assoc]
    refine Reports.network doomed .sftpInit (by simp) rfl rfl
      fun found errno next after moved doomed _ number shorter => ?_
    refine Reports.of_iff ?_ fun last => assign_then
    have pointer : ((after.update this (Assign.sftpPointer found).apply).sftp this).sftpPointer = found := by
      rw [Client.update_same]
      rfl
    generalize updated : after.update this (Assign.sftpPointer found).apply = later at pointer ⊢
    have session : later.session = after.session := by rw [← updated, Client.update_session]
    have doomed : Doomed build thread this methods next later :=
      ⟨by rw [← updated]; exact doomed.reader, session ▸ doomed.plays⟩
    cases found with
    | some opened =>
      obtain rfl := Option.some.inj moved
      refine Reports.of_iff ?_ fun last => member_then
      simp only [pointer]
      exact goes opened later doomed
    | none =>
      obtain rfl := Option.some.inj moved
      simp only [when, Option.isNone_none, if_true, Code.bind_assoc]
      refine Reports.of_iff ?_ fun last => sessionLastErrno_then
      rw [session, number]
      by_cases again : errno = LIBSSH2_ERROR_EAGAIN
      · simp only [if_pos again, Code.bind_assoc] at doomed ⊢
        refine Reports.of_iff ?_ fun last => wait_then
        refine Reports.of_iff ?_ fun last => member_then
        simp only [Client.record_sftp, pointer]
        exact ih _ (length ▸ session ▸ shorter) ⟨doomed.reader, doomed.plays⟩ rfl
      · simp only [if_neg again, Code.bind_assoc] at doomed ⊢
        exact Reports.message doomed fun msg after doomed _ => Reports.readErrorThrow doomed.reader

theorem setUp_reports {options : ConnectionOptions} {rest : Unit → Program α}
    (doomed : Doomed build thread this methods .begun client) (list : (client.sftp this).userauthlist = methods) :
    Reports build thread ((setUp build this options).bind rest) client := by
  simp only [setUp, bind_eq, Code.bind_assoc]
  refine Reports.network doomed .socket (by simp) rfl rfl fun (sock : Int) errno next after moved doomed same _ _ => ?_
  obtain rfl := Option.some.inj moved
  refine Reports.of_iff ?_ fun last => assign_then
  have list : ((after.update this (Assign.sock sock).apply).sftp this).userauthlist = methods := by
    rw [Client.update_same]
    exact (congrArg (fun sftp => (sftp this).userauthlist) same).trans list
  have doomed : Doomed build thread this methods _ (after.update this (Assign.sock sock).apply) :=
    ⟨doomed.reader, doomed.plays⟩
  generalize after.update this (Assign.sock sock).apply = client at doomed list
  by_cases invalid : sock = LIBSSH2_INVALID_SOCKET
  · simp only [when, if_pos invalid] at doomed ⊢
    exact Reports.readErrorThrow doomed.reader
  simp only [when, if_neg invalid, pure_bind] at doomed ⊢
  refine Reports.library doomed (.inetAddr options.addr) (by simp) rfl rfl
    fun hostaddr errno next after moved doomed same _ _ => ?_
  obtain rfl := Option.some.inj moved
  rw [← same] at list
  refine Reports.of_iff ?_ fun last => member_then
  refine Reports.network doomed (.connect ..) (by simp) rfl rfl fun (rc : Int) errno next later moved doomed same _ _ =>
    ?_
  obtain rfl := Option.some.inj moved
  rw [← same] at list
  by_cases failed : rc = 0
  · simp only [failed, ne_eq, not_true_eq_false, if_false, if_true, pure_bind] at doomed ⊢
    refine handshake_reports doomed fun rc client doomed same => ?_
    rw [← same] at list
    by_cases failed : rc = 0
    · simp only [failed, not_true_eq_false, if_false, if_true, pure_bind] at doomed ⊢
      refine Reports.aside doomed .hostkeyHash rfl none fun _ after doomed same => ?_
      rw [← same] at list
      refine listMethods_reports (list ▸ doomed) fun offered after doomed list => ?_
      refine authenticate_reports doomed list fun after doomed => ?_
      refine initSftp_reports doomed fun pointer after doomed => ?_
      refine Reports.network doomed .channelOpenSession (by simp) rfl rfl fun _ _ next _ moved doomed _ _ _ => ?_
      obtain rfl := Option.some.inj moved
      cases plays_opened doomed.plays
    · simp only [failed, not_false_eq_true, if_true, if_false, Code.bind_assoc] at doomed ⊢
      exact Reports.message doomed fun msg after doomed _ => Reports.readErrorThrow doomed.reader
  · simp only [failed, ne_eq, not_false_eq_true, if_true, if_false] at doomed ⊢
    exact Reports.readErrorThrow doomed.reader

/-- The read thread reports the failure of a set-up. -/
theorem readThread_reports {options : ConnectionOptions} (doomed : Doomed build thread this methods .begun client)
    (list : (client.sftp this).userauthlist = methods) (command : (client.sftp this).readThreadCommand ≠ .exit) :
    Reports build thread (readThread build this options) client := by
  refine Reports.of_iff ?_ fun last => member_then
  simp only [command, if_false]
  exact setUp_reports doomed list

end PowerBoot.Transfer
