import PowerBoot.Transfer.Padding

/-! EAGAIN while a connection is set up: `read_thread` makes three of its calls again, and
takes EAGAIN for a failure or for a channel in the three others. -/

namespace PowerBoot.Transfer
open Coop Code

variable {build : Build} {thread : ThreadId} {this : Ptr} {limit : Nat} {spent : List Function} {client last : Client}
  {α : Type} {options : ConnectionOptions} {result : Option α}

theorem library_congr {call : Call} {rest other : call.function.Result → Program α}
    (same : ∀ value now result last,
      EndsIn build thread (rest value) now result last ↔ EndsIn build thread (other value) now result last) :
    EndsIn build thread ((library this call).bind rest) client result last ↔
      EndsIn build thread ((library this call).bind other) client result last := by
  simp only [library_then, same]

theorem Client.update_self {change : Sftp → Sftp} (same : change (client.sftp this) = client.sftp this) :
    client.update this change = client := by
  rw [Client.update, same, Function.update_eq_self]

section handshake
variable {rest : Int → Program α}

theorem handshake_then : EndsIn build thread ((handshake build this).bind rest) client result last ↔
    EndsIn build thread ((library this (.sessionHandshake (client.sftp this).sock)).bind fun rc =>
      if rc = LIBSSH2_ERROR_EAGAIN then (handshake build this).bind rest else rest rc) client result last := by
  rw [handshake, iterate_then]
  simp only [bind_eq, bind_assoc]
  rw [member_then, network_then]
  refine library_congr fun (rc : Int) now result last => ?_
  split
  · rw [bind_assoc, yieldToAnyThread_then]
    rfl
  · rfl

theorem handshake_tallies (live : .sessionHandshake ∉ spent)
    (then_ : ∀ rc, Tallies build thread this limit spent [] (rest rc)) :
    Tallies build thread this limit spent [] ((handshake build this).bind rest) := by
  induction limit using Nat.strong_induction_on with
  | _ limit ih =>
    intro padding client beside short there
    let again (rc : Int) := if rc = LIBSSH2_ERROR_EAGAIN then (handshake build this).bind rest else rest rc
    have turn (now : Client) (same : now.sftp = client.sftp) (result : Option α) (last : Client) :
        EndsIn build thread ((handshake build this).bind rest) now result last ↔
          EndsIn build thread ((library this (.sessionHandshake (client.sftp this).sock)).bind again) now result
            last := by
      rw [handshake_then, same]
    refine TalliesAt.retries turn live rfl there
      (fun reply now same _ => ⟨[], List.forall_mem_nil _, rfl, fun result last => ?_⟩)
      fun (rc : Int) _ more client beside shorter there _ _ => ?_
    · rw [List.append_nil]
      exact iff_of_eq (congrArg (EndsIn build thread · now result last) (if_pos (of_decide_eq_true reply.again)))
    · have less : more.length < limit := Nat.lt_of_lt_of_le shorter short
      simp only [again]
      split
      · exact ih _ less (fun rc => (then_ rc).mono (Nat.le_of_lt less)) more client beside le_rfl there
      · exact then_ rc more client beside (Nat.le_of_lt less) there

end handshake

section listMethods
variable {rest : Unit → Program α}

/-- What follows the answer in the loop around libssh2_userauth_list. -/
private def listed (build : Build) (this : Ptr) (methods : Option String) (again : Program α) : Program α :=
  (perform (.assign this (.userauthlist methods))).bind fun _ => (wait build this).bind fun _ => again

theorem listMethods_asks (unknown : (client.sftp this).userauthlist = none) :
    EndsIn build thread ((listMethods build this options).bind rest) client result last ↔
      EndsIn build thread ((library this (.userauthList options.username options.username.utf8ByteSize)).bind
        fun methods => listed build this methods ((listMethods build this options).bind rest)) client result last := by
  rw [listMethods, repeatWhile_then]
  simp only [bind_eq, bind_assoc]
  rw [member_then, unknown]
  simp only [Option.isNone_none, pure_eq, pure_bind, if_true]
  rw [network_then]
  rfl

theorem listMethods_done (known : (client.sftp this).userauthlist ≠ none) :
    EndsIn build thread ((listMethods build this options).bind rest) client result last ↔
      EndsIn build thread (rest ()) client result last := by
  rw [listMethods, repeatWhile_then]
  simp only [bind_eq, bind_assoc]
  rw [member_then, Option.isNone_eq_false_iff.mpr (Option.isSome_iff_ne_none.mpr known)]
  rfl

theorem listMethods_tallies (live : .userauthList ∉ spent)
    (then_ : Tallies build thread this limit spent [] (rest ())) :
    Tallies build thread this limit spent [] ((listMethods build this options).bind rest) := by
  induction limit using Nat.strong_induction_on with
  | _ limit ih =>
    intro padding client beside short there
    by_cases known : (client.sftp this).userauthlist = none
    · have turn (now : Client) (same : now.sftp = client.sftp) (result : Option α) (last : Client) :
          EndsIn build thread ((listMethods build this options).bind rest) now result last ↔
            EndsIn build thread ((library this (.userauthList options.username options.username.utf8ByteSize)).bind
              fun methods => listed build this methods ((listMethods build this options).bind rest)) now result
                last := by
        exact listMethods_asks (by rw [same, known])
      refine TalliesAt.retries turn live rfl there
        (fun reply now same _ => ⟨[.waited thread this], by simp [Event.completed], rfl, fun result last => ?_⟩)
        fun methods _ more client beside shorter there _ _ => ?_
      · have nothing : reply.result = none := (of_decide_eq_true reply.again).1
        have kept : now.update this (Assign.userauthlist none).apply = now := Client.update_self <| by
          rw [same, Assign.apply, ← known]
        rw [nothing, listed, assign_then, wait_then, kept]
        rfl
      · have less : more.length < limit := Nat.lt_of_lt_of_le shorter short
        exact Tallies.assign (Tallies.waits (ih _ less (then_.mono (Nat.le_of_lt less)))) more client beside le_rfl
          there
    · refine TalliesAt.moves there there (fun _ _ => listMethods_done known) (fun _ _ => listMethods_done ?_)
        (.same rfl)
        (.same rfl) (then_ padding client beside short there)
      rwa [there.sftp]

end listMethods

section initSftp
variable {rest : Unit → Program α}

/-- What follows where libssh2_sftp_init gives no pointer. Where no thread is named the error
does not end it. -/
private def pointerless (build : Build) (this : Ptr) (rc : Int) (again done : Program α) : Program α :=
  if rc = LIBSSH2_ERROR_EAGAIN then (wait build this).bind fun _ => again
  else (message this 0).bind fun msg =>
    (readErrorThrow build "Unable to init SFTP session: %s\n" [msg]).bind fun _ =>
      (perform (.member this)).bind fun sftp => if sftp.sftpPointer.isNone then again else done

/-- What follows the answer in the loop around libssh2_sftp_init. -/
private def initialized (build : Build) (this : Ptr) (pointer : Option Ptr) (again done : Program α) : Program α :=
  (perform (.assign this (.sftpPointer pointer))).bind fun _ => match pointer with
    | some _ => done
    | none => (perform (.sessionLastErrno this)).bind fun rc => pointerless build this rc again done

theorem initSftp_then : EndsIn build thread ((initSftp build this).bind rest) client result last ↔
    EndsIn build thread ((library this .sftpInit).bind fun pointer =>
      initialized build this pointer ((initSftp build this).bind rest) (rest ())) client result last := by
  refine Iff.trans iterate_then ?_
  simp only [bind_eq, bind_assoc]
  rw [network_then]
  refine library_congr fun (pointer : Option Ptr) now result last => ?_
  rw [initialized, assign_then, assign_then]
  cases pointer with
  | some pointer =>
    simp only [Option.isNone_some, when, Bool.false_eq_true, if_false, pure_bind]
    rw [member_then, Client.update_same]
    rfl
  | none =>
    simp only [Option.isNone_none, when, if_true, bind_assoc]
    rw [sessionLastErrno_then, sessionLastErrno_then, pointerless]
    split
    · simp only [bind_assoc]
      rw [wait_then, wait_then, pure_eq, pure_bind, member_then, Client.record_sftp, Client.update_same]
      rfl
    · rw [bind_assoc]
      refine iff_of_eq (congrArg (EndsIn build thread · _ result last) ?_)
      refine congrArg (Code.bind _) (funext fun msg => congrArg (Code.bind _) (funext fun _ =>
        congrArg (Code.bind _) (funext fun sftp => ?_)))
      split <;> rfl

/-- The loop does not look at the pointer that it sets. -/
theorem initSftp_forgets {pointer : Option Ptr} :
    EndsIn build thread ((initSftp build this).bind rest) (client.update this (Assign.sftpPointer pointer).apply) result
      last ↔ EndsIn build thread ((initSftp build this).bind rest) client result last := by
  have sets (value : Option Ptr) (answer : Answer) (script : List Answer) (again done : Program α) :
      EndsIn build thread (initialized build this value again done)
        ((client.update this (Assign.sftpPointer pointer).apply).answered thread this .sftpInit answer script) result
          last ↔
      EndsIn build thread (initialized build this value again done)
        (client.answered thread this .sftpInit answer script) result last := by
    rw [initialized, assign_then, assign_then]
    refine iff_of_eq (congrArg (EndsIn build thread _ · result last) ?_)
    simp only [Client.update, Client.answered, Client.record, Assign.apply, Function.update_self, Function.update_idem]
  rw [initSftp_then, initSftp_then, library_then, library_then]
  refine exists_congr fun _ => exists_congr fun answer => exists_congr fun script => exists_congr fun value => ?_
  exact and_congr_right fun _ => and_congr_right fun _ => sets value answer script _ _

theorem sftpInit_after {pointer : Option Ptr} {errno : Int} {wait : Wait} :
    (Answer.mk .sftpInit pointer errno).after wait =
      if (Answer.mk .sftpInit pointer errno).again then [wait] else [] := rfl

theorem initSftp_tallies (init : .sftpInit ∉ spent) (message : .sessionLastError ∉ spent)
    (then_ : Tallies build thread this limit spent [] (rest ())) :
    Tallies build thread this limit spent [] ((initSftp build this).bind rest) := by
  induction limit using Nat.strong_induction_on with
  | _ limit ih =>
    intro padding client beside short there
    have turn (now : Client) (_ : now.sftp = client.sftp) (result : Option α) (last : Client) :
        EndsIn build thread ((initSftp build this).bind rest) now result last ↔
          EndsIn build thread ((library this .sftpInit).bind fun pointer =>
            initialized build this pointer ((initSftp build this).bind rest) (rest ())) now result last := initSftp_then
    refine TalliesAt.retries turn init rfl there
      (fun reply now same held => ⟨[.waited thread this], by simp [Event.completed], ?_, fun result last => ?_⟩)
      fun (pointer : Option Ptr) errno more client beside shorter there held kept => ?_
    · rw [Again.answer, sftpInit_after, if_pos reply.again]
      rfl
    · obtain ⟨nothing, again⟩ : reply.result = none ∧ reply.errno = LIBSSH2_ERROR_EAGAIN :=
        of_decide_eq_true reply.again
      rw [nothing, initialized, assign_then, sessionLastErrno_then, Client.update_session, held, again, pointerless,
        if_pos rfl, wait_then]
      exact @initSftp_forgets build thread this (now.record (.waited thread this)) last α result rest none
    · have less : more.length < limit := Nat.lt_of_lt_of_le shorter short
      have done := then_.mono (Nat.le_of_lt less)
      have again := ih _ less done
      rw [sftpInit_after]
      cases pointer with
      | some pointer => exact Tallies.assign done more client beside le_rfl there
      | none =>
        have ends (now : Client) (held : (now.session this).errno = errno) (result : Option α) (last : Client) :
            EndsIn build thread (initialized build this none ((initSftp build this).bind rest) (rest ())) now result
              last ↔ EndsIn build thread ((perform (.assign this (.sftpPointer none))).bind fun _ =>
                pointerless build this errno ((initSftp build this).bind rest) (rest ())) now result last := by
          rw [initialized, assign_then, assign_then, sessionLastErrno_then, Client.update_session, held]
        refine TalliesAt.moves there there (ends client held) (ends beside kept) (.same rfl) (.same rfl) ?_
        refine Tallies.assign ?_ more client beside le_rfl there
        rw [pointerless]
        split
        next eagain =>
          rw [if_pos (of_decide_eq_true eagain).2]
          exact Tallies.waits again
        next definite =>
          rw [if_neg fun eagain => definite (decide_eq_true ⟨rfl, eagain⟩)]
          refine Tallies.message message fun _ => Tallies.readErrorThrow (Tallies.member fun sftp => ?_)
          split
          · exact again
          · exact done

end initSftp

section authenticate
variable {userauthlist : String} {rc : Int} {rest : Bool → Program α} {more : List Function}

/-- What follows the answer to an attempt to authenticate. -/
private def attempted (build : Build) (this : Ptr) (rc result : Int) : Program Bool := do
  if result ≥ 0 then return true
  else
    let _ ← message this rc
    printf build
    return false

private theorem attempted_tallies {result : Int} (live : .sessionLastError ∉ spent)
    (then_ : ∀ ok, Tallies build thread this limit spent [] (rest ok)) :
    Tallies build thread this limit spent [] ((attempted build this rc result).bind rest) := by
  unfold attempted
  split
  · exact then_ true
  · simp only [bind_eq, bind_assoc]
    exact Tallies.message live fun _ => Tallies.yields (then_ false)

private theorem attempted_starts {result : Int} (again : result = LIBSSH2_ERROR_EAGAIN) :
    Starts build thread ((attempted build this rc result).bind rest) := by
  rw [attempted, if_neg (by rw [again]; decide), bind_eq, bind_assoc]
  exact Starts.message

private theorem attempt_tallies {call : Call} {code : call.function.Result → Int} (live : call.function ∉ spent)
    (single : call.function.single = true) (message : .sessionLastError ∉ more)
    (wider : ∀ function ∈ spent, function ∈ more) (now : call.function ∈ more)
    (again : ∀ reply : Again call.function, code reply.result = LIBSSH2_ERROR_EAGAIN)
    (then_ : ∀ ok, Tallies build thread this limit more [] (rest ok)) :
    Tallies build thread this limit spent []
      ((network build this call).bind fun result => (attempted build this rc (code result)).bind rest) :=
  Tallies.network call (Tallies.once live single wider now (fun reply => attempted_starts (again reply))
    fun _ => attempted_tallies message then_)

theorem tryPublickey_tallies
    (then_ : ∀ ok, Tallies build thread this limit [.userauthPublickeyFromfileEx] [] (rest ok)) :
    Tallies build thread this limit [] [] ((tryPublickey build this options rc).bind rest) := by
  have wider : ∀ function ∈ [], function ∈ [Function.userauthPublickeyFromfileEx] := nofun
  rw [tryPublickey, bind_eq, bind_assoc]
  refine Tallies.member fun sftp => ?_
  split
  · rw [bind_eq, bind_assoc]
    exact attempt_tallies (by simp) rfl (by simp) wider (by simp) (fun reply => of_decide_eq_true reply.again) then_
  · exact (then_ false).wider wider

theorem tryPassword_tallies
    (then_ : ∀ ok, Tallies build thread this limit [.userauthPassword, .userauthPublickeyFromfileEx] [] (rest ok)) :
    Tallies build thread this limit [.userauthPublickeyFromfileEx] []
      ((tryPassword build this options rc).bind rest) := by
  have wider : ∀ function ∈ [Function.userauthPublickeyFromfileEx],
      function ∈ [.userauthPassword, .userauthPublickeyFromfileEx] := fun _ => List.mem_cons_of_mem _
  rw [tryPassword, bind_eq, bind_assoc]
  refine Tallies.member fun sftp => ?_
  split
  · rw [bind_eq, bind_assoc]
    exact attempt_tallies (by simp) rfl (by simp) wider (by simp) (fun reply => of_decide_eq_true reply.again) then_
  · exact (then_ false).wider wider

theorem authenticate_tallies {rest : Unit → Program α}
    (then_ : Tallies build thread this limit [.userauthPassword, .userauthPublickeyFromfileEx] [] (rest ())) :
    Tallies build thread this limit [] [] ((authenticate build this options rc).bind rest) := by
  simp only [authenticate, bind_eq, bind_assoc]
  refine Tallies.member fun sftp => ?_
  have wider : ∀ function ∈ [], function ∈ [Function.userauthPassword, .userauthPublickeyFromfileEx] := nofun
  cases sftp.userauthlist with
  | none =>
    simp only [bind_assoc]
    exact Tallies.message (by simp) fun _ => Tallies.readErrorThrow (then_.wider wider)
  | some userauthlist =>
    simp only [bind_assoc]
    refine Tallies.yields (tryPublickey_tallies fun ok => ?_)
    cases ok with
    | true => exact Tallies.yields (then_.wider fun _ => List.mem_cons_of_mem _)
    | false =>
      simp only [Bool.false_eq_true, if_false, bind_assoc]
      refine tryPassword_tallies fun ok => ?_
      cases ok with
      | true => exact Tallies.yields then_
      | false =>
        simp only [Bool.false_eq_true, if_false, bind_assoc]
        exact Tallies.readErrorThrow (Tallies.yields then_)

theorem authenticate_accepted {value : Int} {errno : Int} {script : List Answer} {rest : Unit → Program α}
    {result : Option α} (known : (client.sftp this).userauthlist = some userauthlist)
    (offered : strstr userauthlist "publickey" = true) (accepted : value ≥ 0)
    (scripted : nextAnswer .userauthPublickeyFromfileEx (client.session this).script =
      some (⟨.userauthPublickeyFromfileEx, value, errno⟩, script)) :
    EndsIn build thread ((authenticate build this options rc).bind rest) client result last ↔
      EndsIn build thread (rest ()) (client.answered thread this
        (.userauthPublickeyFromfileEx options.username options.pubkey options.privkey options.password)
        ⟨.userauthPublickeyFromfileEx, value, errno⟩ script) result last := by
  have next : nextAnswer (Call.userauthPublickeyFromfileEx options.username options.pubkey options.privkey
    options.password).function (client.session this).script =
      some (⟨.userauthPublickeyFromfileEx, value, errno⟩, script) := scripted
  simp only [authenticate, bind_eq, bind_assoc]
  rw [member_then, known]
  simp only [printf, tryPublickey, bind_eq, bind_assoc]
  rw [yieldToAnyThread_then, member_then, known, advertises_some, if_pos offered]
  simp only [bind_assoc]
  rw [network_then, library_scripted next, if_pos accepted]
  simp only [pure_eq, pure_bind, if_true]
  exact yieldToAnyThread_then

end authenticate

/-- The functions that are not called again once the connection is set up. -/
def spentAtOpen : List Function := [.channelOpenSession, .userauthPassword, .userauthPublickeyFromfileEx]

theorem serve_tallies {rest : Unit → Program α} (then_ : Tallies build thread this limit spentAtOpen [] (rest ())) :
    Tallies build thread this limit spentAtOpen [] ((serve build this).bind rest) := by
  rw [serve, bind_eq, bind_assoc]
  induction limit using Nat.strong_induction_on with
  | _ limit ih =>
    refine Tallies.step (fun _ => _) id [] (fun _ _ _ => repeatWhile_then) (fun there => ⟨rfl, there⟩)
      (fun _ => .same rfl) fun _ => ?_
    simp only [bind_eq, bind_assoc]
    refine Tallies.member fun sftp => ?_
    split
    · simp only [bind_assoc]
      refine Tallies.library_less rfl (by simp [spentAtOpen]) fun less short (eof : Int) => ?_
      have ends := then_.mono (Nat.le_of_lt short)
      simp only [pure_eq, pure_bind]
      split
      · exact Tallies.member fun sftp => Tallies.network _ (Tallies.library rfl (by simp [spentAtOpen])
          fun (rc : Int) => Tallies.failing (Tallies.yields (ih less short ends)))
      · exact Tallies.readErrorThrow ends
    · exact Tallies.readErrorThrow then_

theorem serve_starts {rest : Unit → Program α} : Starts build thread ((serve build this).bind rest) := by
  rw [serve, bind_eq, bind_assoc]
  refine Starts.step (fun _ => _) id (fun _ _ _ => repeatWhile_then) (fun _ => rfl) fun _ => ?_
  simp only [bind_eq, bind_assoc]
  refine Starts.member fun sftp => ?_
  split
  · simp only [bind_assoc]
    exact Starts.library rfl fun _ _ => rfl
  · exact Starts.readErrorThrow

/-- A read thread that was not told to read is at its end once the connection is set up. -/
theorem serve_idle {result : Option Unit} (idle : (client.sftp this).readThreadCommand ≠ .read)
    (reader : build = .retro → client.readThreadId = some thread) :
    EndsIn build thread (serve build this) client result last ↔
      result = none ∧ last = client.record (.reported thread "Disconnected by server.\n" []) := by
  rw [← bind_pure (serve build this), serve, bind_eq, bind_assoc, repeatWhile_then]
  simp only [bind_eq, bind_assoc]
  rw [member_then, if_neg fun reading => idle reading.1]
  exact readErrorThrow_then reader

theorem setUp_tallies {rest : Unit → Program α} (starts : Starts build thread (rest ()))
    (then_ : Tallies build thread this limit spentAtOpen [] (rest ())) :
    Tallies build thread this limit [] [] ((setUp build this options).bind rest) := by
  simp only [setUp, bind_eq, bind_assoc]
  refine Tallies.network .socket (Tallies.library rfl (by simp) fun (sock : Int) => Tallies.assign (Tallies.failing ?_))
  refine Tallies.library rfl (by simp) fun hostaddr => Tallies.member fun sftp => Tallies.network (.connect ..) ?_
  refine Tallies.library rfl (by simp) fun (failed : Int) => Tallies.failing (handshake_tallies (by simp) fun rc => ?_)
  have wider : ∀ function ∈ [.userauthPassword, .userauthPublickeyFromfileEx], function ∈ spentAtOpen :=
    fun _ => List.mem_cons_of_mem _
  have shaken : Tallies build thread this limit [] [] ((library this .hostkeyHash).bind fun _ =>
      (listMethods build this options).bind fun _ => (authenticate build this options rc).bind fun _ =>
        (initSftp build this).bind fun _ => (network build this .channelOpenSession).bind fun channel =>
          (perform (.assign this (.channel channel))).bind fun _ =>
            (perform (.assign this (.readThreadState .open_))).bind rest) := by
    refine Tallies.library rfl (by simp) fun hash => listMethods_tallies (by simp) (authenticate_tallies ?_)
    refine initSftp_tallies (by simp) (by simp) (Tallies.network .channelOpenSession ?_)
    refine Tallies.once (by simp) rfl wider (by simp [spentAtOpen]) (fun _ => ?_) fun _ => ?_
    · exact Starts.assign (Starts.assign starts)
    · exact Tallies.assign (Tallies.assign then_)
  refine Tallies.when (fun _ => ?_) shaken
  simp only [Code.bind_assoc]
  exact Tallies.message (by simp) fun _ => Tallies.readErrorThrow shaken

theorem readThread_tallies : Tallies build thread this limit [] [] (readThread build this options) := by
  rw [← bind_pure (readThread build this options), readThread, bind_eq, bind_assoc]
  refine Tallies.member fun sftp => ?_
  split
  · exact Tallies.pure ()
  · rw [bind_eq, bind_assoc]
    exact setUp_tallies serve_starts (serve_tallies (Tallies.pure ()))

theorem Beside.scripted (padding : List Padded) : Beside this [] padding
    (client.scripted this (padding.map Padded.answer)) (client.scripted this (padding.flatMap Padded.answers)) :=
  ⟨rfl, rfl, by simp [Client.scripted], [], nofun, by simp [Client.scripted]⟩

/-- EAGAIN makes no difference to the set-up of a connection, except in front of a definitive
result of one of the calls that are made once, and where a wait() that it adds does not return. -/
theorem eagain_transparent {padding : List Padded} {result : Option Unit}
    (plays : Plays build thread this (readThread build this options)
    (client.scripted this (padding.map Padded.answer)) result last) :
    Transparent build thread (padding.flatMap Padded.waits) (readThread build this options)
      (client.scripted this (padding.flatMap Padded.answers)) result last ↔ Tolerable padding :=
  readThread_tallies padding _ _ le_rfl (Beside.scripted padding) result last plays

/-- What the library answers where a key is accepted, and EAGAIN before that. -/
def keyAccepted (handshake : List (Again .sessionHandshake)) (key : List (Again .userauthPublickeyFromfileEx))
    (init : List (Again .sftpInit)) : List Padded := [
  ⟨.socket, (3 : Int), 0, []⟩,
  ⟨.inetAddr, (0 : Nat), 0, []⟩,
  ⟨.connect, (0 : Int), 0, []⟩,
  ⟨.sessionHandshake, (0 : Int), 0, handshake⟩,
  ⟨.hostkeyHash, none, 0, []⟩,
  ⟨.userauthList, some "publickey", 0, []⟩,
  ⟨.userauthPublickeyFromfileEx, (0 : Int), 0, key⟩,
  ⟨.sftpInit, some 7, 0, init⟩,
  ⟨.channelOpenSession, some 8, 0, []⟩]

def keyOptions : ConnectionOptions where
  addr := "10.0.0.1"
  port := 22
  username := "user"
  password := ""
  pubkey := "id.pub"
  privkey := "id"

def justStarted : Client where
  mainThreadId := 1
  readThreadId := some 0
  sftp _ := { sock := 0, sftpPointer := none, sftpHandle := none, channel := none, recvBuffer := none, userauthlist :=
    none }
  rc _ := 0
  session _ := {}

theorem keyAccepted_plays {handshake : List (Again .sessionHandshake)}
    {key : List (Again .userauthPublickeyFromfileEx)} {init : List (Again .sftpInit)} : ∃ last,
      Plays .retro 0 0 (readThread .retro 0 keyOptions)
        (justStarted.scripted 0 ((keyAccepted handshake key init).map Padded.answer)) none last := by
  have running : ¬ ReadThreadCommand.wait = .exit := nofun
  have named : some "publickey" ≠ none := nofun
  have socket : ¬ (3 : Int) = LIBSSH2_INVALID_SOCKET := by decide
  have zero : ¬ (0 : Int) ≠ 0 := by decide
  have definite : ¬ (0 : Int) = LIBSSH2_ERROR_EAGAIN := by decide
  apply Exists.intro
  constructor
  · rw [readThread, bind_eq, member_then, if_neg (by exact running)]
    simp only [setUp, bind_eq, Code.bind_assoc]
    rw [network_then, library_scripted rfl, assign_then, when_false socket, library_scripted rfl, member_then,
      network_then, library_scripted rfl, when_false zero, handshake_then, library_scripted rfl, if_neg definite,
      when_false zero, library_scripted rfl]
    rw [listMethods_asks rfl, library_scripted rfl, listed, assign_then, wait_then, listMethods_done (by exact named)]
    rw [authenticate_accepted rfl (by decide) (Int.le_refl 0) rfl, initSftp_then, library_scripted rfl, initialized,
      assign_then, network_then, library_scripted rfl, assign_then, assign_then]
    refine (serve_idle (fun reading => ?_) fun _ => rfl).mpr ⟨rfl, rfl⟩
    cases (show ReadThreadCommand.wait = .read from reading)
  · rfl

/-- The handshake and the initialization of SFTP are answered EAGAIN first, and are made again. -/
def handshakeAgain : List Padded :=
  keyAccepted [⟨LIBSSH2_ERROR_EAGAIN, LIBSSH2_ERROR_EAGAIN, .returns, rfl, rfl⟩] []
    [⟨none, LIBSSH2_ERROR_EAGAIN, .returns, rfl, rfl⟩]

theorem eagain_transparent_handshake : ∃ last, Plays .retro 0 0 (readThread .retro 0 keyOptions)
      (justStarted.scripted 0 (handshakeAgain.map Padded.answer)) none last ∧
    Transparent .retro 0 (handshakeAgain.flatMap Padded.waits) (readThread .retro 0 keyOptions)
      (justStarted.scripted 0 (handshakeAgain.flatMap Padded.answers)) none last := by
  obtain ⟨last, plays⟩ : ∃ last, Plays .retro 0 0 (readThread .retro 0 keyOptions)
    (justStarted.scripted 0 (handshakeAgain.map Padded.answer)) none last := keyAccepted_plays
  refine ⟨last, plays, (eagain_transparent plays).mpr ?_⟩
  rw [handshakeAgain, keyAccepted, tolerable_bare rfl, tolerable_bare rfl, tolerable_bare rfl, tolerable_again rfl]
  refine ⟨fun _ member => (List.not_mem_nil member).elim, ?_⟩
  rw [tolerable_bare rfl, tolerable_bare rfl, tolerable_bare rfl, tolerable_bare rfl, tolerable_again rfl]
  refine ⟨fun _ member => List.mem_singleton.mp member, ?_⟩
  rw [tolerable_bare rfl, tolerable_bare rfl]
  exact fun _ member => (List.not_mem_nil member).elim

def keyAgain : List Padded := keyAccepted [] [⟨LIBSSH2_ERROR_EAGAIN, LIBSSH2_ERROR_EAGAIN, .returns, rfl, rfl⟩] []

/-- A key that the server would have accepted is refused. -/
theorem key_not_transparent : ∃ last, Plays .retro 0 0 (readThread .retro 0 keyOptions)
      (justStarted.scripted 0 (keyAgain.map Padded.answer)) none last ∧
    ¬ Transparent .retro 0 (keyAgain.flatMap Padded.waits) (readThread .retro 0 keyOptions)
      (justStarted.scripted 0 (keyAgain.flatMap Padded.answers)) none last := by
  obtain ⟨last, plays⟩ : ∃ last, Plays .retro 0 0 (readThread .retro 0 keyOptions)
    (justStarted.scripted 0 (keyAgain.map Padded.answer)) none last := keyAccepted_plays
  refine ⟨last, plays, fun transparent => ?_⟩
  have tolerable := (readThread_tallies keyAgain _ _ le_rfl (Beside.scripted keyAgain) none last plays).mp transparent
  have key := tolerable _ (List.mem_of_getElem? (show keyAgain[6]? = some _ from rfl))
  cases key.retried (List.cons_ne_nil _ _) rfl

end PowerBoot.Transfer
