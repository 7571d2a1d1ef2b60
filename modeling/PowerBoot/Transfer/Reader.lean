import PowerBoot.Transfer.Setting

/-! The thread that sets a connection up goes through the stages of the set-up one after
the other: the functions of the read thread, each with the stage it starts and ends at. -/

namespace PowerBoot.Transfer
open Coop Code

variable {build : Build} {strict : Bool} {this : Ptr} {methods list : Option String} {pointer : Option Ptr}
  {thread : ThreadId} {stage : Stage} {before after : Client} {α : Type}

section walk
variable {start now : Client} {post : α → Client → Client → Prop}

theorem op_amid (amid : Amid build strict this methods thread stage list pointer start now) (o : Op)
    (aside : o.Aside) (mute : stage = .failed → o.Mute this) {rest : o.Reply → Program α}
    (safe : ∀ input reply after, exec thread o input now = some (reply, after) →
      Amid build strict this methods thread stage list pointer start after →
      (setting strict this methods build).rules.Holds thread (rest reply) post start after) :
    (setting strict this methods build).rules.Holds thread ((perform o).bind rest) post start now := by
  intro input reply after answered executed
  obtain ⟨stepped, ends, there, _⟩ := (@minding_bears build strict this methods list pointer thread stage).op
    o input now reply after ⟨aside, mute⟩ answered executed amid.ends.invariant amid.holds
  exact ⟨stepped, safe input reply after executed (amid.step setting_regular.orderly ends there)⟩

/-- Where the thread is after an answer, whose error number the session keeps. -/
structure Heard (build : Build) (strict : Bool) (this : Ptr) (methods : Option String) (thread : ThreadId)
    (stage : Stage) (list : Option String) (pointer : Option Ptr) (errno : Int) (client : Client) : Prop where
  there : At strict this methods build stage list pointer thread client
  errno : (∀ opened, stage ≠ .opened opened) → (client.session this).errno = errno

theorem Heard.waits {errno : Int} (heard : Heard build strict this methods thread stage list pointer errno before)
    (keeps : (setting strict this methods build).keeps thread before after) :
    Heard build strict this methods thread stage list pointer errno after := by
  have kept := keeps heard.there.owner
  refine ⟨kept.stays heard.there, fun closed => ?_⟩
  rw [kept.errno fun opened same => closed opened (Option.some.inj (heard.there.stage.symm.trans same))]
  exact heard.errno closed

theorem closed_amid (amid : Amid build strict this methods thread stage list pointer start now)
    (early : ∀ opened, stage ≠ .opened opened) : (now.sftp this).readThreadState ≠ .open_ := by
  intro open_
  obtain ⟨opened, same⟩ := amid.ends.invariant.open_ open_
  exact early opened (Option.some.inj (amid.holds.stage.symm.trans same))

theorem assign_amid (amid : Amid build strict this methods thread stage list pointer start now) (assigned : Assign)
    (state : (assigned.apply (now.sftp this)).readThreadState = .open_ → ∃ opened, stage = .opened opened)
    (pointed : ∀ opened, stage = .opened opened → (assigned.apply (now.sftp this)).sftpPointer = some opened)
    {rest : Unit → Program α}
    (safe : ∀ after, Amid build strict this methods thread stage (assigned.apply (now.sftp this)).userauthlist
      (assigned.apply (now.sftp this)).sftpPointer start after →
      (after.session this).errno = (now.session this).errno →
      (setting strict this methods build).rules.Holds thread (rest ()) post start after) :
    (setting strict this methods build).rules.Holds thread ((perform (.assign this assigned)).bind rest) post start
      now := by
  intro input reply after _ executed
  cases executed
  have kept := amid.ends.invariant
  have there := amid.holds
  have set : Setting strict this methods build (now.update this assigned.apply) := by
    refine ⟨kept.ordered, fun open_ => ?_, fun found => ?_, kept.returns, kept.failing, kept.owned, fun none => ?_⟩
    · rw [Client.update_same] at open_
      obtain ⟨opened, rfl⟩ := state open_
      exact ⟨opened, there.stage⟩
    · rw [Client.update_same]
      exact pointed _ (Option.some.inj (there.stage.symm.trans found))
    · cases there.owner.symm.trans none
  refine ⟨set, safe _ (amid.step setting_regular.orderly (ends_owner there.owner set fun _ different => ?_) ?_) rfl⟩
  · exact ⟨rfl, [], (List.append_nil _).symm, by simp⟩
  · exact ⟨there.owner, there.stage, there.reader, by rw [Client.update_same], by rw [Client.update_same]⟩

/-- A call of the set-up, made at its stage. -/
theorem library_amid (amid : Amid build strict this methods thread stage list pointer start now) (call : Call)
    (early : ¬ stage.Last)
      (next : ∀ result errno, ∃ later, stage.next methods ⟨call.function, result, errno⟩ = some later ∧
      ∀ opened, later = .opened opened → pointer = some opened) {rest : call.function.Result → Program α}
    (safe : ∀ result errno later after, stage.next methods ⟨call.function, result, errno⟩ = some later →
      (setting strict this methods build).rules.Works thread
        (Heard build strict this methods thread later list pointer errno) start after →
      (setting strict this methods build).rules.Holds thread (rest result) post start after) :
    (setting strict this methods build).rules.Holds thread ((library this call).bind rest) post start now := by
  intro input result after answered executed
  obtain ⟨answer, script, found, given, same⟩ := exec_library.mp executed
  obtain ⟨later, moved, opens⟩ := next result answer.errno
  have checked : (strict && answer.unchecked) = false := by
    cases strict with
    | false => rfl
    | true => exact answered answer script found
  rw [← Answer.for_iff.mp given] at moved
  have there := amid.holds
  subst same
  have stepped : stageOf strict this methods (now.answered thread this call answer script).log = some later := by
    simp [there.stage, Stage.event, Event.answer, moved, checked]
  have after : At strict this methods build later list pointer thread (now.answered thread this call answer script) :=
    ⟨by simp [Event.owns, there.owner], stepped, there.reader, there.list, there.pointer⟩
  have kept := amid.ends.invariant
  have set : Setting strict this methods build (now.answered thread this call answer script) := by
    refine ⟨⟨later, stepped⟩, fun open_ => ?_, fun opened => ?_, ?_, ?_, ?_, fun none => ?_⟩
    · obtain ⟨opened, same⟩ := kept.open_ open_
      exact (early (Or.inr ⟨opened, Option.some.inj (there.stage.symm.trans same)⟩)).elim
    · exact there.pointer.trans (opens _ (Option.some.inj (stepped.symm.trans opened)))
    · exact throughout_concat.mpr ⟨kept.returns, fun actor same => by cases same⟩
    · refine throughout_concat.mpr ⟨kept.failing, fun failed _ => ?_⟩
      exact (early (Or.inl (Option.some.inj (there.stage.symm.trans failed)))).elim
    · exact throughout_concat.mpr ⟨kept.owned, fun _ => there.owner, fun some => (some rfl).elim⟩
    · cases after.owner.symm.trans none
  have ends : (setting strict this methods build).rules.Ends thread now _ :=
    ends_owner there.owner set fun _ different => @Grows.exec _ _ _ _ (.library this call) input result different
      executed
  rw [Answer.for_iff.mp given] at moved
  exact ⟨set, safe result answer.errno later _ moved (amid.step setting_regular.orderly ends ⟨after, fun _ => by simp⟩)⟩

theorem network_amid (amid : Amid build strict this methods thread stage list pointer start now) (call : Call)
    (early : ¬ stage.Last)
      (next : ∀ result errno, ∃ later, stage.next methods ⟨call.function, result, errno⟩ = some later ∧
      ∀ opened, later = .opened opened → pointer = some opened) {rest : call.function.Result → Program α}
    (safe : ∀ result errno later start now, stage.next methods ⟨call.function, result, errno⟩ = some later →
      (setting strict this methods build).rules.Works thread
        (Heard build strict this methods thread later list pointer errno) start now →
      (setting strict this methods build).rules.Holds thread (rest result) post start now) :
    (setting strict this methods build).rules.Holds thread ((network build this call).bind rest) post start now := by
  simp only [network, bind_eq, Code.bind_assoc]
  refine Discipline.holds_yieldToAnyThread amid setting_regular
    (fun _ _ _ _ keeps there => (keeps there.owner).stays there) fun start now amid => ?_
  refine library_amid amid call early next fun result errno later after moved works => ?_
  exact Discipline.holds_yieldToAnyThread works setting_regular (fun _ _ _ _ keeps heard => heard.waits keeps)
    fun start now works => safe result errno later start now moved works

/-- An error of the read thread is the end of it: it disposes of itself or exits. -/
theorem readErrorThrow_amid (amid : Amid build strict this methods thread stage list pointer start now)
    {format : String} {arguments : List String} {post : Unit → Client → Client → Prop} :
    (setting strict this methods build).rules.Holds thread (readErrorThrow build format arguments) post start now := by
  let reported (client : Client) : Prop := At strict this methods build stage list pointer thread client ∧
    (stage = .failed → Reported strict this methods thread client.log)
  have waits (before after : Client) (_ : Setting strict this methods build after) (grows : Grows thread before after)
      (keeps : (setting strict this methods build).keeps thread before after) (holds : reported before) :
      reported after := by
    obtain ⟨more, log, _⟩ := grows.log
    exact ⟨(keeps holds.1.owner).stays holds.1, fun failed => (holds.2 failed).mono log⟩
  have closing {client later : Client} {events : List Event} (holds : reported client)
      (kept : Setting strict this methods build client) (passes : Passes this thread client later events) :
      Setting strict this methods build later := by
    refine passes.setting kept fun event member failed _ => Or.inr ?_
    exact (passes.own event member).1 ▸ holds.2 (Option.some.inj (holds.1.stage.symm.trans failed))
  simp only [readErrorThrow, bind_eq]
  have past := amid.holds.stage
  refine op_amid amid (.report format arguments) trivial (fun _ => trivial) fun input reply after executed amid => ?_
  have works : (setting strict this methods build).rules.Works thread reported start after := by
    cases executed
    exact amid.mono ⟨amid.holds, fun failed => ⟨_, _, _, [], rfl, past.trans (congrArg some failed)⟩⟩
  refine Discipline.holds_yieldToAnyThread works setting_regular waits fun start now works => ?_
  have there := works.holds.1
  cases build with
  | retro =>
    refine @Discipline.holds_read .retro _ _ _ _ _ .readThreadId _ _ _ (fun _ => rfl) works.ends.invariant ?_
    rw [there.reader rfl]
    have set := closing works.holds works.ends.invariant (@Passes.disposed this thread now thread)
    refine ⟨set, ?_⟩
    rw [if_pos rfl]
    exact works.ends.trans setting_regular.orderly (ends_owner there.owner set fun _ different => .record rfl different)
  | direct =>
    have set := closing works.holds works.ends.invariant Passes.exited
    exact works.ends.trans setting_regular.orderly (ends_owner there.owner set fun _ different => .record rfl different)

theorem minding_waits (early : stage ≠ .failed) : Waits build this fun {_} code => code.Within (minding this stage) :=
  waits_within (fun _ minor => ⟨minor.aside, fun failed => (early failed).elim⟩) early

theorem handshake_amid (amid : Amid build strict this methods thread .connected list pointer start now) :
    (setting strict this methods build).rules.Holds thread (handshake build this) (fun rc start now =>
      Amid build strict this methods thread (if rc = 0 then .shaken methods else .failed) list pointer start now)
      start now := by
  refine ⟨fun _ => Amid build strict this methods thread .connected list pointer, amid, fun _ start now amid => ?_⟩
  refine op_amid amid (.member this) trivial (fun _ => trivial) fun _ _ _ _ amid => ?_
  refine network_amid amid (.sessionHandshake _) (by simp [Stage.Last]) (fun rc errno => ?_)
    fun (rc : Int) errno later start now moved works => ?_
  · refine ⟨_, rfl, fun opened same => ?_⟩
    split at same
    · cases same
    · split at same <;> cases same
  obtain rfl := Option.some.inj moved
  have amid := works.mono works.holds.there
  split
  next again =>
    refine Discipline.holds_yieldToAnyThread amid setting_regular
      (fun _ _ _ _ keeps there => (keeps there.owner).stays there) fun start now amid => ?_
    rw [if_pos again] at amid
    exact amid
  next definite =>
    rw [if_neg definite] at amid
    exact amid

theorem listMethods_amid {options : ConnectionOptions}
    (amid : Amid build strict this methods thread (.shaken list) list pointer start now) :
    (setting strict this methods build).rules.Holds thread (listMethods build this options) (fun _ start now =>
      ∃ found, Amid build strict this methods thread (.shaken (some found)) (some found) pointer start now)
      start now := by
  refine ⟨fun _ start now => ∃ list, Amid build strict this methods thread (.shaken list) list pointer start now,
    ⟨list, amid⟩, fun _ start now ⟨list, amid⟩ => ?_⟩
  refine op_amid amid (.member this) trivial (fun _ => trivial) fun _ sftp _ executed amid => ?_
  cases executed
  have known := amid.holds.list
  simp only [pure_eq, bind_eq, known]
  cases list with
  | some found => exact ⟨found, amid⟩
  | none =>
    simp only [Option.isNone_none, if_true, Code.bind_assoc]
    refine network_amid amid (.userauthList ..) (by simp [Stage.Last]) (fun found errno => ⟨_, rfl, fun _ same => ?_⟩)
      fun found errno later start now moved works => ?_
    · cases same
    obtain rfl := Option.some.inj moved
    have amid := works.mono works.holds.there
    have closed : (now.sftp this).readThreadState ≠ .open_ := closed_amid amid fun _ same => by cases same
    refine assign_amid amid (.userauthlist found) (fun open_ => (closed open_).elim) (fun _ same => by cases same)
      fun after assigned _ => ?_
    have amid : Amid build strict this methods thread (.shaken found) found pointer start after :=
      amid.holds.pointer ▸ assigned
    have waits : (wait build this).Within (minding this (.shaken found)) := (minding_waits (by simp)).wait
    exact minding_bears.plain setting_regular.orderly waits amid fun _ start now amid => ⟨found, amid⟩

theorem message_minding {stage : Stage} : (message this 0).Within (minding this stage) :=
  message_within ⟨rfl, fun _ => ⟨rfl, rfl⟩⟩ (.inl (by decide))

/-- The stage after the key was not accepted, or not offered. -/
def Stage.keyless (offered : String) : Stage :=
  if strstr offered "publickey" then if strstr offered "password" then .refused offered else .failed
  else .shaken (some offered)

theorem tryPublickey_amid {options : ConnectionOptions} {offered : String}
    (amid : Amid build strict this methods thread (.shaken (some offered)) (some offered) pointer start now) :
    (setting strict this methods build).rules.Holds thread (tryPublickey build this options 0)
      (fun ok => Amid build strict this methods thread (if ok then .authenticated else .keyless offered) (some offered)
        pointer) start now := by
  rw [tryPublickey]
  refine op_amid amid (.member this) trivial (fun _ => trivial) fun _ sftp _ executed amid => ?_
  cases executed
  rw [amid.holds.list, advertises_some]
  split
  next key =>
    refine network_amid amid (.userauthPublickeyFromfileEx ..) (by simp [Stage.Last]) (fun rc errno => ?_)
      fun (rc : Int) errno later start now moved works => ?_
    · refine ⟨_, if_pos key, fun opened same => ?_⟩
      split at same
      · cases same
      · split at same <;> cases same
    have amid := works.mono works.holds.there
    obtain rfl := Option.some.inj ((if_pos key).symm.trans moved)
    split
    next accepted =>
      rw [if_pos accepted] at amid
      exact amid
    next rejected =>
      rw [if_neg rejected] at amid
      have keyless : Stage.keyless offered = if strstr offered "password" then .refused offered else .failed :=
        if_pos key
      rw [← keyless] at amid
      refine minding_bears.plain setting_regular.orderly message_minding amid fun _ start now amid => ?_
      exact minding_bears.plain setting_regular.orderly yieldToAnyThread_within amid fun _ start now amid => amid
  next keyless =>
    rw [Stage.keyless, if_neg keyless]
    exact amid

theorem tryPassword_amid {options : ConnectionOptions} {offered : String}
    (amid : Amid build strict this methods thread (.keyless offered) (some offered) pointer start now) :
    (setting strict this methods build).rules.Holds thread (tryPassword build this options 0)
      (fun ok start now => ∃ stage, (ok = true → stage = .authenticated) ∧
        Amid build strict this methods thread stage (some offered) pointer start now) start now := by
  rw [tryPassword]
  refine op_amid amid (.member this) trivial (fun _ => trivial) fun _ sftp _ executed amid => ?_
  cases executed
  rw [amid.holds.list, advertises_some]
  split
  next password =>
    have next (rc : Int) (errno : Int) : (Stage.keyless offered).next methods ⟨.userauthPassword, rc, errno⟩ =
        some (if rc ≥ 0 then .authenticated else .failed) := by
      by_cases key : strstr offered "publickey" = true <;> simp [Stage.keyless, key, password, Stage.next]
    have early : ¬ (Stage.keyless offered).Last := by
      by_cases key : strstr offered "publickey" = true <;> simp [Stage.keyless, key, password, Stage.Last]
    refine network_amid amid (.userauthPassword ..) early (fun rc errno => ?_)
      fun (rc : Int) errno later start now moved works => ?_
    · refine ⟨_, next rc errno, fun opened same => ?_⟩
      split at same <;> cases same
    have amid := works.mono works.holds.there
    obtain rfl := Option.some.inj ((next rc errno).symm.trans moved)
    split
    next accepted => exact ⟨_, fun _ => if_pos accepted, amid⟩
    next rejected =>
      rw [if_neg rejected] at amid
      refine minding_bears.plain setting_regular.orderly message_minding amid fun _ start now amid => ?_
      refine minding_bears.plain setting_regular.orderly yieldToAnyThread_within amid fun _ start now amid => ?_
      exact ⟨_, fun same => (Bool.false_ne_true same).elim, amid⟩
  next passwordless => exact ⟨_, fun same => (Bool.false_ne_true same).elim, amid⟩

theorem authenticate_amid {options : ConnectionOptions} {offered : String}
    (amid : Amid build strict this methods thread (.shaken (some offered)) (some offered) pointer start now) :
    (setting strict this methods build).rules.Holds thread (authenticate build this options 0)
      (fun _ => Amid build strict this methods thread .authenticated (some offered) pointer) start now := by
  rw [authenticate]
  refine op_amid amid (.member this) trivial (fun _ => trivial) fun _ sftp _ executed amid => ?_
  cases executed
  have known := amid.holds.list
  simp only [known, bind_eq]
  refine minding_bears.plain setting_regular.orderly yieldToAnyThread_within amid fun _ start now amid => ?_
  refine ((tryPublickey_amid amid).mono fun ok start now amid => ?_).bind
  cases ok with
  | true => exact minding_bears.holds setting_regular.orderly yieldToAnyThread_within amid
  | false =>
    refine ((tryPassword_amid amid).mono fun ok start now ⟨stage, accepted, amid⟩ => ?_).bind
    cases ok with
    | true =>
      obtain rfl := accepted rfl
      exact minding_bears.holds setting_regular.orderly yieldToAnyThread_within amid
    | false => exact (readErrorThrow_amid amid).bind

theorem initSftp_amid (amid : Amid build strict this methods thread .authenticated list pointer start now) :
    (setting strict this methods build).rules.Holds thread (initSftp build this) (fun _ start now =>
      ∃ pointer, Amid build strict this methods thread (.initialized pointer) list (some pointer) start now)
      start now := by
  refine ⟨fun _ start now => ∃ pointer, Amid build strict this methods thread .authenticated list pointer start now,
    ⟨pointer, amid⟩, fun _ start now ⟨pointer, amid⟩ => ?_⟩
  refine network_amid amid .sftpInit (by simp [Stage.Last]) (fun found errno => ?_)
    fun found errno later start now moved works => ?_
  · cases found with
    | some opened => exact ⟨_, rfl, fun _ same => by cases same⟩
    | none =>
      refine ⟨_, rfl, fun _ same => ?_⟩
      split at same <;> cases same
  have early (opened : Ptr) : later ≠ .opened opened := by
    rintro rfl
    cases found with
    | some => cases moved
    | none =>
      simp only [Stage.next, Option.some.injEq] at moved
      split at moved <;> cases moved
  have amid := works.mono works.holds.there
  have heard := works.holds.errno early
  have closed : (now.sftp this).readThreadState ≠ .open_ := closed_amid amid early
  refine assign_amid amid (.sftpPointer found) (fun open_ => (closed open_).elim)
    (fun opened same => (early opened same).elim)
    fun after assigned kept => ?_
  have amid : Amid build strict this methods thread later list found start after := amid.holds.list ▸ assigned
  have heard : (after.session this).errno = errno := kept.trans heard
  cases found with
  | some opened =>
    obtain rfl := Option.some.inj moved
    refine op_amid amid (.member this) trivial (fun _ => trivial) fun _ sftp _ executed amid => ?_
    cases executed
    have known := amid.holds.pointer
    simp only [pure_eq, known]
    exact ⟨opened, amid⟩
  | none =>
    obtain rfl := Option.some.inj moved
    simp only [when, Option.isNone_none, if_true, bind_eq, Code.bind_assoc]
    refine Discipline.holds_read (fun _ => rfl) amid.ends.invariant ?_
    rw [heard]
    by_cases again : errno = LIBSSH2_ERROR_EAGAIN
    · simp only [again, if_true, Code.bind_assoc] at amid ⊢
      refine minding_bears.plain setting_regular.orderly (minding_waits (by simp)).wait amid fun _ start now amid => ?_
      refine op_amid amid (.member this) trivial (fun _ => trivial) fun _ sftp _ executed amid => ?_
      cases executed
      have known := amid.holds.pointer
      simp only [pure_eq, known]
      exact ⟨none, amid⟩
    · simp only [if_neg again, Code.bind_assoc] at amid ⊢
      refine minding_bears.plain setting_regular.orderly message_minding amid fun msg start now amid => ?_
      exact (readErrorThrow_amid amid).bind

theorem setUp_amid {options : ConnectionOptions}
    (amid : Amid build strict this methods thread .begun methods pointer start now) :
    (setting strict this methods build).rules.Holds thread (setUp build this options) (fun _ start now =>
      ∃ list pointer, Amid build strict this methods thread (.opened pointer) list (some pointer) start now)
      start now := by
  rw [setUp]
  refine network_amid amid .socket (by simp [Stage.Last]) (fun sock errno => ⟨_, rfl, fun _ same => ?_⟩)
    fun (sock : Int) errno later start now moved works => ?_
  · split at same <;> cases same
  obtain rfl := Option.some.inj moved
  have amid := works.mono works.holds.there
  refine op_amid amid (.assign this (.sock sock)) (.inl ⟨sock, rfl⟩) (fun _ => trivial) fun _ _ _ _ amid => ?_
  by_cases invalid : sock = LIBSSH2_INVALID_SOCKET
  · rw [when, if_pos invalid]
    exact (readErrorThrow_amid amid).bind
  rw [if_neg invalid] at amid
  rw [when, if_neg invalid]
  refine library_amid amid (.inetAddr options.addr) (by simp [Stage.Last])
    (fun hostaddr errno => ⟨_, rfl, fun _ same => by cases same⟩) fun hostaddr errno later after moved works => ?_
  obtain rfl := Option.some.inj moved
  have amid := works.mono works.holds.there
  refine op_amid amid (.member this) trivial (fun _ => trivial) fun _ sftp _ _ amid => ?_
  refine network_amid amid (.connect ..) (by simp [Stage.Last]) (fun rc errno => ⟨_, rfl, fun _ same => ?_⟩)
    fun (rc : Int) errno later start now moved works => ?_
  · split at same <;> cases same
  obtain rfl := Option.some.inj moved
  have amid := works.mono works.holds.there
  by_cases failed : rc ≠ 0
  · rw [if_neg failed] at amid
    rw [when, if_pos failed]
    exact (readErrorThrow_amid amid).bind
  rw [if_pos (not_not.mp failed)] at amid
  rw [when, if_neg failed]
  refine ((handshake_amid amid).mono fun rc start now amid => ?_).bind
  by_cases failed : rc ≠ 0
  · rw [if_neg failed] at amid
    simp only [when, if_pos failed, bind_eq, Code.bind_assoc]
    refine minding_bears.plain setting_regular.orderly message_minding amid fun msg start now amid => ?_
    exact (readErrorThrow_amid amid).bind
  obtain rfl := not_not.mp failed
  rw [when, if_neg failed]
  refine op_amid amid (.library this .hostkeyHash) rfl (fun same => by cases same) fun _ _ _ _ amid => ?_
  refine ((listMethods_amid amid).mono fun _ start now listed => ?_).bind
  obtain ⟨offered, amid⟩ := listed
  refine ((authenticate_amid amid).mono fun _ start now amid => ?_).bind
  refine ((initSftp_amid amid).mono fun _ start now initialized => ?_).bind
  obtain ⟨pointer, amid⟩ := initialized
  refine network_amid amid .channelOpenSession (by simp [Stage.Last])
    (fun channel errno => ⟨_, rfl, fun opened same => by cases same; rfl⟩)
      fun channel errno later start now moved works => ?_
  obtain rfl := Option.some.inj moved
  have amid := works.mono works.holds.there
  refine op_amid amid (.assign this (.channel channel)) (.inr ⟨channel, rfl⟩) (fun _ => trivial) fun _ _ after _ amid =>
    ?_
  have pointed := amid.holds.pointer
  refine assign_amid amid (.readThreadState .open_) (fun _ => ⟨pointer, rfl⟩) (fun opened same => ?_)
    fun after amid _ => ?_
  · cases same
    exact pointed
  · rw [show ((Assign.readThreadState .open_).apply _).sftpPointer = some pointer from pointed] at amid
    exact ⟨_, pointer, amid⟩

/-- Reading goes on until an error, which every end of it is. -/
theorem serve_amid {opened : Ptr} (amid : Amid build strict this methods thread (.opened opened) list pointer start now)
    {post : Unit → Client → Client → Prop} :
    (setting strict this methods build).rules.Holds thread (serve build this) post start now := by
  have calm (o : Op) (aside : o.Aside) : (minding this (.opened opened)).ops o := ⟨aside, fun same => by cases same⟩
  refine ⟨fun _ => Amid build strict this methods thread (.opened opened) list pointer, amid, fun _ start now amid =>
    ?_⟩
  refine minding_bears.plain setting_regular.orderly ?_ amid fun goesOn start now amid => ?_
  · refine .op (calm _ trivial) fun sftp _ => ?_
    split
    · exact .op (calm _ rfl) fun _ _ => trivial
    · trivial
  cases goesOn with
  | false => exact readErrorThrow_amid amid
  | true =>
    simp only [if_true, bind_eq, Code.bind_assoc]
    refine op_amid amid (.member this) trivial (fun _ => trivial) fun _ sftp _ _ amid => ?_
    refine minding_bears.plain setting_regular.orderly (network_within (calm (.library this (.channelRead ..)) rfl))
      amid fun rc start now amid => ?_
    by_cases failed : rc ≤ 0
    · rw [when, if_pos failed]
      exact (readErrorThrow_amid amid).bind
    · rw [when, if_neg failed]
      exact minding_bears.plain setting_regular.orderly yieldToAnyThread_within amid fun _ start now amid => amid

/-- The body of the read thread ends with an error, or does nothing where the command is Exit. -/
theorem readThread_amid {options : ConnectionOptions}
    (amid : Amid build strict this methods thread .begun methods pointer start now) :
    (setting strict this methods build).rules.Holds thread (readThread build this options)
      (fun _ => Amid build strict this methods thread .begun methods pointer) start now := by
  rw [readThread]
  refine op_amid amid (.member this) trivial (fun _ => trivial) fun _ sftp _ _ amid => ?_
  split
  · exact amid
  · refine ((setUp_amid amid).mono fun _ start now ⟨_, opened, amid⟩ => ?_).bind
    exact serve_amid amid

theorem Begun.spawnedStage (begun : Begun strict this methods thread before) (child : ThreadId)
    (options : ConnectionOptions) :
    stageOf strict this methods (spawned thread child (.readThread this options) before).log = some .begun :=
  (stageOf_aside fun _ shown => by cases shown).trans begun.stage

theorem Begun.spawned (begun : Begun strict this methods thread before)
    (kept : Setting strict this methods build before)
    (child : ThreadId) (options : ConnectionOptions) :
    Setting strict this methods build (spawned thread child (.readThread this options) before) := by
  refine kept.goesOn rfl ⟨rfl, rfl, rfl⟩ (fun _ shown => by cases shown) (fun _ same => by cases same)
    (fun failed _ => ?_)
    fun _ => begun.stage
  cases begun.stage.symm.trans failed

/-- A thread of which nothing is known. -/
abbrev Idles (build : Build) (strict : Bool) (this : Ptr) (methods : Option String) (thread : ThreadId) :
    Client → Client → Prop :=
  (setting strict this methods build).rules.Works thread fun _ => True

theorem waiting_opened (idles : Idles build strict this methods thread start now) :
    (setting strict this methods build).rules.Holds thread
      (repeatWhile (do return (← perform (.member this)).readThreadState ≠ .open_) (yieldToAnyThread build))
      (fun _ => (setting strict this methods build).rules.Works thread fun client =>
        ∃ opened, stageOf strict this methods client.log = some (.opened opened)) start now := by
  refine ⟨fun _ => Idles build strict this methods thread, idles, fun _ start now idles => ?_⟩
  refine @Discipline.holds_read _ _ _ _ _ _ (.member this) _ _ _ (fun _ => rfl) idles.ends.invariant ?_
  by_cases open_ : (now.sftp this).readThreadState = .open_
  · simp only [pure_eq, bind_eq, open_]
    exact idles.mono (idles.ends.invariant.open_ open_)
  · simp only [pure_eq, bind_eq, ne_eq, open_, not_false_eq_true, decide_true, if_true]
    exact Discipline.holds_yieldToAnyThread idles setting_regular (fun _ _ _ _ _ _ => trivial) fun start now idles =>
      idles

/-- The thread that sets an object up itself does not get past the wait for the state Open. -/
theorem waiting_never {linux : Bool}
    (amid : Amid (.direct linux) strict this methods thread stage list pointer start now)
    (early : ∀ opened, stage ≠ .opened opened) {post : Unit → Client → Client → Prop} :
    (setting strict this methods (.direct linux)).rules.Holds thread
      (repeatWhile (do return (← perform (.member this)).readThreadState ≠ .open_) (yieldToAnyThread (.direct linux)))
      post start now := by
  refine ⟨fun _ => Amid (.direct linux) strict this methods thread stage list pointer, amid, fun _ start now amid => ?_⟩
  refine @Discipline.holds_read _ _ _ _ _ _ (.member this) _ _ _ (fun _ => rfl) amid.ends.invariant ?_
  simp only [pure_eq, bind_eq, ne_eq, closed_amid amid early, not_false_eq_true, decide_true, if_true]
  exact amid

theorem connect_begun {options : ConnectionOptions} (begun : (setting strict this methods build).rules.Works thread
    (Begun strict this methods thread) start now) :
    (setting strict this methods build).rules.Holds thread (connect build this options)
      (fun _ => (setting strict this methods build).rules.Works thread fun client =>
        Completed strict this methods build client.log) start now := by
  have there := begun.holds
  cases build with
  | direct =>
    have amid : Amid _ strict this methods thread .begun methods (now.sftp this).sftpPointer start now :=
      begun.mono ⟨there.owner, there.stage, nofun, there.list, rfl⟩
    refine ((readThread_amid amid).mono fun _ start now amid => ?_).bind
    exact waiting_never amid fun _ same => by cases same
  | retro =>
    intro input err after _ executed
    obtain ⟨_, _, same⟩ := exec_newThread executed
    have log : after.log = now.log := by rw [same]
    have sftp : after.sftp = now.sftp := by rw [same]
    have set : Setting strict this methods .retro after :=
      begun.ends.invariant.silent log ⟨by rw [sftp], by rw [sftp], by rw [sftp]⟩
    have stays : Begun strict this methods thread after :=
      ⟨log ▸ there.owner, log ▸ there.stage, sftp ▸ there.list⟩
    replace begun := begun.step setting_regular.orderly
      (ends_owner there.owner set fun _ different => .exec different executed) stays
    replace there := stays
    refine ⟨set, ?_⟩
    by_cases negative : err < 0
    · simp only [Code.pure_bind, if_pos negative]
      refine Discipline.holds_yieldToAnyThread (begun.mono trivial) setting_regular (fun _ _ _ _ _ _ => trivial)
        fun start now idles => (waiting_opened idles).mono fun _ _ _ works => works.mono ⟨rfl, works.holds⟩
    · simp only [Code.pure_bind, if_neg negative]
      intro child other fresh
      have set := there.spawned begun.ends.invariant child options
      have ends : (setting strict this methods .retro).rules.Ends thread after _ :=
        ends_owner there.owner set fun other different => ⟨rfl, [.spawned thread child (.readThread this options)], rfl,
          by simpa [Event.thread] using Ne.symm different⟩
      refine ⟨set, begun.ends.trans setting_regular.orderly ends, ⟨rfl, rfl, (after.sftp this).sftpPointer, ?_⟩, ?_⟩
      · exact ⟨owner_concat.trans (by simp [Event.owns]), there.spawnedStage child options, fun _ => rfl, there.list,
          rfl⟩
      · refine (waiting_opened (.begins setting_regular.orderly set trivial)).mono fun _ _ _ works => ?_
        exact works.mono ⟨rfl, works.holds⟩

end walk

/-- The set-up is at its end once `connect` has returned. -/
theorem Setting.opened {client : Client} (setting : Setting strict this methods build client)
    (connected : Connected this client) :
    Completed strict this methods build client.log := by
  obtain ⟨actor, member⟩ := connected
  obtain ⟨past, rest, split⟩ := List.append_of_mem member
  obtain ⟨retro, opened, reached⟩ := setting.returns past _ rest split actor rfl
  obtain ⟨last, ordered⟩ := setting.ordered
  rw [split] at ordered
  obtain ⟨rfl, _⟩ := stageOf_last (Or.inr ⟨opened, rfl⟩) reached ordered
  exact ⟨retro, opened, split ▸ ordered⟩

/-- What the methods of an object may do that is connected. -/
def using_ : Allowance signature where
  ops := Op.Aside
  disposes _ := True
  throws := True
  exits := True

theorem using_methods : Methods build this fun {_} code => code.Within using_ :=
  (permits_within (fun _ minor => minor.aside) (fun _ _ => trivial) trivial trivial (fun _ _ _ => trivial) fun _ =>
    trivial).methods
    fun _ aside => perform_within aside

theorem Setting.passes {events : List Event} (setting : Setting strict this methods build before)
    (connected : Connected this before) (passes : Passes this thread before after events) :
    Setting strict this methods build after ∧ Kept strict this methods before after ∧ Connected this after := by
  obtain ⟨_, opened, stage⟩ := setting.opened connected
  obtain ⟨actor, member⟩ := connected
  refine ⟨passes.setting setting fun _ _ failed => ?_, passes.kept fun closed => ?_, actor, ?_⟩
  · cases stage.symm.trans failed
  · exact (closed opened stage).elim
  · exact passes.log ▸ List.mem_append_left _ member

theorem using_bears : (setting strict this methods build).rules.Bears thread using_ (Connected this) where
  op o input now reply after aside _ executed kept connected := by
    obtain ⟨events, passes, _⟩ := exec_passes aside executed
    obtain ⟨set, same, connected⟩ := kept.passes connected passes
    exact ⟨set, Discipline.ends_op executed set fun _ _ _ => same, connected, trivial⟩
  waits before after _ moved _ connected := by
    obtain ⟨more, log, _⟩ := moved.1.log
    obtain ⟨actor, member⟩ := connected
    exact ⟨actor, log ▸ List.mem_append_left _ member⟩
  threw _ now kept connected := by
    obtain ⟨set, same, _⟩ := kept.passes connected .threw
    exact ⟨Discipline.ends_record rfl set fun _ _ _ => same, trivial⟩
  exited _ now kept connected := by
    obtain ⟨set, same, _⟩ := kept.passes connected .exited
    exact Discipline.ends_record rfl set fun _ _ _ => same
  spawned _ _ _ never := never.elim
  disposed other now _ kept connected := by
    obtain ⟨set, same, connected⟩ := kept.passes connected .disposed
    exact ⟨set, Discipline.ends_record rfl set fun _ _ _ => same, fun _ => connected⟩

theorem Setting.returned {client : Client} {value : Value} (setting : Setting strict this methods build client)
    (completed : Completed strict this methods build client.log) :
    Setting strict this methods build (client.record (.returned thread value)) ∧
      Kept strict this methods client (client.record (.returned thread value)) := by
  have aside : Event.Aside this (.returned thread value) := fun _ shown => by cases shown
  obtain ⟨_, opened, stage⟩ := id completed
  refine ⟨setting.goesOn rfl ⟨rfl, rfl, rfl⟩ aside (fun _ _ => completed) (fun failed _ => ?_) fun some =>
    (some rfl).elim,
    owner_concat, stageOf_aside aside, rfl, rfl, rfl, fun _ => rfl⟩
  cases stage.symm.trans failed

theorem setting_sound : (setting strict this methods build).rules.Sound := by
  refine setting_regular.sound ?_ ?_ ?_
  · intro actor entry client allowed kept _ outside
    have allowed : (connecting build this).calls actor entry client := by
      cases strict <;> exact allowed
    cases entry with
    | construct | readThread => exact allowed.elim
    | connect object options =>
      obtain ⟨rfl, none⟩ := allowed
      obtain ⟨stage, list⟩ := kept.fresh none
      have aside : Event.Aside object (.called actor (.connect object options)) := fun _ shown => by cases shown
      have set : Setting strict object methods build (client.record (.called actor (.connect object options))) := by
        refine kept.goesOn rfl ⟨rfl, rfl, rfl⟩ aside (fun _ same => by cases same) (fun failed _ => ?_) fun _ => stage
        cases stage.symm.trans failed
      refine ⟨set, ⟨rfl, owner_concat.trans (by simp [Event.owns]), (stageOf_aside aside).trans stage, list⟩, ?_⟩
      exact fun other _ owns => by cases none.symm.trans owns
    | operate object operation =>
      obtain ⟨rfl, connected⟩ := allowed
      obtain ⟨set, same, connected⟩ := kept.passes connected
        (@Passes.record object actor client (.called actor (.operate object operation)) rfl
          (fun _ shown => by cases shown) rfl
          fun _ same => by cases same)
      exact ⟨set, ⟨rfl, connected⟩, fun _ _ _ => same⟩
    | destroy object =>
      obtain ⟨rfl, connected⟩ := allowed
      obtain ⟨set, same, connected⟩ := kept.passes connected
        (@Passes.record object actor client (.called actor (.destroy object)) rfl (fun _ shown => by cases shown) rfl
          fun _ same => by cases same)
      exact ⟨set, ⟨rfl, connected⟩, fun _ _ _ => same⟩
  · intro object command client _ kept
    have agrees : Agrees this client (client.update object ({ · with readThreadCommand := command })) :=
      .update (fun _ => rfl) (fun _ => rfl) fun _ => rfl
    exact ⟨kept.silent rfl agrees, fun thread _ => ⟨rfl, rfl, rfl, agrees.list, agrees.pointer, fun _ => rfl⟩⟩
  · intro entry actor client kept ready
    have orderly := (@setting_regular build strict this methods).orderly
    have returns {value : Value} {start now : Client} (works : (setting strict this methods build).rules.Works actor
        (fun client => Completed strict this methods build client.log) start now) :
        (setting strict this methods build).rules.Returns actor value start now := by
      obtain ⟨set, same⟩ := @Setting.returned build strict this methods actor now value works.ends.invariant works.holds
      exact ⟨works.ends.trans orderly (Discipline.ends_record rfl set fun _ _ _ => same), trivial⟩
    cases entry with
    | construct => exact ready.elim
    | connect object options =>
      obtain ⟨rfl, begun⟩ := ready
      apply Rules.Holds.bind
      apply (connect_begun (.begins orderly kept begun)).mono
      exact fun value start now works => returns works
    | readThread object options =>
      obtain ⟨rfl, retro, pointer, there⟩ := ready
      apply Rules.Holds.bind
      apply (readThread_amid (.begins orderly kept there)).mono
      intro value start now amid
      have passes : Passes object actor now (now.record (.returned actor .none)) [.returned actor .none] :=
        .record rfl (fun _ shown => by cases shown) rfl fun _ same => by cases same
      have there := amid.holds
      have set := passes.setting amid.ends.invariant fun _ _ failed => by cases there.stage.symm.trans failed
      exact ⟨amid.ends.trans orderly (ends_owner there.owner set fun _ different => .record rfl different), trivial⟩
    | operate object operation =>
      obtain ⟨rfl, connected⟩ := ready
      apply (using_bears.holds orderly (using_methods.operate operation)
        (.begins orderly kept connected)).mono
      exact fun value start now works => returns (works.mono (works.ends.invariant.opened works.holds))
    | destroy object =>
      obtain ⟨rfl, connected⟩ := ready
      apply Rules.Holds.bind
      apply (using_bears.holds orderly (using_methods.destroy (perform_within trivial))
        (.begins orderly kept connected)).mono
      exact fun value start now works => returns (works.mono (works.ends.invariant.opened works.holds))

theorem Setting.first {client : Client} (empty : client.log = [])
    (unconnected : (client.sftp this).readThreadState = .uninitialized) :
    Setting strict this (client.sftp this).userauthlist build client where
  ordered := ⟨.begun, by rw [empty]; rfl⟩
  open_ open_ := by cases unconnected.symm.trans open_
  pointer opened := by
    rw [empty] at opened
    cases opened
  returns := empty ▸ .nil
  failing := empty ▸ .nil
  owned := empty ▸ .nil
  fresh _ := ⟨by rw [empty]; rfl, rfl⟩

/-- Every run of one object keeps to the stages. -/
theorem setting_everywhere {client : Client} {count : Nat} (starts : client.Starts count)
    (unconnected : (client.sftp this).readThreadState = .uninitialized) {world : World (kernel build)}
    (reached : (if strict then checking build this else connecting build this).Reaches
      (World.initial client count) world) :
    Setting strict this (client.sftp this).userauthlist build world.state := by
  have safe := @Discipline.starts_safe build (setting strict this (client.sftp this).userauthlist build) client count
    starts (.first starts.log unconnected) fun _ => trivial
  exact setting_sound.everywhere safe rfl (fun _ kept => kept) (fun _ _ _ stepped => stepped) reached

end PowerBoot.Transfer
