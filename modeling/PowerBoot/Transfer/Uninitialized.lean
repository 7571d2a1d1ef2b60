import PowerBoot.Transfer.Unset

/-! The code of an object over two memories. Each of its functions does the same in both, once
the members are set that it reads. -/

namespace PowerBoot.Transfer
open Coop Code

section code
variable {memory memory' : Ptr → Sftp} {build : Build} {thread : ThreadId} {object : Ptr} {members : List Unset}
  {client client' after after' : Client} {α β : Type}

theorem Holding.moves (holding : Holding memory memory' object members client client')
    (moves : (memories memory memory' build).Moves client client' after after') :
    Holding memory memory' object members after after' :=
  ⟨moves.related, moves.kept.constructed object holding.constructed,
    fun member set => moves.kept.agree object member (holding.agree member set)⟩

section members
variable (holding : Holding memory memory' object members client client')
include holding

theorem Holding.sock (set : .sock ∈ members) : (client'.sftp object).sock = (client.sftp object).sock :=
  holding.agree _ set

theorem Holding.pointer (set : .sftpPointer ∈ members) :
    (client'.sftp object).sftpPointer = (client.sftp object).sftpPointer := holding.agree _ set

theorem Holding.channel (set : .channel ∈ members) : (client'.sftp object).channel = (client.sftp object).channel :=
  holding.agree _ set

theorem Holding.handle (set : .sftpHandle ∈ members) :
    (client'.sftp object).sftpHandle = (client.sftp object).sftpHandle := holding.agree _ set

theorem Holding.methods (set : .userauthlist ∈ members) :
    (client'.sftp object).userauthlist = (client.sftp object).userauthlist := holding.agree _ set

end members

theorem Related.stays (related : Related memory memory' client client') :
    (memories memory memory' build).Moves client client' client client' :=
  ⟨related, fun _ _ agree => agree, fun _ => id⟩

variable (memory memory' build thread) in
/-- The code does the same in both runs, and keeps what is known. -/
abbrev Twice (object : Ptr) (members : List Unset) (code : Program α) (post : α → Client → Client → Prop) : Prop :=
  (memories memory memory' build).Matches thread (Holding memory memory' object members) code post

variable (memory memory' build thread) in
abbrev Twin (object : Ptr) (members : List Unset) (code : Program α) : Prop :=
  Twice memory memory' build thread object members code fun _ => Holding memory memory' object members

theorem perform_twin {o : Op} (fits : ∀ {client client'}, Holding memory memory' object members client client' →
    o.Fits client client') :
    Twin memory memory' build thread object members (perform o) := by
  intro client client' holding
  refine ⟨.pure, rfl, fun input input' reply after _ alike executed => ?_⟩
  obtain ⟨after', executed', related, settled⟩ := exec_related holding.related (fits holding) alike executed
  exact ⟨reply, after', executed', ⟨related, settled⟩, reply, rfl, rfl, holding.moves ⟨related, settled⟩⟩

theorem assign_twice (assigned : Assign) (member : Unset)
    (fits : ∀ client client', (Op.assign object assigned).Fits client client')
    (sets : ∀ first second : Sftp, member.Agree (assigned.apply first) (assigned.apply second)) :
    Twice memory memory' build thread object members (perform (.assign object assigned))
      fun _ => Holding memory memory' object (member :: members) := by
  intro client client' holding
  refine ⟨.pure, rfl, fun input input' reply after _ alike executed => ?_⟩
  have executed : exec thread (.assign object assigned) input client = some (reply, after) := executed
  obtain ⟨after', executed', related, settled⟩ := exec_related holding.related (fits _ _) alike executed
  refine ⟨reply, after', executed', ⟨related, settled⟩, reply, rfl, rfl, ?_⟩
  have moves : (memories memory memory' build).Moves client client' after after' := ⟨related, settled⟩
  have later := holding.moves moves
  refine ⟨related, later.constructed, fun found known => ?_⟩
  rcases List.mem_cons.mp known with rfl | known
  · cases executed
    cases executed'
    simp only [Client.update, Function.update_self]
    exact sets _ _
  · exact later.agree found known

theorem member_either {rest : Sftp → Program α} {post : α → Client → Client → Prop}
    (then_ : ∀ client client', Holding memory memory' object members client client' →
      (memories memory memory' build).Same thread (rest (client.sftp object)) (rest (client'.sftp object))
        (fun value value' now now' => value' = value ∧ post value now now') client client') :
    Twice memory memory' build thread object members ((perform (.member object)).bind rest) post := by
  intro client client' holding
  refine ⟨rest, rfl, fun input input' reply after _ alike executed => ?_⟩
  cases executed
  exact ⟨client'.sftp object, client', rfl, holding.related.stays, then_ client client' holding⟩

theorem member_twice {rest : Sftp → Program α} {post : α → Client → Client → Prop}
    (same : ∀ {client client'}, Holding memory memory' object members client client' →
      rest (client'.sftp object) = rest (client.sftp object))
    (then_ : ∀ sftp, Twice memory memory' build thread object members (rest sftp) post) :
    Twice memory memory' build thread object members ((perform (.member object)).bind rest) post := by
  refine member_either fun client client' holding => ?_
  rw [same holding]
  exact then_ _ _ _ holding

theorem yieldToAnyThread_twin : Twin memory memory' build thread object members (yieldToAnyThread build) := by
  intro client client' holding
  cases build with
  | retro => exact ⟨.pure (), rfl, fun later later' moves => ⟨(), rfl, rfl, holding.moves moves⟩⟩
  | direct => exact ⟨(), rfl, rfl, holding⟩

/-- `dir` is not set, but its bits decide alike what is selected. -/
theorem wait_twin (set : .sock ∈ members) : Twin memory memory' build thread object members (wait build object) := by
  have composes := @Twins.Matches.composes _ _ (memories memory memory' build) thread
    (Holding memory memory' object members)
  refine composes.bind (perform_twin fun _ => trivial) fun _ => ?_
  intro client client' holding
  refine ⟨_, rfl, fun input input' reply after _ alike executed => ?_⟩
  cases input with
  | dir bits =>
    obtain ⟨bits', rfl, inbound, outbound⟩ := alike
    cases executed
    refine ⟨bits', client', rfl, holding.related.stays, ?_⟩
    simp only [Code.pure_bind, inbound, outbound]
    refine member_twice (fun holding => ?_) (fun sftp => ?_) client client' holding
    · simp only [holding.sock set]
    refine composes.iterate fun _ => composes.bind (perform_twin fun _ => trivial) fun next => ?_
    cases next with
    | halts => exact composes.bind yieldToAnyThread_twin fun _ => composes.pure _
    | returns => exact composes.pure _
    | throws => exact fun _ _ _ => rfl
  | _ => cases executed

theorem sftpPointer_twin (set : .sftpPointer ∈ members) :
    Twin memory memory' build thread object members (sftpPointer object) :=
  member_twice (fun holding => congrArg Code.pure (holding.pointer set)) fun _ => .pure _

theorem stop_twin {other : ThreadId} : Twin memory memory' build thread object members (stop other) := by
  intro client client' holding
  have moves : (memories memory memory' build).Moves client client' (client.record (.disposed thread other))
      (client'.record (.disposed thread other)) := holding.related.record nofun nofun
  exact ⟨.pure (), rfl, (), rfl, rfl, holding.moves moves⟩

theorem disposeThread_twin (name : Option ThreadId) :
    Twin memory memory' build thread object members (disposeThread name) := by
  cases name with
  | some other => exact stop_twin
  | none => exact .pure _

theorem leave_twin {dispose : Program Unit} (disposes : Twin memory memory' build thread object members dispose) :
    Twin memory memory' build thread object members (leave build dispose) := by
  cases build with
  | retro => exact disposes.bind fun _ => yieldToAnyThread_twin
  | direct => exact fun _ _ _ => rfl

theorem errorThrow_twin (format : String) (arguments : List String) :
    Twin memory memory' build thread object members (errorThrow build format arguments) :=
  .bind (perform_twin fun _ => trivial) fun _ => yieldToAnyThread_twin.bind fun _ =>
    leave_twin (.bind (perform_twin fun _ => trivial) fun _ => stop_twin)

theorem readErrorThrow_twin (format : String) (arguments : List String) :
    Twin memory memory' build thread object members (readErrorThrow build format arguments) :=
  .bind (perform_twin fun _ => trivial) fun _ => yieldToAnyThread_twin.bind fun _ =>
    leave_twin (.bind (perform_twin fun _ => trivial) disposeThread_twin)

theorem Op.Blind.fits {o : Op} (blind : o.Blind) : o.Fits client client' := by
  cases o with
  | member | dir | assign => exact blind.elim
  | library this call =>
    obtain rfl : call = .sessionLastError := blind
    trivial
  | _ => trivial

theorem library_twin (call : Call) : Twin memory memory' build thread object members (library object call) := by
  refine perform_twin fun holding => ?_
  cases call <;> first | trivial | exact .inl holding.constructed

theorem composes_twin : Composes fun {_} code => Twin memory memory' build thread object members code :=
  Twins.Matches.composes

theorem network_twin (call : Call) : Twin memory memory' build thread object members (network build object call) :=
  network_safe composes_twin yieldToAnyThread_twin (library_twin call)

theorem message_twin (err : Int) : Twin memory memory' build thread object members (message object err) :=
  message_safe composes_twin (library_twin _) (.inr (perform_twin fun _ => trivial))

theorem permits_twin (sock : .sock ∈ members) (pointer : .sftpPointer ∈ members) :
    Permits build object fun {_} code => Twin memory memory' build thread object members code where
  toComposes := composes_twin
  blind _ blind := perform_twin fun _ => blind.fits
  yields := yieldToAnyThread_twin
  throws _ _ _ := rfl
  wait := wait_twin sock
  sftpPointer := sftpPointer_twin pointer
  noMessage := perform_twin fun _ => trivial
  errorThrow := errorThrow_twin

theorem methods_twin (sock : .sock ∈ members) (pointer : .sftpPointer ∈ members) :
    Methods build object fun {_} code => Twin memory memory' build thread object members code :=
  (permits_twin sock pointer).methods fun call _ => library_twin call

theorem destroy_twin (sock : .sock ∈ members) (pointer : .sftpPointer ∈ members) (handle : .sftpHandle ∈ members) :
    Twin memory memory' build thread object members (destroy build object) := by
  have composes := @composes_twin memory memory' build thread object members
  refine member_twice (fun holding => ?_) fun sftp => composes.bind (network_twin _) fun _ => ?_
  · rw [holding.handle handle]
  refine member_twice (fun holding => ?_) fun sftp => composes.bind (network_twin _) fun _ => ?_
  · rw [holding.pointer pointer]
  refine member_twice (fun holding => ?_) fun sftp => composes.bind (composes.when fun _ => ?_) fun _ => ?_
  · rw [(holding.related.alike object).session]
  · refine composes.bind (composes.repeatWhile ?_ (composes.pure _)) fun _ => ?_
    · exact composes.bind (network_twin _) fun _ => composes.pure _
    · exact composes.bind (library_twin _) fun _ => composes.pure _
  refine member_twice (fun holding => ?_) fun sftp => composes.bind (composes.when fun _ => ?_) fun _ => library_twin _
  · rw [holding.sock sock]
  · refine composes.bind (composes.when fun _ => ?_) fun _ => composes.bind (network_twin _) fun _ => composes.pure _
    exact composes.bind (network_twin _) fun _ => composes.pure _

end code

section setUp
variable {memory memory' : Ptr → Sftp} {build : Build} {thread : ThreadId} {object : Ptr} {members fewer : List Unset}
  {client client' : Client} {options : ConnectionOptions} {rc : Int}

theorem Holding.weaken (holding : Holding memory memory' object members client client') (included : fewer ⊆ members) :
    Holding memory memory' object fewer client client' :=
  ⟨holding.related, holding.constructed, fun member set => holding.agree member (included set)⟩

theorem handshake_twin (sock : .sock ∈ members) :
    Twin memory memory' build thread object members (handshake build object) := by
  have composes := @composes_twin memory memory' build thread object members
  refine composes.iterate fun _ => member_twice (fun holding => ?_) fun sftp => composes.bind (network_twin _)
    fun (rc : Int) => ?_
  · rw [holding.sock sock]
  split
  · exact composes.bind yieldToAnyThread_twin fun _ => composes.pure _
  · exact composes.pure _

theorem listMethods_twin (sock : .sock ∈ members) (methods : .userauthlist ∈ members) :
    Twin memory memory' build thread object members (listMethods build object options) := by
  have composes := @composes_twin memory memory' build thread object members
  refine composes.repeatWhile (member_twice (fun holding => ?_) fun _ => composes.pure _) ?_
  · rw [holding.methods methods]
  · refine composes.bind (network_twin _) fun found => composes.bind (perform_twin fun _ => trivial) fun _ => ?_
    exact composes.bind (wait_twin sock) fun _ => composes.pure _

theorem attempt_twin {call : Call} {accepts : call.function.Result → Prop} [DecidablePred accepts] :
    Twin memory memory' build thread object members ((network build object call).bind fun result =>
      if accepts result then .pure true
      else (message object rc).bind fun _ => (printf build).bind fun _ => .pure false) := by
  have composes := @composes_twin memory memory' build thread object members
  refine composes.bind (network_twin _) fun result => ?_
  split
  · exact composes.pure _
  · exact composes.bind (message_twin _) fun _ => composes.bind yieldToAnyThread_twin fun _ => composes.pure _

theorem authenticate_twin (methods : .userauthlist ∈ members) :
    Twin memory memory' build thread object members (authenticate build object options rc) := by
  have composes := @composes_twin memory memory' build thread object members
  have publickey : Twin memory memory' build thread object members (tryPublickey build object options rc) := by
    refine member_twice (fun holding => by rw [holding.methods methods]) fun sftp => ?_
    split
    · exact attempt_twin
    · exact composes.pure _
  have password : Twin memory memory' build thread object members (tryPassword build object options rc) := by
    refine member_twice (fun holding => by rw [holding.methods methods]) fun sftp => ?_
    split
    · exact attempt_twin
    · exact composes.pure _
  refine member_twice (fun holding => ?_) fun sftp => ?_
  · rw [holding.methods methods]
  split
  · refine composes.bind yieldToAnyThread_twin fun _ => composes.bind publickey fun accepted => ?_
    cases accepted with
    | true => exact yieldToAnyThread_twin
    | false =>
      refine composes.bind password fun accepted => ?_
      cases accepted with
      | true => exact yieldToAnyThread_twin
      | false => exact composes.bind (readErrorThrow_twin _ _) fun _ => yieldToAnyThread_twin
  · exact composes.bind (message_twin _) fun msg => readErrorThrow_twin _ _

theorem initSftp_twice (sock : .sock ∈ members) :
    Twice memory memory' build thread object members (initSftp build object) fun _ =>
      Holding memory memory' object (.sftpPointer :: members) := by
  have composes := @composes_twin memory memory' build thread object (.sftpPointer :: members)
  refine Twins.Matches.iterate fun _ => (network_twin _).bind fun pointer => ?_
  refine (assign_twice (.sftpPointer pointer) .sftpPointer (fun _ _ => trivial) fun _ _ => rfl).bind fun _ => ?_
  refine Twins.Matches.bind (composes.when fun _ => composes.bind (perform_twin fun _ => trivial) fun errno => ?_)
    fun _ => ?_
  · split
    · exact composes.bind (wait_twin (List.mem_cons_of_mem _ sock)) fun _ => composes.pure _
    · exact composes.bind (message_twin _) fun msg => readErrorThrow_twin _ _
  · refine member_twice (fun holding => ?_) fun sftp => ?_
    · rw [holding.pointer (List.mem_cons_self ..)]
    split
    · exact .value fun _ _ holding => holding.weaken (List.subset_cons_self _ _)
    · exact .value fun _ _ holding => holding

/-- A set-up assigns to three members, and the list of methods is read before it may. -/
theorem setUp_twice : Twice memory memory' build thread object [.userauthlist] (setUp build object options) fun _ =>
    Holding memory memory' object [.channel, .sftpPointer, .sock, .userauthlist] := by
  refine (network_twin _).bind fun sock => ?_
  refine (assign_twice (.sock sock) .sock (fun _ _ => trivial) fun _ _ => rfl).bind fun _ => ?_
  have composes := @composes_twin memory memory' build thread object [.sock, .userauthlist]
  have set : Unset.sock ∈ [Unset.sock, .userauthlist] := List.mem_cons_self ..
  have methods : Unset.userauthlist ∈ [Unset.sock, .userauthlist] := List.mem_cons_of_mem _ (List.mem_cons_self ..)
  refine Twins.Matches.bind (composes.when fun _ => readErrorThrow_twin _ _) fun _ => (library_twin _).bind
    fun hostaddr => ?_
  refine member_twice (fun holding => ?_) fun sftp => (network_twin _).bind fun (failed : Int) => ?_
  · rw [holding.sock set]
  refine Twins.Matches.bind (composes.when fun _ => readErrorThrow_twin _ _) fun _ => (handshake_twin set).bind
    fun rc => ?_
  refine Twins.Matches.bind (composes.when fun _ => composes.bind (message_twin _) fun msg => readErrorThrow_twin _ _)
    fun _ => ?_
  refine (library_twin _).bind fun _ => (listMethods_twin set methods).bind fun _ => (authenticate_twin methods).bind
    fun _ => ?_
  refine (initSftp_twice set).bind fun _ => (network_twin _).bind fun channel => ?_
  refine (assign_twice (.channel channel) .channel (fun _ _ => trivial) fun _ _ => rfl).bind fun _ => ?_
  exact perform_twin fun holding member wired => holding.agree member (by revert wired; cases member <;> decide)

/-- The reader reads into the buffer only after the command, which is given where the memories agree. -/
theorem serve_twin (channel : .channel ∈ members) :
    Twin memory memory' build thread object members (serve build object) := by
  have composes := @composes_twin memory memory' build thread object members
  refine Twins.Matches.bind (Twins.Matches.repeatWhile (fun client client' =>
    Holding memory memory' object members client client' ∧ Unset.recvBuffer.Agree (memory object) (memory' object))
    ?_ ?_) fun _ => readErrorThrow_twin _ _
  · refine member_either fun client client' holding => ?_
    obtain ⟨command, state, _⟩ := holding.related.alike object
    rw [command, state, holding.channel channel]
    split
    next reads =>
      have same := holding.related.commanded object holding.constructed reads.1
      refine Twins.Matches.bind (library_twin _) (fun eof => ?_) client client' holding
      refine .value fun _ _ holding => ?_
      split
      · exact ⟨holding, same⟩
      · exact holding
    · exact ⟨false, rfl, rfl, holding⟩
  · rintro client client' ⟨holding, same⟩
    refine member_twice (fun holding => ?_) (fun sftp => ?_) client client' holding
    · have buffer := holding.related.agree object _ same
      rw [holding.channel channel, show _ = _ from buffer]
    · refine composes.bind (network_twin _) fun rc => composes.bind (composes.when fun _ => readErrorThrow_twin _ _)
        fun _ => ?_
      exact yieldToAnyThread_twin

theorem readThread_twice :
    Twice memory memory' build thread object [.userauthlist] (readThread build object options) fun _ =>
    Holding memory memory' object [.userauthlist] := by
  refine member_twice (fun holding => ?_) fun sftp => ?_
  · rw [(holding.related.alike object).command]
  split
  · exact .value fun _ _ holding => holding
  · refine setUp_twice.bind fun _ => (serve_twin (List.mem_cons_self ..)).mono fun _ _ _ holding => holding.weaken ?_
    decide

end setUp

section entries
variable {memory memory' : Ptr → Sftp} {build : Build} {thread : ThreadId} {object : Ptr} {client client' : Client}
  {options : ConnectionOptions}

theorem start_twin :
    Twin memory memory' build thread object [.userauthlist] (start (S := signature) (.readThread object options)) := by
  intro client client' holding
  refine ⟨.pure, rfl, fun child => ?_⟩
  have moves : (memories memory memory' build).Moves client client'
    (spawned thread child (.readThread object options) client)
      (spawned thread child (.readThread object options) client') := holding.related.spawned
  exact ⟨holding.moves moves, child, rfl, rfl, holding.moves moves⟩

/-- `connect` comes to its end only after it has found the state Open. -/
theorem connect_twice :
    Twice memory memory' build thread object [.userauthlist] (connect build object options) fun _ client client' =>
    Holding memory memory' object [.userauthlist] client client' ∧ (client.sftp object).readThreadState = .open_ := by
  have waits : Twice memory memory' build thread object [.userauthlist]
      (repeatWhile (do return (← perform (.member object)).readThreadState ≠ .open_) (yieldToAnyThread build))
        fun _ client client' =>
        Holding memory memory' object [.userauthlist] client client' ∧
          (client.sftp object).readThreadState = .open_ := by
    refine Twins.Matches.repeatWhile (Holding memory memory' object [.userauthlist]) ?_ yieldToAnyThread_twin
    refine member_either fun client client' holding => ?_
    refine ⟨_, rfl, ?_⟩
    rw [(holding.related.alike object).state]
    refine ⟨rfl, ?_⟩
    split
    · exact holding
    next open_ => exact ⟨holding, by simpa using open_⟩
  cases build with
  | retro =>
    refine Twins.Matches.bind (perform_twin fun _ => trivial) fun (err : Int) => ?_
    split
    · exact Twins.Matches.bind yieldToAnyThread_twin fun _ => waits
    · exact Twins.Matches.bind start_twin fun _ => waits
  | direct => exact readThread_twice.bind fun _ => waits

/-- The members are as the initializers leave them when the library is first called. -/
theorem construct_twice :
    (memories memory memory' build).Matches thread (Related memory memory') (construct build object) fun _ =>
    Holding memory memory' object [] := by
  have composes := @composes_twin memory memory' build thread object []
  intro client client' related
  refine ⟨_, rfl, fun input input' reply after _ alike executed => ?_⟩
  have executed : exec thread (.assign object .initializers) input client = some (reply, after) := executed
  have fits : (Op.assign object .initializers).Fits client client' := trivial
  obtain ⟨after', executed', related, settled⟩ := exec_related related fits alike executed
  refine ⟨reply, after', executed', ⟨related, settled⟩, _, rfl, fun input input' rc later _ alike begun => ?_⟩
  have begun : exec thread (.library object .init) input after = some (rc, later) := begun
  have fresh : (after.sftp object).readThreadState = .uninitialized ∧
    (after.sftp object).readThreadCommand = .wait := by
    cases executed
    simp [Client.update, Assign.apply]
  have fits : (Op.library object .init).Fits after after' := .inr fresh
  obtain ⟨later', begun', related, settled⟩ := exec_related related fits alike begun
  refine ⟨rc, later', begun', ⟨related, settled⟩, ?_⟩
  have holding : Holding memory memory' object [] later later' := by
    obtain ⟨answer, script, _, _, rfl⟩ := exec_library.mp begun
    exact ⟨related, constructed_concat.mpr (.inr ⟨thread, answer, rfl⟩), List.forall_mem_nil _⟩
  beta_reduce
  rw [Code.pure_bind]
  refine (show Twin memory memory' build thread object [] _ from ?_) later later' holding
  refine composes.bind (perform_twin fun _ => trivial) fun _ => ?_
  refine composes.bind (composes.when fun _ => errorThrow_twin _ _) fun _ => composes.bind (library_twin _)
    fun session => ?_
  refine composes.bind (perform_twin fun _ => trivial) fun _ => composes.bind (composes.when fun _ => ?_) fun _ =>
    library_twin _
  refine composes.bind (perform_twin fun _ => trivial) fun rc => ?_
  exact composes.bind (message_twin _) fun _ => errorThrow_twin _ _

theorem returns_twin {value : Value} (other : ∀ object, value ≠ .connected object)
    (related : Related memory memory' client client') :
    (memories memory memory' build).Same thread (.pure value) (.pure value)
      ((memories memory memory' build).Returns thread) client client' :=
  ⟨value, rfl, related.record nofun fun actor object same => other object (by cases same; rfl)⟩

theorem connected_twin (holding : Holding memory memory' object [.userauthlist] client client')
    (open_ : (client.sftp object).readThreadState = .open_) :
    (memories memory memory' build).Same thread (.pure (.connected object)) (.pure (.connected object))
      ((memories memory memory' build).Returns thread) client client' := by
  have related := holding.related
  have goes := @Related.goes _ _ build _ _ (client.record (.returned thread (.connected object)))
    (.returned thread (.connected object)) related rfl rfl nofun fun actor found same => by
      cases same
      exact ⟨holding.constructed, related.opened object holding.constructed open_⟩
  rw [show { client.record (.returned thread (.connected object)) with sftp := client'.sftp } =
    client'.record (.returned thread (.connected object)) by rw [related.rest]; rfl] at goes
  exact ⟨_, rfl, goes⟩

theorem memories_sound : (memories memory memory' build).Sound where
  refl _ := ⟨fun _ _ agree => agree, fun _ => id⟩
  trans early late := ⟨fun object member agree => late.agree object member (early.agree object member agree),
    fun object begun => late.constructed object (early.constructed object begun)⟩
  called {thread entry client client' after} allowed related admitted := by
    have moves : (memories memory memory' build).Moves client client' (client.record (.called thread entry))
        (client'.record (.called thread entry)) := related.record nofun nofun
    have wired {object : Ptr} (connected : Connected object client) :
        Holding memory memory' object [.sock, .sftpPointer, .channel] client client' :=
      ⟨related, (related.connected object connected).1, (related.connected object connected).2⟩
    cases entry with
    | readThread => cases admitted
    | construct object =>
      cases admitted
      exact ⟨_, rfl, moves, trivial⟩
    | connect object options =>
      cases admitted
      obtain ⟨begun, methods⟩ := allowed
      have holding : Holding memory memory' object [.userauthlist] client client' := by
        refine ⟨related, begun, fun member set => ?_⟩
        obtain rfl := List.mem_singleton.mp set
        exact related.agree object _ methods
      exact ⟨_, rfl, moves, holding.moves moves⟩
    | operate object operation =>
      cases admitted
      exact ⟨_, rfl, moves, (wired allowed.1).moves moves⟩
    | destroy object =>
      cases admitted
      obtain ⟨connected, handle⟩ := allowed
      have holding : Holding memory memory' object [.sock, .sftpPointer, .channel, .sftpHandle] client client' := by
        refine ⟨related, (wired connected).constructed, fun member set => ?_⟩
        rcases List.mem_append.mp (show member ∈ [Unset.sock, .sftpPointer, .channel] ++ [.sftpHandle] from set)
          with set | set
        · exact (wired connected).agree member set
        · obtain rfl := List.mem_singleton.mp set
          exact related.agree object _ handle
      exact ⟨_, rfl, moves, holding.moves moves⟩
  environment {input client client' after} allowed related moved := by
    cases input with
    | command this command =>
      cases moved
      refine ⟨_, rfl, related.command ?_⟩
      rintro rfl
      exact allowed
    | _ => cases moved
  spawned related := related.spawned
  disposed related := related.record nofun nofun
  exited related := related.record nofun nofun
  threw related := related.record nofun nofun
  readies {entry client client' later later'} moves ready := by
    cases entry with
    | construct => trivial
    | connect | readThread | operate | destroy => exact Holding.moves ready moves
  body {entry thread client client'} related ready := by
    cases entry with
    | construct object =>
      refine Twins.Same.bind ((construct_twice client client' related).mono fun _ _ _ _ ⟨same, holding⟩ => ?_)
      exact returns_twin nofun holding.related
    | connect object options =>
      refine Twins.Same.bind ((connect_twice client client' ready).mono fun _ _ _ _ ⟨same, holding, open_⟩ => ?_)
      exact connected_twin holding open_
    | readThread object options =>
      refine Twins.Same.bind ((readThread_twice client client' ready).mono fun _ _ _ _ ⟨same, holding⟩ => ?_)
      exact returns_twin nofun holding.related
    | operate object operation =>
      obtain ⟨_, part, value, whole, twin, other⟩ := (methods_twin (List.mem_cons_self ..)
        (List.mem_cons_of_mem _ (List.mem_cons_self ..))).parts operation
      rw [show (kernel build).body (.operate object operation) = _ from whole]
      refine Twins.Same.bind ((twin client client' ready).mono fun result _ _ _ ⟨same, holding⟩ => ?_)
      subst same
      exact returns_twin (other _) holding.related
    | destroy object =>
      refine Twins.Same.bind ((destroy_twin (List.mem_cons_self ..) (List.mem_cons_of_mem _ (List.mem_cons_self ..)) ?_
        client client' ready).mono fun _ _ _ _ ⟨same, holding⟩ => returns_twin nofun holding.related)
      decide

end entries

/-- A run shows nothing of its memory: with the other memory the client does the same operations,
with the same arguments and answers, and the same happens. -/
def Unseen (build : Build) (client : Client) (memory' : Ptr → Sftp) (count : Nat)
    (actions actions' : List (Action (kernel build))) : Prop :=
  ∀ world, (World.initial client count).run actions = some world →
    ∃ world', (World.initial { client with sftp := memory' } count).run actions' = some world' ∧
      world'.state.log = world.state.log ∧
      World.operations actions' (World.initial { client with sftp := memory' } count) =
        World.operations actions (World.initial client count)

/-- Where the memories agree in `userauthlist` for `connect`, in `sftp_handle` for the destructor and
in `recv_buffer` for the command Read, nothing is seen of them. -/
theorem memory_unseen {build : Build} {client : Client} {memory' : Ptr → Sftp} (empty : client.log = [])
    (alike : ∀ object, (client.sftp object).Alike (memory' object)) {count : Nat}
    {actions actions' : List (Action (kernel build))} (same : List.Forall₂ (Action.Alike Input.Alike) actions actions')
    (agreed : (agreeing client.sftp memory' build).Allowed actions (World.initial client count)) :
    Unseen build client memory' count actions actions' := by
  intro world ran
  have nothing (object : Ptr) : ¬ Constructed object client.log := by
    rintro ⟨thread, answer, member⟩
    rw [empty] at member
    cases member
  have related : Related client.sftp memory' client { client with sftp := memory' } := by
    refine ⟨rfl, alike, fun _ _ agree => agree, ?_, ?_, ?_⟩
    · exact fun object begun => (nothing object begun).elim
    · exact fun object begun => (nothing object begun).elim
    · rintro object ⟨thread, member⟩
      rw [empty] at member
      cases member
  obtain ⟨world', ran', beside, operations⟩ :=
    Twins.Beside.run memories_sound same
      (@Twins.Beside.starts _ _ (memories client.sftp memory' build) _ _ related count) agreed ran
  refine ⟨world', ran', ?_, operations⟩
  rw [beside.related.rest]

section runs

private def began (object : Ptr) (log : List Event) : Bool := log.any fun event => match event with
  | .library _ this .init _ => this == object
  | _ => false

private def wasConnected (object : Ptr) (log : List Event) : Bool := log.any fun event => match event with
  | .returned _ (.connected this) => this == object
  | _ => false

private theorem constructed_of_began {object : Ptr} {log : List Event} (passed : began object log = true) :
    Constructed object log := by
  obtain ⟨event, member, shown⟩ := List.any_eq_true.mp passed
  split at shown
  next actor this answer =>
    obtain rfl : this = object := by simpa using shown
    exact ⟨actor, answer, member⟩
  · cases shown

private theorem connected_of_test {object : Ptr} {client : Client} (passed : wasConnected object client.log = true) :
    Connected object client := by
  obtain ⟨event, member, shown⟩ := List.any_eq_true.mp passed
  split at shown
  next actor this =>
    obtain rfl : this = object := by simpa using shown
    exact ⟨actor, member⟩
  · cases shown

private def lifetimeTest (action : Action (kernel .retro)) (world : World (kernel .retro)) : Bool :=
  match action with
  | .call _ (.connect object _) => began object world.state.log
  | .call _ (.operate object _) | .call _ (.destroy object) => wasConnected object world.state.log
  | _ => true

private theorem lifetimeTest_allows (action : Action (kernel .retro)) (world : World (kernel .retro))
    (passed : lifetimeTest action world = true) : (lifetime .retro).Allows action world := by
  cases action with
  | call thread entry =>
    cases entry with
    | connect => exact constructed_of_began passed
    | operate | destroy => exact connected_of_test passed
    | construct | readThread => trivial
  | «continue» => exact fun _ _ _ _ _ => trivial
  | resume | environment => trivial

/-- The library answers the constructor, the set-up and the first call of the destructor. -/
private def scripted : Client := answering 0 ([⟨.init, (0 : Int), 0⟩, ⟨.sessionInit, some 9, 0⟩,
  ⟨.sessionSetBlocking, (), 0⟩, ⟨.sftpClose, (0 : Int), 0⟩] ++ (accepting.session 0).script)

/-- Another memory, which differs in three members that the set-up assigns to. -/
private def elsewhere (object : Ptr) : Sftp :=
  { scripted.sftp object with sock := -1, sftpPointer := none, channel := some 5 }

/-- Another memory, which differs in a member that nothing assigns to. -/
private def dangling (object : Ptr) : Sftp := { scripted.sftp object with sftpHandle := some 1 }

/-- Object 0 is constructed, connected and destroyed, up to the first call of the destructor. -/
private def life : List (Action (kernel .retro)) :=
  calling .retro 0 (.construct 0) (steps [7]) ++ connects ++ calling .retro 0 (.destroy 0) (steps [2, 2])

/-- The same, where the set-up finds these bits in the variable that nothing set. -/
private def lifeWith (bits : BitVec 32) : List (Action (kernel .retro)) :=
  life.take 48 ++ .continue (.dir bits) :: life.drop 49

private theorem alike_refl (action : Action (kernel .retro)) : action.Alike Input.Alike action := by
  cases action with
  | «continue» input => exact ⟨input, rfl, by cases input <;> first | rfl | exact ⟨_, rfl, rfl, rfl⟩⟩
  | _ => rfl

private theorem lifeWith_alike : List.Forall₂ (Action.Alike Input.Alike) (lifeWith 0) (lifeWith 4) := by
  refine List.rel_append (List.forall₂_same.mpr fun action _ => alike_refl action) (.cons ?_ ?_)
  · exact ⟨_, rfl, _, rfl, by decide, by decide⟩
  · exact List.forall₂_same.mpr fun action _ => alike_refl action

private theorem lifetimeTest_agrees (action : Action (kernel .retro)) (world : World (kernel .retro))
    (passed : lifetimeTest action world = true) : (agreeing scripted.sftp elsewhere .retro).Allows action world := by
  have allowed := lifetimeTest_allows action world passed
  cases action with
  | call thread entry =>
    refine ⟨allowed, ?_⟩
    cases entry <;> trivial
  | environment input =>
    cases input with
    | command this command => cases command <;> trivial
    | _ => trivial
  | resume | «continue» => exact allowed

theorem memory_unseen_life : Unseen .retro scripted elsewhere 1 (lifeWith 0) (lifeWith 4) ∧
    ((World.initial scripted 1).run (lifeWith 0)).isSome = true := by
  have agreed : (agreeing scripted.sftp elsewhere .retro).Allowed (lifeWith 0) (World.initial scripted 1) :=
    .tested lifetimeTest_agrees (by decide +kernel)
  have ran : ((World.initial scripted 1).run (lifeWith 0)).isSome = true := by decide +kernel
  exact ⟨@memory_unseen .retro scripted elsewhere rfl (fun _ => ⟨rfl, rfl, rfl⟩) 1 _ _ lifeWith_alike agreed, ran⟩

private def closed (operations : List (ThreadId × Op)) :
    List (Option Ptr) := operations.filterMap fun done => match done with
  | (_, .library _ (.sftpClose handle)) => some handle
  | _ => none

/-- The destructor passes on a handle that it found in the memory. -/
theorem memory_seen : (lifetime .retro).Allowed life (World.initial scripted 1) ∧
    (∀ object, (scripted.sftp object).Alike (dangling object)) ∧
    List.Forall₂ (Action.Alike Input.Alike) life life ∧ ¬ Unseen .retro scripted dangling 1 life life := by
  refine ⟨.tested lifetimeTest_allows (by decide +kernel), fun _ => ⟨rfl, rfl, rfl⟩,
    List.forall₂_same.mpr fun action _ => alike_refl action, fun unseen => ?_⟩
  obtain ⟨_, ran⟩ := Option.isSome_iff_exists.mp
    (show ((World.initial scripted 1).run life).isSome = true by decide +kernel)
  obtain ⟨_, _, _, operations⟩ := unseen _ ran
  have first : closed (World.operations life (World.initial scripted 1)) = [none] := by decide +kernel
  have second : closed (World.operations life (World.initial { scripted with sftp := dangling } 1)) =
    [some 1] := by decide +kernel
  rw [operations, first] at second
  cases second

end runs

end PowerBoot.Transfer
