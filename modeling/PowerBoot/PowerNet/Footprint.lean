import PowerBoot.PowerNet.Steps

/-! The operations each function uses. A property that those operations keep one
by one holds of the function without looking at its control flow. -/

namespace PowerBoot.PowerNet
open Coop Code

def reportOps : Op → Prop
  | .report .. | .mainThreadId => True
  | _ => False

def socketOps : Op → Prop
  | .openTransport .. | .newSocket | .load _ | .otOpenEndpoint _ | .size | .insert .. => True
  | .assign _ member => match member with
    | .cfg _ | .endpoint _ | .id _ => True
    | _ => False
  | o => reportOps o

def connectOps : Op → Prop
  | .finished => True
  | _ => False

def connectThreadOps : Op → Prop
  | .lookup _ | .load _ | .openTransport .. | .otInstallNotifier .. | .setFinished false | .otConnect .. => True
  | .assign _ member => match member with
    | .halting _ | .sndCall _ => True
    | _ => False
  | o => reportOps o

/-- The operations on an event that brings no data. -/
def noticeOps : Op → Prop
  | .load _ | .openTransport .. => True
  | .assign _ member => match member with
    | .halting _ => True
    | _ => False
  | o => reportOps o

def handleOps : Op → Prop
  | .otRcv .. | .recvHalt _ => True
  | .assign _ member => match member with
    | .halting _ | .pushRecvBuf _ => True
    | _ => False
  | o => noticeOps o

def notifierOps : Op → Prop
  | .setFinished true => True
  | o => handleOps o

def recvOps : Op → Prop
  | .lookup _ | .load _ | .otRcv .. | .recvHalt _ => True
  | .assign _ member => match member with
    | .recvHalt false | .clearRecvBuf => True
    | _ => False
  | _ => False

def sendOps : Op → Prop
  | .lookup _ | .load _ | .otSnd .. | .sendHalt _ => True
  | .assign _ member => match member with
    | .sendHalt _ | .clearSendBuf => True
    | _ => False
  | _ => False

def selectOps : Op → Prop
  | .lookup _ | .recvHalt _ | .sendHalt _ => True
  | _ => False

def connectEntries : Entry → Prop
  | .connectThread _ => True
  | _ => False

section
variable {ops : Op → Prop} {entries : Entry → Prop} {α : Type}

theorem perform_uses {o : Op} (used : ops o) : (perform o).Uses ops entries := ⟨used, fun _ => trivial⟩

theorem pause_uses : (pause : Shim Unit).Uses ops entries := trivial

theorem uses_op {o : Op} {rest : o.Reply → Shim α} (used : ops o) (uses : ∀ reply, (rest reply).Uses ops entries) :
    (perform o >>= rest).Uses ops entries := ⟨used, uses⟩

theorem uses_pause {rest : Unit → Shim α} (uses : (rest ()).Uses ops entries) :
    ((pause : Shim Unit) >>= rest).Uses ops entries := uses

theorem uses_then {β : Type} {code : Shim β} {rest : β → Shim α} (first : code.Uses ops entries)
    (uses : ∀ value, (rest value).Uses ops entries) : (code >>= rest).Uses ops entries := first.bind uses

theorem uses_start {entry : Entry} {rest : ThreadId → Shim α} (used : entries entry)
    (uses : ∀ child, (rest child).Uses ops entries) :
    ((start entry : Code signature ThreadId) >>= rest).Uses ops entries := ⟨used, uses⟩

theorem when_uses {condition : Prop} [Decidable condition] {code : Shim Unit} (uses : code.Uses ops entries) :
    (when condition code).Uses ops entries := Code.Uses.when uses

theorem openSocketsAt_uses {fd : Nat} (lookup : ops (.lookup fd)) : (openSocketsAt fd).Uses ops entries := by
  refine uses_op lookup fun found => ?_
  cases found <;> trivial

theorem whileYield_uses {condition : Shim Bool} (uses : condition.Uses ops entries) :
    (repeatWhile condition pause).Uses ops entries := Code.Uses.repeatWhile uses pause_uses

theorem macErrorThrow_uses (reports : ∀ o, reportOps o → ops o) (format : String) (arguments : List String) :
    (macErrorThrow format arguments).Uses ops entries := by
  refine uses_op (reports _ trivial) fun _ => uses_pause (uses_op (reports _ trivial) fun _ => ?_)
  trivial

theorem throwOsErr_uses (reports : ∀ o, reportOps o → ops o) (file : String) (line : Nat) (func : String) (err : Int) :
    (throwOsErr file line func err).Uses ops entries := by
  unfold throwOsErr
  split
  · exact macErrorThrow_uses reports _ _
  · trivial

theorem checked_uses (reports : ∀ o, reportOps o → ops o) (loads : ∀ s, ops (.load s))
    (transports : ∀ function endpoint, ops (.openTransport function endpoint))
    (line : Nat) (func : String) (function : OTFunction) (s : Ptr) :
    (checked line func function s).Uses ops entries :=
  uses_op (loads s) fun _ => uses_op (transports function _) fun _ => throwOsErr_uses reports _ _ _ _

theorem configure_uses (reports : ∀ o, reportOps o → ops o) (creates : ops (.openTransport .createConfiguration none))
    {skt : Ptr} (assigns : ∀ cfg, ops (.assign skt (.cfg cfg))) (type : Int) :
    (configure skt type).Uses ops entries := by
  unfold configure
  split
  · exact uses_op creates fun _ => perform_uses (assigns _)
  · split
    · exact uses_op creates fun _ => perform_uses (assigns _)
    · exact macErrorThrow_uses reports _ _

end

theorem connect_uses (fd : Int) (address : SockaddrIn) (addressLen : Nat) :
    (connect fd address addressLen).Uses connectOps connectEntries := by
  refine uses_start trivial fun child => uses_then (whileYield_uses ?_) fun _ => ?_
  · exact uses_op trivial fun _ => trivial
  · trivial

theorem socket_uses (domain type protocol : Int) :
    (socket domain type protocol).Uses socketOps fun _ => False := by
  have reports : ∀ o, reportOps o → socketOps o := by intro o; cases o <;> simp [reportOps, socketOps]
  refine uses_op trivial fun status => uses_then (when_uses (macErrorThrow_uses reports _ _)) fun _ => uses_pause ?_
  have configures (skt : Ptr) : (configure skt type).Uses socketOps fun _ => False :=
    configure_uses reports trivial (fun _ => trivial) type
  refine uses_op trivial fun skt => uses_pause (uses_then (configures skt) fun _ => uses_pause ?_)
  refine uses_op trivial fun _ => uses_op trivial fun _ => uses_op trivial fun _ => ?_
  refine uses_then (throwOsErr_uses reports _ _ _ _) fun _ => uses_pause ?_
  refine uses_op trivial fun _ => uses_op trivial fun _ => uses_pause ?_
  exact uses_op trivial fun _ => uses_op trivial fun _ => uses_op trivial fun _ => uses_pause trivial

theorem connectThread_uses (params : ConnectThreadParams) :
    (connectThread params).Uses connectThreadOps fun _ => False := by
  have reports : ∀ o, reportOps o → connectThreadOps o := by intro o; cases o <;> simp [reportOps, connectThreadOps]
  have checks (line : Nat) (func : String) (function : OTFunction) (s : Ptr) :
      (checked line func function s).Uses connectThreadOps fun _ => False :=
    checked_uses reports (fun _ => trivial) (fun _ _ => trivial) line func function s
  refine uses_then (openSocketsAt_uses trivial) fun s => uses_pause ?_
  refine uses_op trivial fun _ => uses_then (checks _ _ _ s) fun _ => uses_then (checks _ _ _ s) fun _ => ?_
  refine uses_then (checks _ _ _ s) fun _ => uses_then (checks _ _ _ s) fun _ => uses_then (checks _ _ _ s) fun _ => ?_
  refine uses_op trivial fun _ => uses_op trivial fun _ => uses_then (throwOsErr_uses reports _ _ _ _) fun _ => ?_
  refine uses_pause (uses_op trivial fun _ => uses_pause (uses_op trivial fun _ => uses_op trivial fun _ => ?_))
  refine uses_op trivial fun _ => uses_op trivial fun target => uses_op trivial fun status => uses_pause ?_
  exact uses_then (when_uses (throwOsErr_uses reports _ _ _ _)) fun _ => uses_pause trivial

theorem noticeOps_report : ∀ o, reportOps o → noticeOps o := by intro o; cases o <;> simp [reportOps, noticeOps]

theorem noticeOps_handle : ∀ o, noticeOps o → handleOps o := by
  intro o used
  cases o with
  | assign socket member => cases member <;> first | exact used | exact False.elim used
  | _ => first | exact used | exact False.elim used

theorem handleOps_report (o : Op) (used : reportOps o) : handleOps o := noticeOps_handle o (noticeOps_report o used)

theorem handleOps_notifier : ∀ o, handleOps o → notifierOps o := by
  intro o used
  cases o with
  | setFinished value => exact False.elim used
  | _ => exact used

theorem rcvAnswered_uses (s : Ptr) (dataBuf : Bytes) (reply : Int × Bytes × OTFlags) :
    (rcvAnswered s dataBuf reply).Uses handleOps fun _ => False := by
  dsimp only [rcvAnswered]
  split
  · exact uses_op trivial fun _ => trivial
  · refine uses_then (throwOsErr_uses handleOps_report _ _ _ _) fun _ => uses_pause ?_
    refine uses_then (when_uses (macErrorThrow_uses handleOps_report _ _)) fun _ => ?_
    exact uses_then (when_uses trivial) fun _ => uses_pause trivial

theorem drain_uses (s : Ptr) (dataSize : Nat) (dataBuf : Bytes) :
    (drain s dataSize dataBuf).Uses handleOps fun _ => False :=
  ⟨fun dataBuf => uses_op trivial fun _ => uses_op trivial fun _ => rcvAnswered_uses s dataBuf _, fun _ => trivial⟩

theorem receiveData_uses (s : Ptr) : (receiveData s).Uses handleOps fun _ => False := by
  refine uses_op trivial fun _ => uses_op trivial fun _ => uses_pause (uses_op trivial fun halted => ?_)
  exact when_uses (drain_uses _ _ _)

theorem handle_notice (s : Ptr) (endpoint : Option EndpointRef) {code : OTEventCode} (data : code ≠ .tData)
    (exData : code ≠ .tExData) : (handle s endpoint code).Uses noticeOps fun _ => False := by
  unfold handle
  split
  · exact uses_op trivial fun _ => uses_then (throwOsErr_uses noticeOps_report _ _ _ _) fun _ =>
      uses_op trivial fun _ => trivial
  · exact (data rfl).elim
  · exact (exData rfl).elim
  · exact uses_op trivial fun _ => macErrorThrow_uses noticeOps_report _ _
  · split
    · exact macErrorThrow_uses noticeOps_report _ _
    · trivial

theorem handle_uses (s : Ptr) (endpoint : Option EndpointRef) (code : OTEventCode) :
    (handle s endpoint code).Uses handleOps fun _ => False := by
  by_cases data : code = .tData
  · exact data ▸ receiveData_uses s
  · by_cases exData : code = .tExData
    · exact exData ▸ receiveData_uses s
    · exact (handle_notice s endpoint data exData).mono noticeOps_handle nofun

theorem notified_uses (usrPtr : Ptr) (code : OTEventCode) (res : Int) :
    (do throwOSErr "connect.cpp" 112 "res" res
        let s := usrPtr
        let endpoint := (← perform (.load s)).endpoint
        handle s endpoint code
        perform (.assign s (.halting false))
        pause : Shim Unit).Uses handleOps fun _ => False := by
  refine uses_then (throwOsErr_uses handleOps_report _ _ _ _) fun _ => ?_
  refine uses_op trivial fun _ => uses_then (handle_uses _ _ _) fun _ => ?_
  exact uses_op trivial fun _ => uses_pause trivial

theorem notifier_uses (usrPtr : Ptr) (code : OTEventCode) (res : Int) :
    (notifier usrPtr code res).Uses notifierOps fun _ => False :=
  uses_pause (uses_op trivial fun _ => (notified_uses usrPtr code res).mono handleOps_notifier nofun)

theorem recv_uses (fd : Int) (nbytes : Nat) (flags : Int) :
    (recv fd nbytes flags).Uses recvOps fun _ => False := by
  refine uses_then (openSocketsAt_uses trivial) fun s => uses_pause ?_
  refine uses_op trivial fun socket => uses_op trivial fun reply => ?_
  dsimp only
  split
  · exact uses_op trivial fun _ => trivial
  · refine uses_pause (uses_then (whileYield_uses (perform_uses trivial)) fun _ => ?_)
    exact uses_op trivial fun _ => uses_op trivial fun _ => uses_pause trivial

theorem sndAnswered_uses {ops : Op → Prop} {entries : Entry → Prop} {s : Ptr}
    (lower : ops (.assign s (.sendHalt false)))
    (sendHalt : ops (.sendHalt s)) (load : ops (.load s)) (clear : ops (.assign s .clearSendBuf)) (ret : Int) :
    (sndAnswered s ret).Uses ops entries := by
  dsimp only [sndAnswered]
  split
  · exact uses_op lower fun _ => trivial
  · refine uses_pause (uses_then (whileYield_uses (perform_uses sendHalt)) fun _ => ?_)
    exact uses_op load fun _ => uses_op clear fun _ => uses_pause trivial

theorem send_uses (fd : Int) (buf : Bytes) (flags : Int) : (send fd buf flags).Uses sendOps fun _ => False := by
  refine uses_then (openSocketsAt_uses trivial) fun s => uses_pause ?_
  dsimp only
  split
  · trivial
  · exact uses_op trivial fun _ => uses_op trivial fun socket => uses_op trivial fun _ =>
      sndAnswered_uses trivial trivial trivial trivial _

theorem waitFor_uses {ops : Op → Prop} {fds : Option FdSet} {halt : Ptr → Shim Bool}
    (lookup : ∀ s, fds = some s → ops (.lookup s.firstWord)) (uses : ∀ s, (halt s).Uses ops fun _ => False) :
    (waitFor fds halt).Uses ops fun _ => False := by
  cases fds with
  | some fds => exact uses_then (openSocketsAt_uses (lookup fds rfl)) fun s => whileYield_uses (uses s)
  | none => trivial

theorem select_uses {ops : Op → Prop} (nfds : Int) {readfds writefds : Option FdSet}
    (lookup : ∀ s, readfds = some s ∨ writefds = some s → ops (.lookup s.firstWord))
    (recvHalt : ∀ s, ops (.recvHalt s)) (sendHalt : ∀ s, ops (.sendHalt s)) :
    (select nfds readfds writefds).Uses ops fun _ => False :=
  uses_then (waitFor_uses (fun s same => lookup s (.inl same)) fun s => perform_uses (recvHalt s)) fun _ =>
    uses_then (waitFor_uses (fun s same => lookup s (.inr same)) fun s => perform_uses (sendHalt s)) fun _ => trivial

/-- The operations of an entry point. -/
def Entry.ops : Entry → Op → Prop
  | .socket .. => socketOps
  | .connect .. => connectOps
  | .connectThread _ => connectThreadOps
  | .notifier .. => notifierOps
  | .recv .. => recvOps
  | .send .. => sendOps
  | .select .. => selectOps

theorem body_uses (entry : Entry) : (body entry).Uses entry.ops connectEntries := by
  have starts {code : Shim Value} (uses : code.Uses entry.ops fun _ => False) : code.Uses entry.ops connectEntries :=
    uses.mono (fun _ used => used) nofun
  cases entry with
  | socket domain type protocol => exact starts ((socket_uses domain type protocol).bind fun _ => trivial)
  | connect fd address addressLen => exact (connect_uses fd address addressLen).bind fun _ => trivial
  | connectThread params => exact starts ((connectThread_uses params).bind fun _ => trivial)
  | notifier endpoint usrPtr code res => exact starts ((notifier_uses usrPtr code res).bind fun _ => trivial)
  | recv fd nbytes flags => exact starts ((recv_uses fd nbytes flags).bind fun _ => trivial)
  | send fd buf flags => exact starts ((send_uses fd buf flags).bind fun _ => trivial)
  | select nfds readfds writefds =>
      exact starts ((select_uses nfds (fun _ _ => trivial) (fun _ => trivial) fun _ => trivial).bind fun _ => trivial)

end PowerBoot.PowerNet
