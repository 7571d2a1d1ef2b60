import Mathlib.Data.List.Forall2
import Mathlib.Data.List.TakeWhile
import PowerBoot.Transfer.Replies

/-! Accounts of what the session gives and what the methods return of it. While the other
threads go on, nothing is lost on the way and nothing is returned twice. -/

namespace PowerBoot.Transfer
open Coop Code

/-- The functions that the destructor calls, and the one that is asked for messages. -/
def Function.closes : Function → Bool
  | .sftpClose | .sftpShutdown | .sessionDisconnect | .sessionFree | .shutdown | .close | .exit
  | .sessionLastError => true
  | _ => false

/-- What one answer gives, to operations of one kind alone, and what such an operation makes
of it. -/
structure Account (build : Build) (T U : Type) where
  mine : Operation → Bool
  credit : Reply → List T
  debit : Operation → Value → List U
  paired : T → U → Prop
  definitive : ∀ reply, credit reply ≠ [] → reply.answer.again = false ∧ reply.answer.function ≠ .sessionLastError
  open_ : ∀ reply, credit reply ≠ [] → reply.call.function.closes = false
  asks : ∀ {pointer operation replies} (reply : Reply), operation.asks build pointer replies = some reply.call →
    credit reply ≠ [] → mine operation = true
  returns : ∀ {pointer operation replies value}, mine operation = true →
    Fulfilled build pointer operation replies value → List.Forall₂ paired (replies.flatMap credit)
      (debit operation value)
  stops : ∀ {pointer operation replies}, mine operation = true → Asked build pointer operation replies →
    Unmet build pointer operation replies → replies.flatMap credit = []
  single : ∀ {pointer operation replies}, mine operation = true → Asked build pointer operation replies →
    (replies.flatMap credit).length ≤ 1

def Event.connects (this : Ptr) : Event → Bool
  | .returned _ (.connected object) => object = this
  | _ => false

/-- The log from the return of `connect` on. -/
def session (this : Ptr) (log : List Event) : List Event := log.dropWhile fun event => !event.connects this

namespace Account
variable {build : Build} {T U : Type} (account : Account build T U)

/-- What an event brings in. -/
def credited (this : Ptr) : Event → List T
  | .library _ object call answer => if object = this then account.credit ⟨call, answer⟩ else []
  | _ => []

def credits (this : Ptr) (log : List Event) : List T := log.flatMap (account.credited this)

/-- What an event gives to the caller, whose call is this one. -/
def debited (user : ThreadId) (this : Ptr) (call : Option Entry) (event : Event) : List U :=
  match event, call with
  | .returned actor value, some (.operate object operation) =>
    if actor = user ∧ object = this ∧ account.mine operation = true then account.debit operation value else []
  | _, _ => []

def debits (user : ThreadId) (this : Ptr) (log : List Event) : List U :=
  (log.foldl (fun (found : Option Entry × List U) event =>
    (event.callAfter user found.1, found.2 ++ account.debited user this found.1 event)) (none, [])).2

/-- The thread is inside an operation of the account. -/
def Busy (user : ThreadId) (this : Ptr) (log : List Event) : Prop :=
  ∃ operation, callOf user log = some (.operate this operation) ∧ account.mine operation = true

/-- What came in since the connection is with the caller, in order, but for what a call in
progress is about to return. -/
def Balanced (user : ThreadId) (this : Ptr) (log : List Event) : Prop :=
  ∃ done pending, account.credits this (session this log) = done ++ pending ∧
    List.Forall₂ account.paired done (account.debits user this log) ∧ pending.length ≤ 1 ∧
    (pending ≠ [] → account.Busy user this log)

/-- What a call has and does not return yet. -/
def pending (user : ThreadId) (this : Ptr) (log : List Event) : List T :=
  match callOf user log with
  | some (.operate object operation) =>
    if object = this ∧ account.mine operation = true then (replies user this (recent user log)).flatMap account.credit
    else []
  | _ => []

end Account

variable {build : Build} {T U : Type} {user thread : ThreadId} {this : Ptr} {pointer : Option Ptr} {client : Client}
  {operation : Operation} {log past later : List Event} {event : Event}

section replies

theorem recent_grows (other : ∀ entry, event ≠ .called user entry) :
    recent user (log ++ [event]) = recent user log ++ [event] := by
  rw [recent_concat]
  cases event with
  | called actor entry => exact if_neg fun same => other entry (by rw [same])
  | _ => rfl

theorem replies_grow (other : ∀ entry, event ≠ .called user entry) : replies user this (recent user (log ++ [event])) =
    replies user this (recent user log) ++ (event.reply user this).toList := by
  rw [recent_grows other, replies_append, replies_one]

theorem reply_others (others : event.thread ≠ user) : event.reply user this = none :=
  Option.eq_none_iff_forall_ne_some.mpr fun _ given => others (Event.reply_owner given)

/-- The call in progress has asked what its operation asks. -/
theorem asked_now (replied : Throughout (Replied build user this) log)
    (call : callOf user log = some (.operate this operation)) :
    ∃ pointer, Asked build pointer operation (replies user this (recent user log)) := by
  induction log using List.reverseRecOn with
  | nil => cases call
  | append_singleton log event ih =>
    obtain ⟨replied, last⟩ := throughout_concat.mp replied
    by_cases mine : event.thread = user
    · by_cases begins : ∃ entry, event = .called user entry
      · obtain ⟨entry, rfl⟩ := begins
        rw [recent_concat, Event.recentAfter, if_pos rfl]
        exact ⟨none, .nothing⟩
      have goes (entry : Entry) (same : event = .called user entry) : False := begins ⟨entry, same⟩
      have before : callOf user log = some (.operate this operation) := by
        rw [callOf_concat] at call
        cases event with
        | called actor entry => exact (goes entry (by rw [← mine]; rfl)).elim
        | returned | threw =>
          simp only [Event.callAfter, Option.ite_none_left_eq_some] at call
          exact (call.1 mine).elim
        | _ => exact call
      obtain ⟨pointer, follows⟩ := last mine operation before
      refine ⟨pointer, ?_⟩
      rw [replies_grow goes]
      cases event with
      | called | spawned => exact follows.elim
      | returned => exact (List.append_nil _).symm ▸ follows.asked
      | threw | exited | disposed => exact (List.append_nil _).symm ▸ follows.1
      | _ => simpa [Event.Settles] using follows
    · rw [callOf_others (by simpa using mine)] at call
      obtain ⟨pointer, asked⟩ := ih replied call
      refine ⟨pointer, ?_⟩
      rw [replies_grow, reply_others mine, Option.toList_none, List.append_nil]
      · exact asked
      · rintro entry rfl
        exact mine rfl

theorem asked_last {replies : List Reply} {reply : Reply} (asked : Asked build pointer operation (replies ++ [reply])) :
    operation.asks build pointer replies = some reply.call := by
  generalize whole : replies ++ [reply] = all at asked
  cases asked with
  | nothing => simp at whole
  | more _ _ asks =>
    obtain ⟨rfl, same⟩ := List.append_inj' whole rfl
    cases same
    exact asks

end replies

section closing

/-- All operations of the destructor. -/
def Op.Closing : Op → Prop
  | .library _ call => call.function.closes = true
  | _ => True

theorem destroy_uses : (body build (.destroy this)).Uses Op.Closing (fun _ => False) := by
  have minor (o : Op) (minor : o.Minor) : o.Closing := by
    cases o with
    | library object call =>
      cases (show call = .sessionLastError from minor)
      rfl
    | _ => trivial
  have waits := @uses_waits build Op.Closing (fun _ => False) this minor
  have asks {call : Call} (closes : call.function.closes = true) :
      (library this call).Uses Op.Closing (fun _ => False) := perform_uses closes
  refine waits.bind ?_ fun _ => waits.pure _
  refine waits.bind (perform_uses trivial) fun _ => waits.bind (waits.network (asks rfl)) fun _ => ?_
  refine waits.bind (perform_uses trivial) fun _ => waits.bind (waits.network (asks rfl)) fun _ => ?_
  refine waits.bind (perform_uses trivial) fun _ => waits.bind (waits.when fun _ => ?_) fun _ => ?_
  · refine waits.bind (waits.repeatWhile ?_ (waits.pure _)) fun _ => waits.bind (asks rfl) fun _ => waits.pure _
    exact waits.bind (waits.network (asks rfl)) fun _ => waits.pure _
  · refine waits.bind (perform_uses trivial) fun sftp => waits.bind (waits.when fun _ => ?_) fun _ => asks rfl
    refine waits.bind (waits.when fun _ => ?_) fun _ => waits.bind (waits.network (asks rfl)) fun _ => waits.pure _
    exact waits.bind (waits.network (asks rfl)) fun _ => waits.pure _

theorem Lone.closing {object : Ptr} {call : Call} {answer : Answer} {marked : Client → Prop}
    (lone : Lone build user (.destroy this) marked past (.library user object call answer)) :
    call.function.closes = true := by
  obtain ⟨begun, rest, last, early, more, _, _, _, _, runs, _, stays⟩ := lone
  let kept (now : Client) : Prop := ∃ events, now.log = begun.log ++ events ∧ ∀ thread object call answer,
    .library thread object call answer ∈ events → call.function.closes = true
  have whole : kept last := by
    refine @Runs.keeps _ (kernel build) user _ _ _ _ begun last kept ?_ rest runs destroy_uses
      ⟨[], (List.append_nil _).symm, by simp⟩
    rintro o input now reply after closing executed ⟨more, grown, all⟩
    obtain ⟨events, log, logs⟩ := exec_log executed
    refine ⟨more ++ events, by rw [log, grown, List.append_assoc], fun thread object call answer member => ?_⟩
    rcases List.mem_append.mp member with old | new
    · exact all thread object call answer old
    · cases o with
      | library =>
        obtain ⟨_, _, rfl⟩ := logs
        cases List.mem_singleton.mp new
        exact closing
      | _ =>
        cases (show events = _ from logs)
        simp at new
  obtain ⟨events, grown, all⟩ := whole
  rw [stays rfl, own_append, @own_all user [.library user object call answer] (by simp [Event.thread])] at grown
  exact all _ _ _ _ (List.append_cancel_left grown ▸ List.mem_append_right _ (List.mem_singleton_self _))

end closing

section attended

/-- In a call of the destructor the thread asks nothing but what closes the session. -/
def Closes (user : ThreadId) (this : Ptr) (past : List Event) (event : Event) : Prop :=
  ∀ object call answer, event = .library user object call answer → callOf user past = some (.destroy this) →
    call.function.closes = true

/-- What the run has so far: the session answers the methods alone, and one thread calls them
once the object is connected. -/
structure Attended (build : Build) (user : ThreadId) (this : Ptr) (log : List Event) : Prop where
  replied : Throughout (Replied build user this) log
  closes : Throughout (Closes user this) log
  exclusive : Throughout (Exclusively build user this) log
  admitted : Throughout (Admitted user this) log

theorem Attended.earlier (attended : Attended build user this (log ++ [event])) : Attended build user this log :=
  ⟨(throughout_concat.mp attended.replied).1, (throughout_concat.mp attended.closes).1,
    (throughout_concat.mp attended.exclusive).1, (throughout_concat.mp attended.admitted).1⟩

theorem attended_everywhere {count : Nat} (starts : client.Starts count) {world : World (kernel build)}
    (reached : (solely build client.mainThreadId this).Reaches (World.initial client count) world) :
    Attended build client.mainThreadId this world.state.log := by
  have solitary := solitary_everywhere starts reached
  refine ⟨fun past event rest split => ?_, fun past event rest split => ?_,
    (excluded_everywhere starts reached).exclusive, solitary.admitted⟩
  · have undisturbed := solitary.undisturbed past event rest split
    exact Responded.replied fun mine _ call => (undisturbed mine _ call rfl).answered mine
  · rintro object call answer rfl calls
    exact (solitary.undisturbed past _ rest split rfl _ calls rfl).closing

theorem called_admitted {entry : Entry} (admitted : Throughout (Admitted user this) log)
    (member : .called thread entry ∈ log) :
    thread = user ∧ (entry.Serves this → ∃ caller, .returned caller (.connected this) ∈ log) := by
  obtain ⟨past, rest, rfl⟩ := List.append_of_mem member
  obtain ⟨same, ready⟩ := admitted past _ rest rfl thread entry rfl
  refine ⟨same, fun serves => ?_⟩
  obtain ⟨caller, member⟩ := ready serves
  exact ⟨caller, List.mem_append_left _ member⟩

/-- Before the connection no method is called. -/
theorem Attended.uncalled (attended : Attended build user this log)
    (unconnected : ¬ ∃ caller, .returned caller (.connected this) ∈ log) :
    callOf user log ≠ some (.operate this operation) :=
  fun call => unconnected ((called_admitted attended.admitted (callOf_called call)).2 rfl)

theorem session_nil : session this log = [] ↔ ¬ ∃ caller, .returned caller (.connected this) ∈ log := by
  rw [session, List.dropWhile_eq_nil_iff]
  constructor
  · rintro all ⟨caller, member⟩
    simpa [Event.connects] using all _ member
  · intro unconnected found member
    cases found with
    | returned caller value =>
      cases value with
      | connected object =>
        have other : object ≠ this := fun same => unconnected ⟨caller, same ▸ member⟩
        simpa [Event.connects] using other
      | _ => rfl
    | _ => rfl

theorem session_grows (connected : ∃ caller, .returned caller (.connected this) ∈ log) :
    session this (log ++ [event]) = session this log ++ [event] := by
  have some : ¬ (session this log).isEmpty = true := by
    rw [List.isEmpty_iff, session_nil]
    exact not_not_intro connected
  exact List.dropWhile_append.trans (if_neg some)

end attended

namespace Account
variable {account : Account build T U}

@[simp] theorem credits_concat : account.credits this (log ++ [event]) =
    account.credits this log ++ account.credited this event := by
  simp [credits]

@[simp] theorem debits_concat : account.debits user this (log ++ [event]) =
    account.debits user this log ++ account.debited user this (callOf user log) event := by
  have call : (log.foldl (fun (found : Option Entry × List U) event =>
      (event.callAfter user found.1, found.2 ++ account.debited user this found.1 event)) (none, [])).1 =
        callOf user log := by
    induction log using List.reverseRecOn with
    | nil => rfl
    | append_singleton log event ih => rw [List.foldl_append, callOf_concat, ← ih]; rfl
  simp only [debits, List.foldl_append, List.foldl_cons, List.foldl_nil, call]

theorem pending_mine (call : callOf user log = some (.operate this operation)) (mine : account.mine operation = true) :
    account.pending user this log = (replies user this (recent user log)).flatMap account.credit := by
  simp [pending, call, mine]

theorem pending_other (idle : ¬ account.Busy user this log) : account.pending user this log = [] := by
  unfold pending
  split
  next object operation call =>
    refine if_neg fun same => idle ⟨operation, ?_, same.2⟩
    rw [call, same.1]
  · rfl

theorem pending_others (others : event.thread ≠ user) :
    account.pending user this (log ++ [event]) = account.pending user this log := by
  have call : callOf user (log ++ [event]) = callOf user log := callOf_others (by simpa using others)
  have same : replies user this (recent user (log ++ [event])) = replies user this (recent user log) := by
    rw [replies_grow, reply_others others, Option.toList_none, List.append_nil]
    rintro entry rfl
    exact others rfl
  rw [pending, pending, call, same]

theorem debited_outside {call : Option Entry} (outside : ¬ (event.thread = user ∧
    ∃ operation, call = some (.operate this operation) ∧ account.mine operation = true)) :
    account.debited user this call event = [] := by
  unfold debited
  split
  · refine if_neg fun same => outside ?_
    obtain ⟨rfl, rfl, mine⟩ := same
    exact ⟨rfl, _, rfl, mine⟩
  · rfl

theorem pending_outside (idle : ¬ account.Busy user this log) : account.pending user this (log ++ [event]) = [] := by
  by_cases busy : account.Busy user this (log ++ [event])
  · obtain ⟨operation, call, mine⟩ := busy
    rw [pending_mine call mine]
    rw [callOf_concat] at call
    cases event with
    | called actor entry =>
      by_cases same : actor = user
      · rw [recent_concat, Event.recentAfter, if_pos same]
        rfl
      · exact (idle ⟨operation, (if_neg same).symm.trans call, mine⟩).elim
    | returned | threw =>
      simp only [Event.callAfter, Option.ite_none_left_eq_some] at call
      exact (idle ⟨operation, call.2, mine⟩).elim
    | _ => exact (idle ⟨operation, call, mine⟩).elim
  · exact pending_other busy

/-- What came in is with the caller or with the call in progress. -/
def Balances (account : Account build T U) (user : ThreadId) (this : Ptr) (log later : List Event) : Prop :=
  ∃ done, account.credits this later = done ++ account.pending user this log ∧
    List.Forall₂ account.paired done (account.debits user this log)

theorem Balances.others (balances : account.Balances user this log later) (credited : account.credited this event = [])
    (outside : ¬ (event.thread = user ∧ account.Busy user this log)) :
    account.Balances user this (log ++ [event]) (later ++ [event]) := by
  obtain ⟨done, all, paired⟩ := balances
  refine ⟨done, ?_, ?_⟩
  · rw [credits_concat, credited, List.append_nil, all]
    by_cases mine : event.thread = user
    · have idle := fun busy => outside ⟨mine, busy⟩
      rw [pending_other idle, pending_outside idle]
    · rw [pending_others mine]
  · rw [debits_concat, debited_outside outside, List.append_nil]
    exact paired

/-- What a call is answered is what comes in. -/
theorem credited_asked (mine : event.thread = user) :
    (event.reply user this).toList.flatMap account.credit = account.credited this event := by
  cases event with
  | library actor object call answer =>
    obtain rfl : actor = user := mine
    by_cases here : object = this
    · by_cases counts : answer.again = false ∧ answer.function ≠ .sessionLastError
      · simp [Event.reply, credited, here, counts]
      · have nothing : account.credit ⟨call, answer⟩ = [] := by_contra fun some => counts (account.definitive _ some)
        simp [Event.reply, credited, here, counts, nothing]
    · simp [Event.reply, credited, here]
  | _ => rfl

theorem Balances.inside (balances : account.Balances user this log later)
    (replied : Replied build user this log event) (same : event.thread = user)
    (call : callOf user log = some (.operate this operation))
    (mine : account.mine operation = true) : account.Balances user this (log ++ [event]) (later ++ [event]) := by
  obtain ⟨done, all, paired⟩ := balances
  obtain ⟨pointer, follows⟩ := replied same _ call
  rw [pending_mine call mine] at all
  have goes (calls : callOf user (log ++ [event]) = callOf user log) (other : ∀ entry, event ≠ .called user entry)
      (debited : account.debited user this (callOf user log) event = [])
      (credited : (event.reply user this).toList.flatMap account.credit = account.credited this event) :
      account.Balances user this (log ++ [event]) (later ++ [event]) := by
    refine ⟨done, ?_, ?_⟩
    · rw [pending_mine (calls.trans call) mine, credits_concat, all, replies_grow other, List.flatMap_append, credited,
        List.append_assoc]
    · rw [debits_concat, debited, List.append_nil]
      exact paired
  have ended (calls : callOf user (log ++ [event]) = none) (quiet : account.credited this event = [])
      (pairs : List.Forall₂ account.paired ((replies user this (recent user log)).flatMap account.credit)
        (account.debited user this (callOf user log) event)) :
      account.Balances user this (log ++ [event]) (later ++ [event]) := by
    refine ⟨done ++ (replies user this (recent user log)).flatMap account.credit, ?_, ?_⟩
    · rw [credits_concat, quiet, List.append_nil, all, pending_other (by simp [Busy, calls]), List.append_nil]
    · rw [debits_concat]
      exact List.rel_append paired pairs
  cases event with
  | called | spawned => exact follows.elim
  | returned actor value =>
    obtain rfl : actor = user := same
    refine ended (by simp [Event.callAfter]) rfl ?_
    rw [call, debited, if_pos ⟨rfl, rfl, mine⟩]
    exact account.returns mine follows
  | threw actor =>
    obtain rfl : actor = user := same
    refine ended (by simp [Event.callAfter]) rfl ?_
    rw [account.stops mine follows.1 follows.2]
    exact .nil
  | exited | disposed => exact goes (by simp [Event.callAfter]) (by simp) rfl rfl
  | _ => exact goes (by simp [Event.callAfter]) (by simp) rfl (credited_asked same)

/-- Only a call in progress is credited with anything. -/
theorem credited_busy (attended : Attended build user this (log ++ [event]))
    (connected : ∃ caller, .returned caller (.connected this) ∈ log) (credited : account.credited this event ≠ []) :
    event.thread = user ∧ account.Busy user this log := by
  obtain ⟨thread, object, call, answer, rfl⟩ : ∃ thread object call answer,
    event = .library thread object call answer := by
    cases event <;> first | exact ⟨_, _, _, _, rfl⟩ | exact (credited rfl).elim
  obtain rfl : object = this := by_contra fun other => credited (if_neg other)
  have credit : account.credit ⟨call, answer⟩ ≠ [] := fun none => credited ((if_pos rfl).trans none)
  have exclusive := (throughout_concat.mp attended.exclusive).2 thread rfl
  obtain ⟨rfl, entry, calls, serves⟩ := exclusive.connected connected
  cases entry with
  | operate found operation =>
    obtain rfl : found = object := serves
    obtain ⟨pointer, follows⟩ := (throughout_concat.mp attended.replied).2 rfl operation calls
    have asked : Asked build pointer operation (replies thread found (recent thread log ++ [_])) := follows
    have reply : (Event.library thread found call answer).reply thread found = some ⟨call, answer⟩ :=
      if_pos ⟨rfl, rfl, account.definitive _ credit⟩
    rw [replies_append, replies_one, reply] at asked
    exact ⟨rfl, operation, calls, account.asks _ (asked_last asked) credit⟩
  | destroy found =>
    obtain rfl : found = object := serves
    have closes := (throughout_concat.mp attended.closes).2 found call answer rfl calls
    cases closes.symm.trans (account.open_ _ credit)
  | _ => exact serves.elim

theorem Balances.step (balances : account.Balances user this log later)
    (attended : Attended build user this (log ++ [event]))
    (connected : ∃ caller, .returned caller (.connected this) ∈ log) :
    account.Balances user this (log ++ [event]) (later ++ [event]) := by
  by_cases inside : event.thread = user ∧ account.Busy user this log
  · obtain ⟨same, operation, call, mine⟩ := inside
    exact balances.inside (throughout_concat.mp attended.replied).2 same call mine
  · have quiet : account.credited this event = [] :=
      by_contra fun credited => inside (credited_busy attended connected credited)
    exact balances.others quiet inside

theorem credits_first (unconnected : ¬ ∃ caller, .returned caller (.connected this) ∈ log) :
    account.credits this (session this (log ++ [event])) = [] := by
  have first : session this (log ++ [event]) = session this [event] := by
    refine List.dropWhile_append.trans (if_pos ?_)
    exact List.isEmpty_iff.mpr (session_nil.mpr unconnected)
  rw [first, session, List.dropWhile_cons]
  split
  · rfl
  next connects => cases event <;> first | rfl | simp [Event.connects] at connects

theorem balances_all (attended : Attended build user this log) : account.Balances user this log (session this log) := by
  induction log using List.reverseRecOn with
  | nil => exact ⟨[], rfl, .nil⟩
  | append_singleton log event ih =>
    have balances := ih attended.earlier
    by_cases connected : ∃ caller, .returned caller (.connected this) ∈ log
    · rw [session_grows connected]
      exact balances.step attended connected
    · obtain ⟨done, all, paired⟩ := balances
      have idle : ¬ account.Busy user this log := fun ⟨_, call, _⟩ => attended.earlier.uncalled connected call
      rw [session_nil.mpr connected, pending_other idle, List.append_nil] at all
      obtain rfl : [] = done := all
      refine ⟨[], ?_, ?_⟩
      · rw [credits_first connected, pending_outside idle]
        rfl
      · rw [debits_concat, debited_outside fun inside => idle inside.2, List.append_nil]
        exact paired

theorem balanced (attended : Attended build user this log) : account.Balanced user this log := by
  obtain ⟨done, all, paired⟩ := @balances_all build T U user this log account attended
  refine ⟨done, _, all, paired, ?_⟩
  by_cases busy : account.Busy user this log
  · refine ⟨?_, fun _ => busy⟩
    obtain ⟨operation, call, mine⟩ := busy
    obtain ⟨pointer, asked⟩ := asked_now attended.replied call
    rw [pending_mine call mine]
    exact account.single mine asked
  · rw [pending_other busy]
    exact ⟨Nat.zero_le _, fun some => (some rfl).elim⟩

end Account

end PowerBoot.Transfer
