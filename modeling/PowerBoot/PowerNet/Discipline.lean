import PowerBoot.PowerNet.Footprint

/-! The rules by which properties of PowerNet are proved. All of them keep the log
and the calls under way; a property adds its invariant and what it needs the other
threads to leave alone. -/

namespace PowerBoot.PowerNet
open Coop

structure Discipline where
  choices : Choices kernel
  invariant : Net → Prop
  keeps : ThreadId → Net → Net → Prop
  step : ThreadId → Net → Net → Prop
  idle : ThreadId → Net → Prop

namespace Discipline
variable (d : Discipline)

def rules : Rules kernel where
  choices := d.choices
  knows := Net.Knows
  alive := Net.Alive
  invariant := d.invariant
  rely thread before after := Extends thread before after ∧ d.keeps thread before after
  step := d.step
  idle := d.idle
  requires entry thread net := callOf thread net.log = some entry ∧ since thread net.log = [] ∧ d.idle thread net

/-- Recording an event is never what another thread has to fear. -/
structure Regular : Prop where
  refl : ∀ thread net, d.keeps thread net net
  trans : ∀ {thread first middle last}, d.keeps thread first middle → d.keeps thread middle last →
    d.keeps thread first last
  record : ∀ thread net event, d.keeps thread net (net.record event)
  fresh : ∀ {thread net}, d.invariant net → ¬ net.Knows thread → d.idle thread net
  idles : ∀ {thread before after}, Extends thread before after → d.idle thread before → d.idle thread after

variable {d}

theorem Regular.orderly (regular : d.Regular) : d.rules.Orderly where
  refl thread net := ⟨.refl thread net, regular.refl thread net⟩
  trans early late := ⟨early.1.trans late.1, regular.trans early.2 late.2⟩

theorem Regular.sound (regular : d.Regular)
    (called : ∀ {thread entry net}, d.choices.calls thread entry net → d.invariant net → d.idle thread net →
      (∀ params, entry ≠ .connectThread params) →
      d.invariant (net.record (.called thread entry)) ∧ d.idle thread (net.record (.called thread entry)))
    (environment : ∀ {input net after}, d.choices.moves input net → d.invariant net → Moves net after →
      environment input net = some after → d.invariant after ∧ ∀ thread, d.keeps thread net after)
    (body : ∀ {entry thread net}, d.invariant net → callOf thread net.log = some entry → since thread net.log = [] →
      d.idle thread net → net.Alive thread → d.rules.Holds thread (body entry) (d.rules.Returns thread) net net) :
    d.rules.Sound where
  named := named d.rules rfl rfl
  refl := regular.orderly.refl
  trans := regular.orderly.trans
  fresh := regular.fresh
  idles moved := regular.idles moved.1
  readies moved ready := by
    obtain ⟨call, quiet, idle⟩ := ready
    obtain ⟨same, own, _⟩ := moved.1.call call
    exact ⟨same, own.trans quiet, regular.idles moved.1 idle⟩
  called {thread entry before after} allowed kept idle admitted := by
    obtain ⟨rfl, outside⟩ := called_does admitted
    obtain ⟨invariant, ready⟩ := called allowed kept idle outside
    refine ⟨⟨invariant, fun other different => ⟨.record rfl different ?_, regular.record other _ _⟩⟩, ?_, ?_, ready⟩
    · exact fun _ => by simp [Event.begins, Ne.symm different]
    · simp [Event.begins]
    · exact since_begins (by simp [Event.begins])
  environment allowed kept moved := by
    obtain ⟨invariant, keeps⟩ := environment allowed kept (environment_does moved) moved
    exact ⟨invariant, fun thread => ⟨(environment_does moved).extends thread, keeps thread⟩⟩
  body kept ready alive := body kept ready.1 ready.2.1 ready.2.2 alive

variable {thread : ThreadId} {entry : Entry} {net after : Net}

theorem ends_op {o : Op} {reply : o.Reply} (does : Does thread o reply net after) (kept : d.invariant after)
    (keeps : ∀ other, other ≠ thread → d.keeps other net after) : d.rules.Ends thread net after :=
  ⟨kept, fun other different => ⟨does.extends different, keeps other different⟩⟩

theorem Regular.ends_record (regular : d.Regular) {event : Event} (owner : event.thread = some thread)
    (begins : ∀ other, other ≠ thread → net.Knows other → event.begins other = none)
    (kept : d.invariant (net.record event)) : d.rules.Ends thread net (net.record event) :=
  ⟨kept, fun other different => ⟨.record owner different (begins other different), regular.record other net event⟩⟩

theorem holds_op {α : Type} {o : Op} {rest : o.Reply → Shim α} {post : α → Net → Net → Prop} {start now : Net}
    (goes : ∀ input reply after, d.choices.answers thread o input now → exec thread o input now = some (reply, after) →
      Does thread o reply now after →
      d.step thread now after ∧ d.rules.Holds thread (rest reply) post start after) :
    d.rules.Holds thread (perform o >>= rest) post start now :=
  fun input reply after answered executed => goes input reply after answered executed (exec_does executed)

/-- The events that code records without an operation. -/
def Marks (thread : ThreadId) (entries : Entry → Prop) : Event → Prop
  | .threw actor => actor = thread
  | .disposed actor _ => actor = thread
  | .spawned actor child entry => actor = thread ∧ child ≠ thread ∧ entries entry
  | _ => False

theorem Marks.begins {entries : Entry → Prop} {event : Event} (marks : Marks thread entries event) :
    event.begins thread = none := by
  cases event with
  | spawned actor child entry => simp [Event.begins, marks.2.1]
  | _ => first | rfl | exact False.elim marks

theorem Marks.unreturned {entries : Entry → Prop} {event : Event} (marks : Marks thread entries event) :
    ∀ actor value, event ≠ .returned actor value := by
  rintro actor value rfl
  exact marks

/-- The facts a thread keeps while its call is under way. -/
structure Keeping (d : Discipline) (thread : ThreadId) (entry : Entry) (ops : Op → Prop) (entries : Entry → Prop)
    (mine : Net → Prop) : Prop where
  op : ∀ {o input now reply after}, ops o → d.choices.answers thread o input now →
    exec thread o input now = some (reply, after) → d.invariant now → callOf thread now.log = some entry → mine now →
    d.step thread now after ∧ d.invariant after ∧ (∀ other, other ≠ thread → d.keeps other now after) ∧ mine after
  record : ∀ {now} event, Marks thread entries event → d.invariant now → callOf thread now.log = some entry → mine now →
    d.step thread now (now.record event) ∧ d.invariant (now.record event) ∧ mine (now.record event)
  waits : ∀ {before after}, d.invariant after → Extends thread before after → d.keeps thread before after →
    after.Alive thread → callOf thread before.log = some entry → mine before → mine after
  idle : ∀ {now}, d.invariant now → callOf thread now.log = some entry → mine now →
    d.idle thread (now.record (.threw thread))

theorem Keeping.routine (regular : d.Regular) {ops : Op → Prop} {entries : Entry → Prop} {mine : Net → Prop}
    (keeping : d.Keeping thread entry ops entries mine) :
    d.rules.Routine thread ops entries fun now => callOf thread now.log = some entry ∧ mine now where
  op o input now reply after used answered executed kept holds := by
    obtain ⟨stepped, invariant, keeps, mine⟩ := keeping.op used answered executed kept holds.1 holds.2
    have does := exec_does executed
    exact ⟨stepped, ends_op does invariant keeps, does.call.1.trans holds.1, mine⟩
  waits before after kept moved alive holds :=
    ⟨(moved.1.call holds.1).1, keeping.waits kept moved.1 moved.2 alive holds.1 holds.2⟩
  threw now kept holds := by
    obtain ⟨_, invariant, _⟩ := keeping.record (.threw thread) rfl kept holds.1 holds.2
    exact ⟨regular.ends_record rfl (fun _ _ _ => rfl) invariant, keeping.idle kept holds.1 holds.2⟩
  exited now kept _ := .refl regular.orderly kept
  spawned child started now used different fresh kept holds := by
    obtain ⟨stepped, invariant, mine⟩ := keeping.record (.spawned thread child started)
      ⟨rfl, different, used⟩ kept holds.1 holds.2
    have ends : d.rules.Ends thread now (now.record (.spawned thread child started)) := by
      refine regular.ends_record rfl (fun other _ knows => ?_) invariant
      have distinct : child ≠ other := fun same => fresh (same ▸ knows)
      simp [Event.begins, distinct]
    refine ⟨stepped, ends, ⟨?_, ?_, ?_⟩, ?_, mine⟩
    · simp [Event.begins]
    · exact since_begins (by simp [Event.begins])
    · exact regular.idles (ends.others child different).1 (regular.fresh kept fresh)
    · simpa [Event.begins, different] using holds.1
  disposed other now kept holds := by
    obtain ⟨stepped, invariant, mine⟩ := keeping.record (.disposed thread other) rfl kept holds.1 holds.2
    exact ⟨stepped, regular.ends_record rfl (fun _ _ _ => rfl) invariant, by simpa [Event.begins] using holds.1, mine⟩

theorem Keeping.body (regular : d.Regular) {ops : Op → Prop} {entries : Entry → Prop} {mine : Net → Prop}
    (keeping : d.Keeping thread entry ops entries mine) (uses : (body entry).Uses ops entries)
    (closes : ∀ value now, d.invariant now → callOf thread now.log = some entry → mine now →
      d.invariant (now.record (.returned thread value)) ∧ d.idle thread (now.record (.returned thread value)))
    (kept : d.invariant net) (call : callOf thread net.log = some entry) (holds : mine net) :
    d.rules.Holds thread (body entry) (d.rules.Returns thread) net net := by
  refine (keeping.routine regular).returns regular.orderly uses ?_ kept ⟨call, holds⟩
  intro value now kept holds
  obtain ⟨invariant, idle⟩ := closes value now kept holds.1 holds.2
  exact ⟨regular.ends_record rfl (fun _ _ _ => rfl) invariant, idle⟩

/-- In the middle of a call: the section can end here, and `mine` holds. -/
def Works (d : Discipline) (thread : ThreadId) (entry : Entry) (mine : Net → Prop) (start now : Net) : Prop :=
  d.rules.Ends thread start now ∧ callOf thread now.log = some entry ∧ mine now

namespace Works
variable {mine more : Net → Prop} {start now : Net}

theorem begins (regular : d.Regular) (kept : d.invariant net) (call : callOf thread net.log = some entry)
    (holds : mine net) : d.Works thread entry mine net net :=
  ⟨.refl regular.orderly kept, call, holds⟩

theorem plain (works : d.Works thread entry mine start now) (regular : d.Regular) {ops : Op → Prop}
    {entries : Entry → Prop} (keeping : d.Keeping thread entry ops entries mine) {α β : Type} {code : Shim α}
    {rest : α → Shim β} {post : β → Net → Net → Prop} (uses : code.Uses ops entries)
    (safe : ∀ value start now, d.Works thread entry mine start now → d.rules.Holds thread (rest value) post start now) :
    d.rules.Holds thread (code >>= rest) post start now :=
  (keeping.routine regular).bind regular.orderly uses works.1 works.2
    fun value start now ends holds => safe value start now ⟨ends, holds⟩

theorem last (works : d.Works thread entry mine start now) (regular : d.Regular) {ops : Op → Prop}
    {entries : Entry → Prop} (keeping : d.Keeping thread entry ops entries mine) {α : Type} {code : Shim α}
    {post : α → Net → Net → Prop} (uses : code.Uses ops entries)
    (safe : ∀ value start now, d.Works thread entry mine start now → post value start now) :
    d.rules.Holds thread code post start now :=
  ((keeping.routine regular).holds regular.orderly uses works.1 works.2).mono
    fun value start now ⟨ends, holds⟩ => safe value start now ⟨ends, holds⟩

theorem op (works : d.Works thread entry mine start now) (regular : d.Regular) {ops : Op → Prop}
    {entries : Entry → Prop} (keeping : d.Keeping thread entry ops entries mine) (o : Op) (used : ops o) {α : Type}
    {rest : o.Reply → Shim α} {post : α → Net → Net → Prop}
    (safe : ∀ reply after, Does thread o reply now after → d.Works thread entry mine start after →
      d.rules.Holds thread (rest reply) post start after) :
    d.rules.Holds thread (perform o >>= rest) post start now := by
  refine holds_op fun input reply after answered executed does => ?_
  obtain ⟨stepped, kept, keeps, holds⟩ := keeping.op used answered executed works.1.invariant works.2.1 works.2.2
  refine ⟨stepped, safe reply after does ⟨?_, does.call.1.trans works.2.1, holds⟩⟩
  exact works.1.trans regular.orderly (ends_op does kept keeps)

/-- The call is over where no event it made needs an answer. -/
theorem throws (works : d.Works thread entry mine start now) (regular : d.Regular) {ops : Op → Prop}
    {entries : Entry → Prop} (keeping : d.Keeping thread entry ops entries mine) {α : Type}
    {post : α → Net → Net → Prop} : d.rules.Holds thread .throw post start now := by
  have recorded := keeping.record (.threw thread) rfl works.1.invariant works.2.1 works.2.2
  refine ⟨?_, keeping.idle works.1.invariant works.2.1 works.2.2⟩
  exact works.1.trans regular.orderly (regular.ends_record rfl (fun _ _ _ => rfl) recorded.2.1)

/-- `openSockets.at` gives the socket that is listed, or throws. -/
theorem openSocketsAt (works : d.Works thread entry mine start now) (regular : d.Regular) {ops : Op → Prop}
    {entries : Entry → Prop} (keeping : d.Keeping thread entry ops entries mine) {fd : Nat} (used : ops (.lookup fd))
    {α : Type} {rest : Ptr → Shim α} {post : α → Net → Net → Prop}
    (safe : ∀ s after, after.lookup fd = some s → d.Works thread entry mine start after →
      d.rules.Holds thread (rest s) post start after) :
    d.rules.Holds thread (PowerNet.openSocketsAt fd >>= rest) post start now := by
  apply Rules.Holds.bind
  refine works.op regular keeping (.lookup fd) used fun found after does works => ?_
  have same : after.openSockets = now.openSockets := does.openSockets
  have answer : found = after.lookup fd := by
    rw [Net.lookup, same]
    exact does.answer
  cases found with
  | none => exact works.throws regular keeping
  | some s => exact safe s after answer.symm works

theorem returns (works : d.Works thread entry mine start now) (regular : d.Regular) {value : Value}
    (kept : d.invariant (now.record (.returned thread value)))
    (idle : d.idle thread (now.record (.returned thread value))) : d.rules.Returns thread value start now :=
  ⟨works.1.trans regular.orderly (regular.ends_record rfl (fun _ _ _ => rfl) kept), idle⟩

theorem step (works : d.Works thread entry mine start now) (regular : d.Regular) {o : Op} {reply : o.Reply}
    (does : Does thread o reply now after) (kept : d.invariant after)
    (keeps : ∀ other, other ≠ thread → d.keeps other now after) (holds : more after) :
    d.Works thread entry more start after :=
  ⟨works.1.trans regular.orderly (ends_op does kept keeps), does.call.1.trans works.2.1, holds⟩

end Works
end Discipline
end PowerBoot.PowerNet
