import Mathlib.Data.List.Pairwise
import PowerBoot.Coop.Log
import PowerBoot.PowerNet.Descriptors

/-! Descriptors and their sockets. The sockets are listed in the order of their
descriptors, each under the descriptor it holds itself, and no descriptor is
returned twice. -/

namespace PowerBoot.PowerNet
open Coop Code

/-- The entry that an insertion makes. -/
def Event.insertion : Event → Option (Nat × Ptr)
  | .inserted _ key socket => some (key, socket)
  | _ => none

/-- A call of `socket` returns this descriptor. -/
def Issues (past : List Event) (event : Event) (fd : Int) : Prop :=
  ∃ thread domain type protocol, event = .returned thread (.int fd) ∧
    callOf thread past = some (.socket domain type protocol)

/-- A descriptor is returned right after its thread listed it. -/
def Backed (past : List Event) (event : Event) : Prop :=
  ∀ thread fd domain type protocol, event = .returned thread (.int fd) →
    callOf thread past = some (.socket domain type protocol) →
    ∃ (key : Nat) (p : Ptr), fd = key ∧ (since thread past).getLast? = some (.inserted thread key p)

/-- Every insertion made its entry, and the socket of an entry holds its descriptor. -/
structure Registered (net : Net) : Prop where
  inserted : net.log.filterMap Event.insertion = net.openSockets
  named : ∀ fd p, (fd, p) ∈ net.openSockets → ∃ socket, net.heap[p]? = some socket ∧ socket.id = fd
  returns : Throughout Backed net.log

/-- The operations that a listed socket has to fear. -/
def Op.Names : Op → Prop
  | .insert .. | .assign _ (.id _) => True
  | _ => False

variable {thread : ThreadId} {net after : Net}

theorem Backed.other {past : List Event} {event : Event} (other : ∀ thread value, event ≠ .returned thread value) :
    Backed past event := fun thread _ _ _ _ same _ => (other thread _ same).elim

theorem Op.events_returned (o : Op) (reply : o.Reply) (actor : ThreadId) (value : Value) :
    .returned actor value ∉ o.events thread reply := by
  cases o <;> simp [Op.events]

theorem Assign.id_apply {member : Assign} (other : ∀ value, member ≠ .id value) (socket : Socket) :
    (member.apply socket).id = socket.id := by
  cases member <;> simp_all [Assign.apply]

theorem Does.id {o : Op} {reply : o.Reply} (does : Does thread o reply net after) {p : Ptr} {socket : Socket}
    (found : net.heap[p]? = some socket) (other : ∀ value, o ≠ .assign p (.id value)) :
    ∃ later, after.heap[p]? = some later ∧ later.id = socket.id := by
  rw [does.heap]
  cases o with
  | newSocket =>
    have inside := (List.getElem?_eq_some_iff.mp found).1
    exact ⟨socket, by rw [Op.heap, List.getElem?_append_left inside, found], rfl⟩
  | assign changed member =>
    rw [Op.heap, List.getElem?_modify, found]
    by_cases same : changed = p
    · subst same
      refine ⟨member.apply socket, by simp, Assign.id_apply (fun value equal => other value ?_) socket⟩
      rw [equal]
    · exact ⟨socket, by simp [same], rfl⟩
  | _ => exact ⟨socket, found, rfl⟩

namespace Registered

theorem returns_op {o : Op} {reply : o.Reply} (kept : Registered net) (does : Does thread o reply net after) :
    Throughout Backed after.log := by
  rw [does.log]
  refine kept.returns.append fun past event member => .other ?_
  rintro actor value rfl
  exact Op.events_returned o reply actor value member

theorem op {o : Op} {reply : o.Reply} (kept : Registered net) (does : Does thread o reply net after)
    (plain : ¬ o.Names) : Registered after := by
  have openSockets : after.openSockets = net.openSockets := by
    rw [does.openSockets]
    cases o <;> first | exact (plain trivial).elim | rfl
  have events : (o.events thread reply).filterMap Event.insertion = [] := by
    cases o <;> first | exact (plain trivial).elim | rfl
  refine ⟨by rw [does.log, List.filterMap_append, events, List.append_nil, kept.inserted, openSockets], ?_,
    kept.returns_op does⟩
  intro fd p listed
  obtain ⟨socket, found, same⟩ := kept.named fd p (openSockets ▸ listed)
  obtain ⟨later, found, id⟩ := does.id found (by rintro value rfl; exact plain trivial)
  exact ⟨later, found, id.trans same⟩

theorem record {event : Event} (kept : Registered net) (ordinary : event.insertion = none)
    (backed : Backed net.log event) : Registered (net.record event) where
  inserted := by simpa [ordinary] using kept.inserted
  named := kept.named
  returns := throughout_concat.mpr ⟨kept.returns, backed⟩

theorem moved (kept : Registered net) (moves : Moves net after) : Registered after := by
  obtain ⟨event, alien, log⟩ := moves.log
  refine ⟨?_, ?_, ?_⟩
  · have ordinary : event.insertion = none := by cases event <;> first | rfl | cases alien
    rw [log, moves.openSockets, List.filterMap_append, kept.inserted]
    simp [ordinary]
  · rw [moves.openSockets, moves.heap]
    exact kept.named
  · rw [log]
    refine throughout_concat.mpr ⟨kept.returns, .other ?_⟩
    rintro thread value rfl
    cases alien

theorem rename {p : Ptr} {fd : Nat} (kept : Registered net) (unlisted : p ∉ net.pointers)
    (does : Does thread (.assign p (.id fd)) () net after) :
    Registered after ∧ ∃ socket, after.heap[p]? = some socket ∧ socket.id = fd := by
  have openSockets : after.openSockets = net.openSockets := does.openSockets
  have log : after.log = net.log := by simp [does.log, Op.events]
  refine ⟨⟨by rw [log, kept.inserted, openSockets], ?_, kept.returns_op does⟩, ?_⟩
  · intro other q listed
    rw [openSockets] at listed
    obtain ⟨socket, found, same⟩ := kept.named other q listed
    have different : q ≠ p := by
      rintro rfl
      exact unlisted (List.mem_map.mpr ⟨_, listed, rfl⟩)
    obtain ⟨later, found, id⟩ := does.id found (by rintro value ⟨⟩; exact different rfl)
    exact ⟨later, found, id.trans same⟩
  · have inside : p < net.heap.length := does.answer
    refine ⟨{ net.heap[p] with id := fd }, ?_, rfl⟩
    simp [does.heap, Op.heap, inside, Assign.apply]

theorem list {p : Ptr} {socket : Socket} (table : Table net) (kept : Registered net)
    (does : Does thread (.insert net.openSockets.length p) () net after) (found : net.heap[p]? = some socket)
    (id : socket.id = net.openSockets.length) : Registered after := by
  have openSockets : after.openSockets = net.openSockets ++ [(net.openSockets.length, p)] := by
    rw [does.openSockets]
    simp [Op.openSockets, Net.insert, table.unlisted]
  have heap : after.heap = net.heap := does.heap
  refine ⟨?_, ?_, kept.returns_op does⟩
  · simp [does.log, Op.events, Event.insertion, openSockets, kept.inserted]
  · intro fd q listed
    rw [openSockets] at listed
    rw [heap]
    rcases List.mem_append.mp listed with old | new
    · exact kept.named fd q old
    · cases List.mem_singleton.mp new
      exact ⟨socket, found, id⟩

end Registered

def registry : Discipline where
  choices := .all kernel
  invariant net := Table net ∧ Registered net
  keeps := table.keeps
  step _ _ after := Table after ∧ Registered after
  idle _ _ := True

theorem registry_regular : registry.Regular where
  refl := table_regular.refl
  trans := table_regular.trans
  record := table_regular.record
  fresh _ _ := trivial
  idles _ _ := trivial

/-- The operations that change neither the table nor a descriptor. -/
def Op.Plain (o : Op) : Prop := ¬ o.Builds ∧ ¬ o.Names

theorem registry_record {event : Event} (kept : Table net ∧ Registered net)
    (other : ∀ thread p, event ≠ .created thread p) (ordinary : event.insertion = none)
    (backed : Backed net.log event) : Table (net.record event) ∧ Registered (net.record event) :=
  ⟨(SameTable.record net event other).table kept.1, kept.2.record ordinary backed⟩

theorem registry_keeping (thread : ThreadId) (entry : Entry) (entries : Entry → Prop) (owned : Ptr → Prop) :
    registry.Keeping thread entry Op.Plain entries fun net => ∀ p, owned p → Owns thread p net where
  op plain _ executed kept _ mine := by
    have does := exec_does executed
    have same := does.same_table plain.1
    have after := And.intro (same.table kept.1) (kept.2.op does plain.2)
    exact ⟨after, after, fun other _ => same.keeps other, fun p own => same.owns (mine p own)⟩
  record {now} event marks kept _ mine := by
    have same : SameTable now (now.record event) := by
      refine .record now event ?_
      rintro actor p rfl
      exact marks
    have after : Table (now.record event) ∧ Registered (now.record event) := by
      refine ⟨same.table kept.1, kept.2.record ?_ (.other ?_)⟩
      · cases event <;> first | exact False.elim marks | rfl
      · rintro actor value rfl
        exact marks
    exact ⟨after, after, fun p own => same.owns (mine p own)⟩
  waits _ _ keeps _ _ mine := fun p own => (keeps.2 p (mine p own)).1
  idle _ _ _ := trivial

theorem registry_body {entry : Entry} (other : ∀ domain type protocol, entry ≠ .socket domain type protocol)
    (uses : (body entry).Uses Op.Plain connectEntries) (kept : Table net ∧ Registered net)
    (call : callOf thread net.log = some entry) :
    registry.rules.Holds thread (body entry) (registry.rules.Returns thread) net net := by
  refine (registry_keeping thread entry connectEntries fun _ => False).body registry_regular uses ?_ kept call nofun
  intro value now kept call _
  refine ⟨registry_record kept (by simp) rfl ?_, trivial⟩
  intro actor fd domain type protocol same opens
  cases same
  exact (other _ _ _ (Option.some.inj (call.symm.trans opens))).elim

private theorem reports_ordinary : ∀ o, reportOps o → o.Plain := by
  refine fun o reports => ⟨fun builds => ?_, fun names => ?_⟩
  · cases o <;> first | exact False.elim reports | exact False.elim builds
  · cases o <;> first | exact False.elim reports | exact False.elim names

/-- What `socket` keeps while it works on the sockets it owns. -/
private def Listing (thread : ThreadId) (entry : Entry) (owned : Ptr → Prop) : Net → Net → Prop :=
  registry.Works thread entry fun net => ∀ p, owned p → Owns thread p net

private theorem Listing.plain {entry : Entry} {owned : Ptr → Prop} {start now : Net}
    (works : Listing thread entry owned start now) {α β : Type} {code : Shim α} {rest : α → Shim β}
    {post : β → Net → Net → Prop} (uses : code.Uses Op.Plain connectEntries)
    (safe : ∀ value start now, Listing thread entry owned start now →
      registry.rules.Holds thread (rest value) post start now) :
    registry.rules.Holds thread (code >>= rest) post start now :=
  Discipline.Works.plain works registry_regular (registry_keeping thread entry connectEntries owned) uses safe

private theorem Listing.step (more : Ptr → Prop) {entry : Entry} {owned : Ptr → Prop} {start now after : Net} {o : Op}
    {reply : o.Reply}
    (works : Listing thread entry owned start now) (does : Does thread o reply now after) (listed : Table after)
    (registered : Registered after) (keeps : ∀ other, other ≠ thread → table.keeps other now after)
    (owns : ∀ p, more p → Owns thread p after) : Listing thread entry more start after :=
  Discipline.Works.step works registry_regular does ⟨listed, registered⟩ keeps owns

private theorem Listing.same {entry : Entry} {owned : Ptr → Prop} {start now after : Net} {o : Op} {reply : o.Reply}
    (works : Listing thread entry owned start now) (does : Does thread o reply now after) (same : SameTable now after)
    (registered : Registered after) : Listing thread entry owned start after :=
  works.step owned does (same.table works.1.invariant.1) registered (fun other _ => same.keeps other)
    fun p own => same.owns (works.2.2 p own)

/-- The last thing that `thread` did is this event. -/
private def Last (thread : ThreadId) (event : Event) (net : Net) : Prop := (since thread net.log).getLast? = some event

private theorem Last.waits {event : Event} {before after : Net} {entry : Entry} (last : Last thread event before)
    (call : callOf thread before.log = some entry) (moved : Extends thread before after) : Last thread event after := by
  rw [Last, (moved.call call).2.1]
  exact last

/-- The end of `socket`, from the size of the table on. -/
private def listing (skt : Ptr) : Shim Int := do
  let socketId ← perform .size
  perform (.assign skt (.id socketId))
  perform (.insert socketId skt)
  pause
  return socketId

/-- No yield comes between taking the size and listing the socket under it, and nothing
but a yield between this and the return. -/
private theorem listing_registry {entry : Entry} {skt : Ptr} {start now : Net}
    (draft : Listing thread entry (· = skt) start now) : registry.rules.Holds thread (listing skt)
      (fun socketId => registry.rules.Returns thread (.int socketId)) start now := by
  refine Discipline.holds_op fun _ socketId sized _ _ does => ?_
  have answer : socketId = now.openSockets.length := does.answer
  have same := does.same_table id
  have size : socketId = sized.openSockets.length := by rw [same.openSockets, answer]
  have draft := draft.same does same (draft.1.invariant.2.op does id)
  refine ⟨draft.1.invariant, Discipline.holds_op fun _ _ named _ _ does => ?_⟩
  have same := does.same_table id
  have size : socketId = named.openSockets.length := by rw [same.openSockets, size]
  obtain ⟨registered, holder, found, holds⟩ := draft.1.invariant.2.rename (draft.2.2 skt rfl).2 does
  have draft := draft.same does same registered
  refine ⟨draft.1.invariant, Discipline.holds_op fun _ _ after _ _ does => ?_⟩
  subst size
  have registered := registered.list draft.1.invariant.1 does found holds
  obtain ⟨listed, steady, keeps⟩ := draft.1.invariant.1.list (draft.2.2 skt rfl) does
  have last : Last thread (.inserted thread named.openSockets.length skt) after := by
    rw [Last, does.log, Op.events, since_concat rfl]
    simp [Event.thread]
  have done := draft.step (fun _ => False) does listed registered keeps fun _ never => never.elim
  refine ⟨⟨listed, registered⟩, done.1, fun later kept moved _ => ?_⟩
  have last := last.waits done.2.1 moved.1
  refine ⟨registry_regular.ends_record rfl (fun _ _ _ => rfl) (registry_record kept (by simp) rfl ?_), trivial⟩
  intro actor fd _ _ _ same _
  cases same
  exact ⟨_, skt, rfl, last⟩

/-- `socket` lists its socket under the descriptor that it holds and that it returns. -/
theorem socket_registry {domain type protocol : Int} (kept : Table net ∧ Registered net)
    (call : callOf thread net.log = some (.socket domain type protocol)) :
    registry.rules.Holds thread (body (.socket domain type protocol)) (registry.rules.Returns thread) net net := by
  apply Rules.Holds.bind
  have begins : Listing thread (.socket domain type protocol) (fun _ => False) net net :=
    .begins registry_regular kept call nofun
  refine begins.plain (perform_uses ⟨id, id⟩) fun status _ _ works => ?_
  refine works.plain (when_uses (macErrorThrow_uses reports_ordinary _ _)) fun _ _ _ works => ?_
  refine works.plain pause_uses fun _ start now works => Discipline.holds_op fun _ skt after _ _ does => ?_
  obtain ⟨listed, keeps, owns⟩ := works.1.invariant.1.create does
  have registered := works.1.invariant.2.op does id
  have draft := works.step (· = skt) does listed registered (fun other _ => keeps other) fun p same => same ▸ owns
  refine ⟨⟨listed, registered⟩, draft.plain pause_uses fun _ _ _ draft => ?_⟩
  refine draft.plain (configure_uses reports_ordinary ⟨id, id⟩ (fun _ => ⟨id, id⟩) type) fun _ _ _ draft => ?_
  refine draft.plain pause_uses fun _ _ _ draft => ?_
  refine draft.plain (perform_uses ⟨id, id⟩) fun s start now draft => ?_
  refine Discipline.holds_op fun _ opened opening _ _ does => ?_
  have unused := draft.1.invariant.1.open does
  have draft := draft.same does (does.same_table id) (draft.1.invariant.2.op does id)
  refine ⟨draft.1.invariant, Discipline.holds_op fun _ _ after _ _ does => ?_⟩
  obtain ⟨listed, steady, keeps, owns⟩ := draft.1.invariant.1.attach (draft.2.2 skt rfl) unused does
  have registered := draft.1.invariant.2.op does id
  have draft := draft.step (· = skt) does listed registered keeps fun p same => same ▸ owns
  refine ⟨⟨listed, registered⟩, draft.plain (throwOsErr_uses reports_ordinary _ _ _ _) fun _ _ _ draft => ?_⟩
  refine draft.plain pause_uses fun _ _ _ draft => draft.plain (perform_uses ⟨id, id⟩) fun s _ _ draft => ?_
  refine draft.plain (perform_uses ⟨id, id⟩) fun _ _ _ draft => draft.plain pause_uses fun _ start now draft => ?_
  exact listing_registry draft

theorem body_registers (entry : Entry) (other : ∀ domain type protocol, entry ≠ .socket domain type protocol) :
    (body entry).Uses Op.Plain connectEntries := by
  refine (body_uses entry).mono (fun o used => ⟨ops_plain other used, fun names => ?_⟩) fun _ used => used
  cases entry with
  | socket domain type protocol => exact other domain type protocol rfl
  | _ =>
    cases o with
    | assign socket member => cases member <;> first | exact False.elim names | exact False.elim used
    | _ => first | exact False.elim names | exact False.elim used

theorem registry_sound : registry.rules.Sound := by
  refine registry_regular.sound ?_ ?_ ?_
  · intro thread entry net _ kept _ _
    exact ⟨registry_record kept (by simp) rfl (.other (by simp)), trivial⟩
  · intro input net after _ kept moves _
    exact ⟨⟨moves.same_table.table kept.1, kept.2.moved moves⟩, moves.same_table.keeps⟩
  · intro entry thread net kept call _ _ _
    by_cases opens : ∃ domain type protocol, entry = .socket domain type protocol
    · obtain ⟨domain, type, protocol, rfl⟩ := opens
      exact socket_registry kept call
    · have other := fun domain type protocol same => opens ⟨domain, type, protocol, same⟩
      exact registry_body other (body_registers entry other) kept call

theorem registry_initial (mainThreadId count : Nat) : registry.rules.Safe (initial mainThreadId count) := by
  refine Rules.Safe.initial ⟨?_, rfl, nofun, .nil⟩ ?_ fun _ => trivial
  · constructor <;> simp [Net.pointers, Net.endpointAt]
  · rintro name ⟨event, member, _⟩
    cases member

theorem since_last {log : List Event} {event : Event} (last : (since thread log).getLast? = some event) :
    ∃ past rest, log = past ++ event :: rest ∧ ∀ later ∈ rest, later.thread ≠ some thread := by
  induction log using List.reverseRecOn with
  | nil => cases last
  | append_singleton log final ih =>
    cases begins : final.begins thread with
    | some entry => simp [since_begins, begins] at last
    | none =>
      rw [since_concat begins] at last
      by_cases own : final.thread = some thread
      · rw [if_pos own, List.getLast?_concat, Option.some.injEq] at last
        subst last
        exact ⟨log, [], rfl, nofun⟩
      · rw [if_neg own, List.append_nil] at last
        obtain ⟨past, rest, split, others⟩ := ih last
        refine ⟨past, rest ++ [final], by rw [split, List.append_assoc, List.cons_append], fun later member => ?_⟩
        rcases List.mem_append.mp member with early | now
        · exact others later early
        · exact List.mem_singleton.mp now ▸ own

/-- The events do not insert the same key. -/
def Apart (first second : Event) : Prop :=
  ∀ entry, first.insertion = some entry → ∀ other, second.insertion = some other → entry.1 ≠ other.1

instance : Std.Symm Apart := ⟨fun _ _ apart entry found other again => (apart other again entry found).symm⟩

/-- No key is inserted twice. -/
theorem Registered.once (listed : Table net) (kept : Registered net) : net.log.Pairwise Apart := by
  have keys : ((net.log.filterMap Event.insertion).map Prod.fst).Nodup := by
    rw [kept.inserted, listed.keys]
    exact List.nodup_range
  exact List.pairwise_filterMap.mp (List.pairwise_map.mp keys)

private theorem returned_between {past between : List Event} {event : Event} {value : Value} {before after : List Event}
    (whole : past ++ .returned thread value :: between = before ++ event :: after)
    (quiet : ∀ later ∈ after, later.thread ≠ some thread) (other : event ≠ .returned thread value) :
      event ∈ between := by
  rcases List.append_eq_append_iff.mp whole with ⟨middle, rfl, split⟩ | ⟨middle, rfl, split⟩
  · cases middle with
    | nil => exact (other (List.cons.inj split).1.symm).elim
    | cons first middle =>
      rw [(List.cons.inj split).2]
      simp
  · cases middle with
    | nil => exact (other (List.cons.inj split).1).elim
    | cons first middle =>
      have member : .returned thread value ∈ after := by
        rw [(List.cons.inj split).2]
        simp
      exact (quiet _ member rfl).elim

/-- Two calls never return the same descriptor. -/
theorem Registered.single (listed : Table net) (kept : Registered net) {past between rest : List Event}
    {first second : Event} {fd : Int} (split : net.log = past ++ first :: (between ++ second :: rest))
    (opens : Issues past first fd) (again : Issues (past ++ first :: between) second fd) : False := by
  obtain ⟨thread, _, _, _, rfl, call⟩ := opens
  obtain ⟨actor, _, _, _, rfl, called⟩ := again
  obtain ⟨key, p, rfl, last⟩ := kept.returns past _ _ split thread _ _ _ _ rfl call
  obtain ⟨other, q, same, since⟩ := kept.returns (past ++ .returned thread (.int key) :: between)
    (.returned actor (.int key)) rest (by simp [split]) actor _ _ _ _ rfl called
  obtain rfl : key = other := Int.ofNat.inj same
  obtain ⟨before, after, whole, quiet⟩ := since_last since
  have once := kept.once listed
  rw [split, List.pairwise_append] at once
  obtain ⟨early, _, apart⟩ := once
  have member : .inserted thread key p ∈ past := since_sublist.subset (List.mem_of_getLast? last)
  have late : .inserted actor key q ∉ between := by
    intro found
    exact apart _ member (.inserted actor key q) (by simp [found]) (key, p) rfl (key, q) rfl rfl
  have mine : .inserted actor key q ∈ past := by
    have found : .inserted actor key q ∈ past ++ .returned thread (.int key) :: between := by simp [whole]
    simpa [late] using found
  have equal : Event.inserted thread key p = .inserted actor key q := by
    by_contra different
    exact early.forall member mine different (key, p) rfl (key, q) rfl rfl
  cases equal
  exact late (returned_between whole quiet (by simp))

theorem registry_everywhere {mainThreadId count : Nat} {world : World kernel}
    (reached : (Choices.all kernel).Reaches (initial mainThreadId count) world) :
    Table world.state ∧ Registered world.state :=
  registry_sound.everywhere (registry_initial mainThreadId count) rfl (fun _ kept => kept)
    (fun _ _ _ kept => kept) reached

theorem log_grows : kernel.Steps fun before after => before.log <+: after.log where
  exec executed := by
    rw [(exec_does executed).log]
    exact List.prefix_append ..
  called admitted := by
    obtain ⟨rfl, _⟩ := called_does admitted
    exact List.prefix_append ..
  spawned := List.prefix_append ..
  disposed := List.prefix_append ..
  exited := List.prefix_refl _
  returned := List.prefix_append ..
  threw := List.prefix_append ..
  environment moved := by
    obtain ⟨event, _, log⟩ := (environment_does moved).log
    rw [log]
    exact List.prefix_append ..

/-- The table of sockets in a world, and in all that can follow it. -/
structure SocketTable (world : World kernel) : Prop where
  keys : world.state.openSockets.map Prod.fst = List.range world.state.openSockets.length
  effective : world.state.log.filterMap Event.insertion = world.state.openSockets
  ids : ∀ fd p, world.state.lookup fd = some p → ∃ socket, world.state.heap[p]? = some socket ∧ socket.id = fd
  distinct : ∀ fd other p, world.state.lookup fd = some p → world.state.lookup other = some p → fd = other
  single : ∀ past first between second rest fd, world.state.log = past ++ first :: (between ++ second :: rest) →
    Issues past first fd → ¬ Issues (past ++ first :: between) second fd
  stable : ∀ past event rest fd, world.state.log = past ++ event :: rest → Issues past event fd →
    ∃ (key : Nat) (p : Ptr), fd = key ∧ ∀ later : World kernel, (Choices.all kernel).Reaches world later →
      later.state.lookup key = some p

theorem Table.lookup_of_mem (listed : Table net) {key : Nat} {p : Ptr} (made : (key, p) ∈ net.openSockets) :
    net.lookup key = some p := by
  obtain ⟨before, after, split⟩ := List.append_of_mem made
  refine List.lookup_eq_some_iff.mpr ⟨before, after, split, fun entry member => ?_⟩
  have keys : (net.openSockets.map Prod.fst).Nodup := by
    rw [listed.keys]
    exact List.nodup_range
  rw [split, List.map_append, List.nodup_append] at keys
  exact bne_iff_ne.mpr (keys.2.2 _ (List.mem_map_of_mem member) _ (List.mem_cons_self ..)).symm

/-- The socket that is listed under a descriptor which was returned. -/
theorem Registered.issued (kept : Registered net) {past rest : List Event} {event : Event} {fd : Int}
    (split : net.log = past ++ event :: rest) (issues : Issues past event fd) :
    ∃ (key : Nat) (p : Ptr), fd = key ∧ (key, p) ∈ net.openSockets := by
  obtain ⟨thread, _, _, _, rfl, call⟩ := issues
  obtain ⟨key, p, rfl, last⟩ := kept.returns past _ _ split thread _ _ _ _ rfl call
  refine ⟨key, p, rfl, ?_⟩
  rw [← kept.inserted]
  refine List.mem_filterMap.mpr ⟨.inserted thread key p, ?_, rfl⟩
  have member := since_sublist.subset (List.mem_of_getLast? last)
  simp [split, member]

/-- Every table that a run reaches is in order and keeps its entries. -/
theorem sockets_listed {mainThreadId count : Nat} {world : World kernel}
    (reached : (Choices.all kernel).Reaches (initial mainThreadId count) world) : SocketTable world := by
  obtain ⟨listed, kept⟩ := registry_everywhere reached
  refine ⟨listed.keys, kept.inserted, fun fd p found => kept.named fd p (Net.lookup_member found),
    fun fd other p found again => listed.same_key found again, ?_, ?_⟩
  · exact fun past first between second rest fd split issues again => kept.single listed split issues again
  · intro past event rest fd split issues
    obtain ⟨key, p, rfl, made⟩ := kept.issued split issues
    refine ⟨key, p, rfl, fun later after => ?_⟩
    obtain ⟨stillListed, stillKept⟩ := registry_everywhere (reached.trans _ after)
    obtain ⟨more, grown⟩ := log_grows.reaches (fun _ => List.prefix_refl _) List.IsPrefix.trans after
    refine stillListed.lookup_of_mem ?_
    rw [← stillKept.inserted, ← grown, List.filterMap_append, kept.inserted]
    exact List.mem_append_left _ made

/-- Two threads make a socket each. -/
private def twice : World kernel := (initial 0 3).after (opening 1 ++ opening 2)

theorem sockets_listed_twice : SocketTable twice ∧ twice.state.openSockets = [(0, 0), (1, 1)] :=
  ⟨@sockets_listed 0 3 twice .after, rfl⟩

end PowerBoot.PowerNet
