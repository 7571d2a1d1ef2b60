import Mathlib.Data.List.Nodup
import PowerBoot.PowerNet.Discipline

/-! The table of descriptors. An entry is never replaced and the endpoint of a
listed socket never changes, because `socket` prepares a socket that no other
thread knows of and lists it only at the end. -/

namespace PowerBoot.PowerNet
open Coop Code

def Net.pointers (net : Net) : List Ptr := net.openSockets.map Prod.snd

/-- A step that respects the sockets in the table. -/
structure Steady (before after : Net) : Prop where
  lookup : ∀ {fd p}, before.lookup fd = some p → after.lookup fd = some p
  pointers : ∀ {p}, p ∈ before.pointers → p ∈ after.pointers
  endpoint : ∀ {p}, p ∈ before.pointers → after.endpointAt p = before.endpointAt p

namespace Steady

theorem refl (net : Net) : Steady net net := ⟨id, id, fun _ => rfl⟩

theorem trans {first middle last : Net} (early : Steady first middle) (late : Steady middle last) :
    Steady first last where
  lookup found := late.lookup (early.lookup found)
  pointers member := late.pointers (early.pointers member)
  endpoint member := (late.endpoint (early.pointers member)).trans (early.endpoint member)

theorem record (net : Net) (event : Event) : Steady net (net.record event) := ⟨id, id, fun _ => rfl⟩

end Steady

theorem Net.lookup_member {net : Net} {fd : Nat} {p : Ptr} (found : net.lookup fd = some p) :
    (fd, p) ∈ net.openSockets := by
  obtain ⟨before, after, same, _⟩ := List.lookup_eq_some_iff.mp found
  rw [same]
  simp

theorem Net.lookup_pointers {net : Net} {fd : Nat} {p : Ptr} (found : net.lookup fd = some p) : p ∈ net.pointers :=
  List.mem_map.mpr ⟨_, Net.lookup_member found, rfl⟩

/-- Descriptors are numbered as they are listed, and each stands for a socket of
its own with an endpoint of its own. -/
structure Table (net : Net) : Prop where
  keys : net.openSockets.map Prod.fst = List.range net.openSockets.length
  listed : ∀ p ∈ net.pointers, p < net.heap.length
  single : net.pointers.Nodup
  opened : ∀ {p ref}, net.endpointAt p = some ref → ref < net.endpoints.length
  apart : ∀ {p other ref}, net.endpointAt p = some ref → net.endpointAt other = some ref → p = other
  allocated : ∀ {thread p}, Event.created thread p ∈ net.log → p < net.heap.length
  creator : ∀ {thread other p}, Event.created thread p ∈ net.log → Event.created other p ∈ net.log → thread = other

theorem Table.same_key {net : Net} (kept : Table net) {fd other : Nat} {p : Ptr} (found : net.lookup fd = some p)
    (again : net.lookup other = some p) : fd = other :=
  congrArg Prod.fst (List.inj_on_of_nodup_map kept.single (Net.lookup_member found) (Net.lookup_member again) rfl)

/-- Two descriptors never share an endpoint. -/
theorem Table.endpoint_iff {net : Net} (kept : Table net) {fd other : Nat} {p q : Ptr} {ref : EndpointRef}
    (listed : net.lookup fd = some p) (opened : net.endpointAt p = some ref) (found : net.lookup other = some q) :
    net.endpointAt q = some ref ↔ other = fd := by
  constructor
  · intro same
    cases kept.apart opened same
    exact kept.same_key found listed
  · rintro rfl
    cases listed.symm.trans found
    exact opened

/-- A socket that its creator has not listed yet. -/
def Owns (thread : ThreadId) (p : Ptr) (net : Net) : Prop := Event.created thread p ∈ net.log ∧ p ∉ net.pointers

def table : Discipline where
  choices := .all kernel
  invariant := Table
  keeps thread before after := Steady before after ∧
    ∀ p, Owns thread p before → Owns thread p after ∧ after.endpointAt p = before.endpointAt p
  step _ before after := Steady before after
  idle _ _ := True

theorem table_regular : table.Regular where
  refl _ net := ⟨.refl net, fun _ owns => ⟨owns, rfl⟩⟩
  trans early late := by
    refine ⟨early.1.trans late.1, fun p owns => ?_⟩
    obtain ⟨owned, same⟩ := early.2 p owns
    obtain ⟨still, kept⟩ := late.2 p owned
    exact ⟨still, kept.trans same⟩
  record _ net event := ⟨.record net event, fun _ owns => ⟨⟨List.mem_append_left _ owns.1, owns.2⟩, rfl⟩⟩
  fresh _ _ := trivial
  idles _ _ := trivial

/-- The table and the endpoints of all sockets are as before. -/
structure SameTable (before after : Net) : Prop where
  openSockets : after.openSockets = before.openSockets
  heap : before.heap.length ≤ after.heap.length
  endpointAt : ∀ p, after.endpointAt p = before.endpointAt p
  endpoints : before.endpoints.length ≤ after.endpoints.length
  created : ∀ thread p, Event.created thread p ∈ after.log ↔ Event.created thread p ∈ before.log

namespace SameTable
variable {before after : Net}

theorem steady (same : SameTable before after) : Steady before after := by
  refine ⟨?_, ?_, fun {p} _ => same.endpointAt p⟩
  · simp only [Net.lookup, same.openSockets, imp_self, implies_true]
  · simp only [Net.pointers, same.openSockets, imp_self, implies_true]

theorem table (same : SameTable before after) (kept : Table before) : Table after := by
  obtain ⟨openSockets, heap, endpointAt, endpoints, created⟩ := same
  have pointers : after.pointers = before.pointers := by simp only [Net.pointers, openSockets]
  refine ⟨openSockets ▸ kept.keys, ?_, pointers ▸ kept.single, ?_, ?_, ?_, ?_⟩
  · exact fun p member => Nat.lt_of_lt_of_le (kept.listed p (pointers ▸ member)) heap
  · exact fun found => Nat.lt_of_lt_of_le (kept.opened ((endpointAt _).symm.trans found)) endpoints
  · exact fun found same => kept.apart ((endpointAt _).symm.trans found) ((endpointAt _).symm.trans same)
  · exact fun member => Nat.lt_of_lt_of_le (kept.allocated ((created _ _).mp member)) heap
  · exact fun mine theirs => kept.creator ((created _ _).mp mine) ((created _ _).mp theirs)

theorem owns (same : SameTable before after) {thread : ThreadId} {p : Ptr} (owns : Owns thread p before) :
    Owns thread p after := by
  obtain ⟨created, unlisted⟩ := owns
  refine ⟨(same.created thread p).mpr created, ?_⟩
  simpa only [Net.pointers, same.openSockets] using unlisted

theorem keeps (same : SameTable before after) (thread : ThreadId) : PowerNet.table.keeps thread before after :=
  ⟨same.steady, fun p owns => ⟨same.owns owns, same.endpointAt p⟩⟩

theorem record (net : Net) (event : Event) (other : ∀ thread p, event ≠ .created thread p) :
    SameTable net (net.record event) := by
  refine ⟨rfl, Nat.le_refl _, fun _ => rfl, Nat.le_refl _, ?_⟩
  intro thread p
  simp [Ne.symm (other thread p)]

end SameTable

/-- The operations by which a socket comes about. -/
def Op.Builds : Op → Prop
  | .newSocket | .insert .. | .assign _ (.endpoint _) => True
  | _ => False

theorem Assign.endpoint_apply {member : Assign} (other : ∀ value, member ≠ .endpoint value) (socket : Socket) :
    (member.apply socket).endpoint = socket.endpoint := by
  cases member <;> simp_all [Assign.apply]

theorem Does.loaded {thread : ThreadId} {s : Ptr} {socket : Socket} {net after : Net}
    (does : Does thread (.load s) socket net after) :
    after.heap[s]? = some socket ∧ after.endpointAt s = socket.endpoint := by
  have heap : after.heap = net.heap := does.heap
  have answer : after.heap[s]? = some socket := heap ▸ does.answer
  exact ⟨answer, by simp [Net.endpointAt, answer]⟩

theorem Does.endpointAt {thread : ThreadId} {o : Op} {reply : o.Reply} {net after : Net}
    (does : Does thread o reply net after) (other : ∀ socket value, o ≠ .assign socket (.endpoint value)) (p : Ptr) :
    after.endpointAt p = net.endpointAt p := by
  simp only [Net.endpointAt, does.heap]
  cases o with
  | newSocket =>
    simp only [Op.heap, List.getElem?_append, List.getElem?_singleton]
    split
    · rfl
    next outside =>
      rw [List.getElem?_eq_none (Nat.not_lt.mp outside)]
      split <;> rfl
  | assign socket member =>
    simp only [Op.heap, List.getElem?_modify]
    have same : ∀ found, (member.apply found).endpoint = found.endpoint :=
      Assign.endpoint_apply fun value equal => other socket value (equal ▸ rfl)
    cases net.heap[p]? with
    | none => rfl
    | some found => by_cases here : socket = p <;> simp [here, same]
  | _ => rfl

theorem Does.same_table {thread : ThreadId} {o : Op} {reply : o.Reply} {net after : Net}
    (does : Does thread o reply net after) (plain : ¬ o.Builds) : SameTable net after := by
  have other : ∀ socket value, o ≠ .assign socket (.endpoint value) := by
    rintro socket value rfl
    exact plain trivial
  refine ⟨?_, ?_, does.endpointAt other, ?_, ?_⟩
  · rw [does.openSockets]
    cases o <;> first | exact (plain trivial).elim | rfl
  · rw [does.heap]
    cases o <;> first | exact (plain trivial).elim | simp [Op.heap]
  · rw [does.endpoints]
    exact Nat.le_add_right ..
  · intro actor p
    rw [does.log]
    cases o <;> first | exact (plain trivial).elim | simp [Op.events]

theorem Moves.same_table {net after : Net} (moves : Moves net after) : SameTable net after := by
  refine ⟨moves.openSockets, Nat.le_of_eq (by rw [moves.heap]), fun p => by simp only [Net.endpointAt, moves.heap],
    Nat.le_of_eq moves.endpoints.symm, ?_⟩
  intro actor p
  obtain ⟨event, owner, log⟩ := moves.log
  rw [log]
  have other : Event.created actor p ≠ event := by
    rintro rfl
    cases owner
  simp [other]

/-- Code without such an operation keeps the sockets that are its thread's own. -/
theorem table_keeping (thread : ThreadId) (entry : Entry) (entries : Entry → Prop) (owned : Ptr → Prop) :
    table.Keeping thread entry (fun o => ¬ o.Builds) entries fun net => ∀ p, owned p → Owns thread p net where
  op plain _ executed kept _ mine := by
    have same := (exec_does executed).same_table plain
    exact ⟨same.steady, same.table kept, fun other _ => same.keeps other, fun p own => same.owns (mine p own)⟩
  record event marks kept _ mine := by
    have same : ∀ now : Net, SameTable now (now.record event) := by
      refine fun now => .record now event ?_
      rintro actor p rfl
      exact marks
    exact ⟨.record _ event, (same _).table kept, fun p own => (same _).owns (mine p own)⟩
  waits _ _ keeps _ _ mine := fun p own => (keeps.2 p (mine p own)).1
  idle _ _ _ := trivial

theorem table_body {thread : ThreadId} {entry : Entry} {net : Net}
    (uses : (body entry).Uses (fun o : Op => ¬ o.Builds) connectEntries) (kept : Table net)
    (call : callOf thread net.log = some entry) :
    table.rules.Holds thread (body entry) (table.rules.Returns thread) net net := by
  refine (table_keeping thread entry connectEntries fun _ => False).body table_regular uses ?_ kept call nofun
  intro value now kept _ _
  exact ⟨(SameTable.record now _ (by simp)).table kept, trivial⟩

section building
variable {thread : ThreadId} {net after : Net} {p : Ptr}

theorem Table.distinct (kept : Table net) {other : ThreadId} {q : Ptr} (different : other ≠ thread)
    (mine : Event.created thread p ∈ net.log) (theirs : Event.created other q ∈ net.log) : q ≠ p := by
  rintro rfl
  exact different (kept.creator theirs mine)

theorem Table.create (kept : Table net) (does : Does thread .newSocket p net after) :
    Table after ∧ (∀ other, table.keeps other net after) ∧ Owns thread p after := by
  have fresh : p = net.heap.length := does.answer
  have openSockets : after.openSockets = net.openSockets := does.openSockets
  have pointers : after.pointers = net.pointers := by simp only [Net.pointers, openSockets]
  have endpointAt := does.endpointAt (by simp)
  have heap : after.heap.length = net.heap.length + 1 := by simp [does.heap, Op.heap]
  have created (actor : ThreadId) (q : Ptr) : Event.created actor q ∈ after.log ↔
      Event.created actor q ∈ net.log ∨ actor = thread ∧ q = p := by simp [does.log, Op.events]
  refine ⟨⟨openSockets ▸ kept.keys, ?_, pointers ▸ kept.single, ?_, ?_, ?_, ?_⟩, ?_, ?_, ?_⟩
  · intro q member
    rw [heap]
    exact Nat.lt_succ_of_lt (kept.listed q (pointers ▸ member))
  · intro q ref found
    rw [does.endpoints]
    exact kept.opened ((endpointAt q).symm.trans found)
  · intro q other ref found same
    exact kept.apart ((endpointAt q).symm.trans found) ((endpointAt other).symm.trans same)
  · intro actor q member
    rw [heap]
    rcases (created actor q).mp member with old | ⟨_, rfl⟩
    · exact Nat.lt_succ_of_lt (kept.allocated old)
    · exact fresh ▸ Nat.lt_succ_self _
  · intro actor other q mine theirs
    rcases (created actor q).mp mine with old | ⟨rfl, rfl⟩
    · rcases (created other q).mp theirs with new | ⟨_, rfl⟩
      · exact kept.creator old new
      · exact absurd (kept.allocated old) (by simp [fresh])
    · rcases (created other q).mp theirs with new | ⟨rfl, _⟩
      · exact absurd (kept.allocated new) (by simp [fresh])
      · rfl
  · intro other
    refine ⟨⟨?_, ?_, fun {q} _ => endpointAt q⟩, fun q owns =>
      ⟨⟨(created other q).mpr (.inl owns.1), ?_⟩, endpointAt q⟩⟩
    · simp only [Net.lookup, openSockets, imp_self, implies_true]
    · simp only [pointers, imp_self, implies_true]
    · simpa only [pointers] using owns.2
  · exact (created thread p).mpr (.inr ⟨rfl, rfl⟩)
  · rw [pointers]
    exact fun member => absurd (kept.listed p member) (by simp [fresh])

/-- An endpoint that no socket has. -/
def Unused (opened : Option EndpointRef) (net : Net) : Prop :=
  ∀ ref, opened = some ref → ref < net.endpoints.length ∧ ∀ q, net.endpointAt q ≠ some ref

theorem Table.open {cfg : Option String} {reply : Option EndpointRef × Int} (kept : Table net)
    (does : Does thread (.otOpenEndpoint cfg) reply net after) : Unused reply.1 after := by
  intro ref opened
  rcases does.answer with failed | fresh
  · simp [failed] at opened
  · obtain rfl : net.endpoints.length = ref := Option.some.inj (fresh.symm.trans opened)
    refine ⟨?_, fun q found => ?_⟩
    · rw [does.endpoints]
      simp [Op.opens, opened]
    · exact Nat.lt_irrefl _ (kept.opened ((does.endpointAt (by simp) q).symm.trans found))

theorem Table.attach {opened : Option EndpointRef} (kept : Table net) (owns : Owns thread p net)
    (unused : Unused opened net) (does : Does thread (.assign p (.endpoint opened)) () net after) :
    Table after ∧ Steady net after ∧ (∀ other, other ≠ thread → table.keeps other net after) ∧ Owns thread p after := by
  have openSockets : after.openSockets = net.openSockets := does.openSockets
  have pointers : after.pointers = net.pointers := by simp only [Net.pointers, openSockets]
  have heap : after.heap.length = net.heap.length := by simp [does.heap, Op.heap]
  have log : after.log = net.log := by simp [does.log, Op.events]
  have mine : after.endpointAt p = opened := by
    have inside : p < net.heap.length := does.answer
    simp [Net.endpointAt, does.heap, Op.heap, inside, Assign.apply]
  have others (q : Ptr) (different : q ≠ p) : after.endpointAt q = net.endpointAt q := by
    simp only [Net.endpointAt, does.heap, Op.heap, List.getElem?_modify, Ne.symm different, if_false]
    cases net.heap[q]? <;> rfl
  have steady : Steady net after := by
    refine ⟨?_, ?_, fun {q} member => others q ?_⟩
    · simp only [Net.lookup, openSockets, imp_self, implies_true]
    · simp only [pointers, imp_self, implies_true]
    · rintro rfl
      exact owns.2 member
  have found {q : Ptr} {ref : EndpointRef} (at_ : after.endpointAt q = some ref) :
      q = p ∧ opened = some ref ∨ q ≠ p ∧ net.endpointAt q = some ref := by
    by_cases same : q = p
    · exact .inl ⟨same, mine.symm.trans (same ▸ at_)⟩
    · exact .inr ⟨same, (others q same).symm.trans at_⟩
  refine ⟨⟨openSockets ▸ kept.keys, ?_, pointers ▸ kept.single, ?_, ?_, ?_, ?_⟩, steady, ?_, ?_⟩
  · rw [pointers, heap]
    exact kept.listed
  · intro q ref at_
    rw [does.endpoints]
    rcases found at_ with ⟨_, same⟩ | ⟨_, old⟩
    · exact (unused ref same).1
    · exact kept.opened old
  · intro q other ref at_ same
    rcases found at_ with ⟨rfl, fresh⟩ | ⟨_, old⟩
    · rcases found same with ⟨rfl, _⟩ | ⟨_, older⟩
      · rfl
      · exact absurd older ((unused ref fresh).2 other)
    · rcases found same with ⟨rfl, fresh⟩ | ⟨_, older⟩
      · exact absurd old ((unused ref fresh).2 q)
      · exact kept.apart old older
  · intro actor q member
    rw [heap]
    exact kept.allocated (log ▸ member)
  · intro actor other q here there
    exact kept.creator (log ▸ here) (log ▸ there)
  · intro other different
    refine ⟨steady, fun q theirs => ⟨⟨log ▸ theirs.1, pointers ▸ theirs.2⟩, ?_⟩⟩
    exact others q (kept.distinct different owns.1 theirs.1)
  · exact ⟨log ▸ owns.1, pointers ▸ owns.2⟩

theorem Table.unlisted (kept : Table net) : net.lookup net.openSockets.length = none := by
  apply List.lookup_eq_none_iff.mpr
  intro entry member
  have below : entry.1 ∈ List.range net.openSockets.length := kept.keys ▸ List.mem_map_of_mem member
  simp only [List.mem_range] at below
  simpa using Nat.ne_of_gt below

theorem Table.list (kept : Table net) (owns : Owns thread p net)
    (does : Does thread (.insert net.openSockets.length p) () net after) :
    Table after ∧ Steady net after ∧ ∀ other, other ≠ thread → table.keeps other net after := by
  have openSockets : after.openSockets = net.openSockets ++ [(net.openSockets.length, p)] := by
    rw [does.openSockets]
    simp [Op.openSockets, Net.insert, kept.unlisted]
  have pointers : after.pointers = net.pointers ++ [p] := by simp [Net.pointers, openSockets]
  have heap : after.heap = net.heap := does.heap
  have endpointAt := does.endpointAt (by simp)
  have created (actor : ThreadId) (q : Ptr) : Event.created actor q ∈ after.log ↔ Event.created actor q ∈ net.log := by
    simp [does.log, Op.events]
  have steady : Steady net after := by
    refine ⟨?_, ?_, fun {q} _ => endpointAt q⟩
    · intro fd q found
      simp only [Net.lookup] at found ⊢
      rw [openSockets, List.lookup_append, found, Option.some_or]
    · intro q member
      rw [pointers]
      exact List.mem_append_left _ member
  refine ⟨⟨?_, ?_, ?_, ?_, ?_, ?_, ?_⟩, steady, ?_⟩
  · simp [openSockets, kept.keys, List.range_succ]
  · intro q member
    rw [pointers, List.mem_append, List.mem_singleton] at member
    rw [heap]
    rcases member with old | rfl
    · exact kept.listed q old
    · exact kept.allocated owns.1
  · rw [pointers]
    refine List.nodup_append.mpr ⟨kept.single, by simp, ?_⟩
    intro q old other last same
    rw [List.mem_singleton.mp last] at same
    exact owns.2 (same ▸ old)
  · intro q ref found
    rw [does.endpoints]
    exact kept.opened ((endpointAt q).symm.trans found)
  · intro q other ref found same
    exact kept.apart ((endpointAt q).symm.trans found) ((endpointAt other).symm.trans same)
  · intro actor q member
    rw [heap]
    exact kept.allocated ((created actor q).mp member)
  · intro actor other q mine theirs
    exact kept.creator ((created actor q).mp mine) ((created other q).mp theirs)
  · intro other different
    refine ⟨steady, fun q theirs => ⟨⟨(created other q).mpr theirs.1, ?_⟩, endpointAt q⟩⟩
    rw [pointers, List.mem_append, List.mem_singleton]
    exact fun member => member.elim theirs.2 (kept.distinct different owns.1 theirs.1)

end building

private theorem reports_plain : ∀ o, reportOps o → ¬ o.Builds := by
  intro o reports builds
  cases o <;> first | exact False.elim reports | exact False.elim builds

/-- What `socket` keeps while it works on the sockets it owns. -/
private def Working (thread : ThreadId) (entry : Entry) (owned : Ptr → Prop) : Net → Net → Prop :=
  table.Works thread entry fun net => ∀ p, owned p → Owns thread p net

private theorem Working.plain {thread : ThreadId} {entry : Entry} {owned : Ptr → Prop} {start now : Net}
    (works : Working thread entry owned start now) {α β : Type} {code : Shim α} {rest : α → Shim β}
    {post : β → Net → Net → Prop} (uses : code.Uses (fun o : Op => ¬ o.Builds) connectEntries)
    (safe : ∀ value start now, Working thread entry owned start now →
      table.rules.Holds thread (rest value) post start now) :
    table.rules.Holds thread (code >>= rest) post start now :=
  Discipline.Works.plain works table_regular (table_keeping thread entry connectEntries owned) uses safe

private theorem Working.same {thread : ThreadId} {entry : Entry} {owned : Ptr → Prop} {start now after : Net}
    {o : Op} {reply : o.Reply} (works : Working thread entry owned start now) (does : Does thread o reply now after)
    (same : SameTable now after) : Working thread entry owned start after :=
  Discipline.Works.step works table_regular does (same.table works.1.invariant) (fun other _ => same.keeps other)
    fun p own => same.owns (works.2.2 p own)

/-- `socket` takes the size of the table for the descriptor and lists the socket
before any other thread runs. -/
theorem socket_table {thread : ThreadId} {domain type protocol : Int} {net : Net} (kept : Table net)
    (call : callOf thread net.log = some (.socket domain type protocol)) :
    table.rules.Holds thread (body (.socket domain type protocol)) (table.rules.Returns thread) net net := by
  apply Rules.Holds.bind
  have begins : Working thread (.socket domain type protocol) (fun _ => False) net net :=
    .begins table_regular kept call nofun
  refine begins.plain (perform_uses id) fun status _ _ works => ?_
  refine works.plain (when_uses (macErrorThrow_uses reports_plain _ _)) fun _ _ _ works => ?_
  refine works.plain pause_uses fun _ start now works => Discipline.holds_op fun _ skt after _ _ does => ?_
  obtain ⟨listed, keeps, owns⟩ := works.1.invariant.create does
  refine ⟨(keeps thread).1, ?_⟩
  have draft : Working thread (.socket domain type protocol) (· = skt) start after :=
    works.step table_regular does listed (fun other _ => keeps other) fun p same => same ▸ owns
  refine draft.plain pause_uses fun _ _ _ draft => ?_
  refine draft.plain (configure_uses reports_plain id (fun _ => id) type) fun _ _ _ draft => ?_
  refine draft.plain pause_uses fun _ _ _ draft => draft.plain (perform_uses id) fun s start now draft => ?_
  refine Discipline.holds_op fun _ opened opening _ _ does => ?_
  have unused := draft.1.invariant.open does
  have same := does.same_table id
  have draft := draft.same does same
  refine ⟨same.steady, Discipline.holds_op fun _ _ after _ _ does => ?_⟩
  obtain ⟨attached, steady, keeps, owns⟩ := draft.1.invariant.attach (draft.2.2 skt rfl) unused does
  have draft : Working thread (.socket domain type protocol) (· = skt) start after :=
    draft.step table_regular does attached keeps fun p same => same ▸ owns
  refine ⟨steady, draft.plain (throwOsErr_uses reports_plain _ _ _ _) fun _ _ _ draft => ?_⟩
  refine draft.plain pause_uses fun _ _ _ draft => draft.plain (perform_uses id) fun s _ _ draft => ?_
  refine draft.plain (perform_uses id) fun _ _ _ draft => draft.plain pause_uses fun _ start now draft => ?_
  -- the size is still the next free key when the socket is listed, as no yield comes between
  refine Discipline.holds_op fun _ socketId sized _ _ does => ?_
  have answer : socketId = now.openSockets.length := does.answer
  have same := does.same_table id
  have draft := draft.same does same
  have size : socketId = sized.openSockets.length := by rw [same.openSockets, answer]
  refine ⟨same.steady, Discipline.holds_op fun _ _ named _ _ does => ?_⟩
  have same := does.same_table id
  have draft := draft.same does same
  have size : socketId = named.openSockets.length := by rw [same.openSockets, size]
  refine ⟨same.steady, Discipline.holds_op fun _ _ after _ _ does => ?_⟩
  subst size
  obtain ⟨listed, steady, keeps⟩ := draft.1.invariant.list (draft.2.2 skt rfl) does
  have done : Working thread (.socket domain type protocol) (fun _ => False) start after :=
    draft.step table_regular does listed keeps nofun
  refine ⟨steady, done.plain pause_uses fun _ start now done => ⟨?_, trivial⟩⟩
  refine done.1.trans table_regular.orderly (table_regular.ends_record rfl (fun _ _ _ => rfl) ?_)
  exact (SameTable.record now _ (by simp)).table done.1.invariant

theorem ops_plain {entry : Entry} (other : ∀ domain type protocol, entry ≠ .socket domain type protocol) {o : Op}
    (used : entry.ops o) : ¬ o.Builds := by
  intro builds
  cases entry with
  | socket domain type protocol => exact other domain type protocol rfl
  | _ =>
    cases o with
    | assign socket member => cases member <;> first | exact False.elim builds | exact False.elim used
    | _ => first | exact False.elim builds | exact False.elim used

theorem body_plain (entry : Entry) (other : ∀ domain type protocol, entry ≠ .socket domain type protocol) :
    (body entry).Uses (fun o : Op => ¬ o.Builds) connectEntries :=
  (body_uses entry).mono (fun _ used => ops_plain other used) fun _ used => used

theorem table_sound : table.rules.Sound := by
  refine table_regular.sound ?_ ?_ ?_
  · intro thread entry net _ kept _ _
    exact ⟨(SameTable.record net _ (by simp)).table kept, trivial⟩
  · intro input net after _ kept moves _
    exact ⟨moves.same_table.table kept, moves.same_table.keeps⟩
  · intro entry thread net kept call _ _ _
    by_cases builds : ∃ domain type protocol, entry = .socket domain type protocol
    · obtain ⟨domain, type, protocol, rfl⟩ := builds
      exact socket_table kept call
    · exact table_body (body_plain entry fun domain type protocol same => builds ⟨domain, type, protocol, same⟩) kept
        call

theorem table_initial (mainThreadId count : Nat) : table.rules.Safe (initial mainThreadId count) := by
  refine Rules.Safe.initial ?_ ?_ fun _ => trivial
  · constructor <;> simp [Net.pointers, Net.endpointAt]
  · rintro name ⟨event, member, _⟩
    cases member

/-- Choices under which every operation is known to respect the table. -/
def steadily (choices : Choices kernel) : Choices kernel := choices.keeping fun _ => Steady

theorem reaches_steadily {choices : Choices kernel} {mainThreadId count : Nat} {world : World kernel}
    (reached : choices.Reaches (initial mainThreadId count) world) :
    (steadily choices).Reaches (initial mainThreadId count) world :=
  table_sound.keeping (table_initial mainThreadId count) (fun action world _ => Choices.all_allows action world) reached

/-- Where no thread is inside its section, the table is in order. -/
theorem table_reaches {choices : Choices kernel} {mainThreadId count : Nat} {world : World kernel}
    (reached : choices.Reaches (initial mainThreadId count) world) (outside : world.current = none) :
    Table world.state :=
  ((table_initial mainThreadId count).reaches table_sound reached.widen).invariant outside

end PowerBoot.PowerNet
