import PowerBoot.PowerNet.Discipline

/-! Waiting on a set of descriptors. FD_SET packs descriptors as bits; `select` takes
the first word of the set for a descriptor, so it never looks up what was set. -/

namespace PowerBoot.PowerNet
open Coop Code

def FD_SETSIZE : Nat := 1024

def fdZero : FdSet := ⟨Vector.replicate 32 0⟩

/-- FD_SET, for a descriptor below FD_SETSIZE. -/
def fdSet (d : Nat) (s : FdSet) : FdSet :=
  if inside : d / 32 < 32 then ⟨s.fdsBits.set (d / 32) (s.fdsBits[d / 32] ||| 1#32 <<< (d % 32))⟩ else s

def fdIsSet (d : Nat) (s : FdSet) : Bool :=
  if inside : d / 32 < 32 then (s.fdsBits[d / 32] &&& 1#32 <<< (d % 32)) != 0 else false

/-- FD_ZERO, and FD_SET for one descriptor after the other. -/
def encode (ds : List Nat) : FdSet := ds.foldl (fun s d => fdSet d s) fdZero

private theorem one_shift_bit {bit : Nat} (inside : bit < 32) (i : Nat) :
    (1#32 <<< bit).getLsbD i = (i == bit) := by
  simp only [BitVec.getLsbD_shiftLeft, BitVec.getLsbD_one]
  by_cases same : i = bit
  · simp [same, inside]
  · have different : (i == bit) = false := by simp [same]
    rw [different]
    simp
    omega

private theorem masked_bit (word : BitVec 32) {bit : Nat} (inside : bit < 32) :
    ((word &&& 1#32 <<< bit) != 0#32) = word.getLsbD bit := by
  have mask (i : Nat) : (word &&& 1#32 <<< bit).getLsbD i = (word.getLsbD i && i == bit) := by
    rw [BitVec.getLsbD_and, one_shift_bit inside]
  by_cases set : word.getLsbD bit
  · rw [set, bne_iff_ne]
    intro zero
    have bits := mask bit
    rw [zero, set] at bits
    simp at bits
  · have zero : word &&& 1#32 <<< bit = 0#32 := by
      apply BitVec.eq_of_getLsbD_eq
      intro i _
      rw [mask]
      by_cases same : i = bit
      · simp [same, set]
      · simp [same]
    simp [zero, set]

theorem fdIsSet_bit {d : Nat} (inside : d / 32 < 32) (s : FdSet) :
    fdIsSet d s = s.fdsBits[d / 32].getLsbD (d % 32) := by
  rw [fdIsSet, dif_pos inside]
  exact masked_bit _ (Nat.mod_lt d (by decide))

theorem fdIsSet_zero (d : Nat) : fdIsSet d fdZero = false := by
  unfold fdIsSet fdZero
  split <;> simp

theorem fdIsSet_set {d : Nat} (inside : d < FD_SETSIZE) (e : Nat) (s : FdSet) :
    fdIsSet e (fdSet d s) = (fdIsSet e s || e == d) := by
  have word : d / 32 < 32 := by unfold FD_SETSIZE at inside; omega
  by_cases in_ : e / 32 < 32
  · rw [fdIsSet_bit in_, fdIsSet_bit in_, fdSet, dif_pos word]
    simp only [Vector.getElem_set]
    split
    next same =>
      rw [BitVec.getLsbD_or, one_shift_bit (Nat.mod_lt d (by decide))]
      have quotient : (e % 32 == d % 32) = (e == d) := by
        rw [Bool.eq_iff_iff, beq_iff_eq, beq_iff_eq]
        omega
      simp only [same, quotient]
    next different =>
      have other : (e == d) = false := by
        rw [beq_eq_false_iff_ne]
        rintro rfl
        exact different rfl
      rw [other, Bool.or_false]
  · have other : (e == d) = false := by
      rw [beq_eq_false_iff_ne]
      rintro rfl
      exact in_ word
    simp [fdIsSet, in_, other]

/-- FD_ISSET decodes what FD_SET encodes. -/
theorem fdIsSet_encode {ds : List Nat} (inside : ∀ d ∈ ds, d < FD_SETSIZE) (e : Nat) :
    fdIsSet e (encode ds) = true ↔ e ∈ ds := by
  suffices ∀ s, fdIsSet e (ds.foldl (fun s d => fdSet d s) s) = true ↔ fdIsSet e s = true ∨ e ∈ ds by
    simpa [fdIsSet_zero, encode] using this fdZero
  induction ds with
  | nil => simp
  | cons d ds ih =>
    intro s
    rw [List.foldl_cons, ih (fun e member => inside e (List.mem_cons_of_mem _ member)),
      fdIsSet_set (inside d (List.mem_cons_self ..))]
    simp [or_assoc]

/-- The first word is never a descriptor of the set alone. -/
theorem first_word_decodes_nothing {ds : List Nat} (inside : ∀ d ∈ ds, d < FD_SETSIZE) :
    ¬ ∀ fd, fd = (encode ds).firstWord ↔ fd ∈ ds := by
  intro decodes
  have bit {d : Nat} (low : d < 32) : (encode ds).firstWord.testBit d = true ↔ d = (encode ds).firstWord := by
    have index : d / 32 = 0 := by omega
    have remainder : d % 32 = d := by omega
    have isSet := fdIsSet_encode inside d
    rw [fdIsSet_bit (by omega)] at isSet
    simp only [index, remainder] at isSet
    exact isSet.trans (decodes d).symm
  by_cases low : (encode ds).firstWord < 32
  · have set := (bit low).mpr rfl
    have large := Nat.ge_two_pow_of_testBit set
    have small := Nat.lt_two_pow_self (n := (encode ds).firstWord)
    omega
  · have zero : (encode ds).firstWord = 0 := by
      apply Nat.eq_of_testBit_eq
      intro i
      rw [Nat.zero_testBit, ← Bool.not_eq_true]
      intro set
      by_cases below : i < 32
      · exact low ((bit below).mp set ▸ below)
      · have large := Nat.ge_two_pow_of_testBit set
        have small : (encode ds).firstWord < 2 ^ 32 := (encode ds).fdsBits[0].isLt
        have wide := Nat.pow_le_pow_right (by decide : 0 < 2) (Nat.not_lt.mp below)
        omega
    omega

/-- The keys that a call may look up: `select` takes the first word of its sets. -/
def Entry.Looks (fd : Nat) : Entry → Prop
  | .select _ readfds writefds => ∃ fds, (readfds = some fds ∨ writefds = some fds) ∧ fd = fds.firstWord
  | _ => True

/-- What a call looks up is one of its keys. -/
def Looked (past : List Event) (thread : ThreadId) (event : Event) (_ : Option Value) : Prop :=
  ∀ fd found entry, event = .lookedUp thread fd found → callOf thread past = some entry → entry.Looks fd

def selecting : Discipline where
  choices := .all kernel
  invariant net := Ledger Looked net.log
  keeps _ _ _ := True
  step _ _ _ := True
  idle _ _ := True

theorem selecting_regular : selecting.Regular where
  refl _ _ := trivial
  trans _ _ := trivial
  record _ _ _ := trivial
  fresh _ _ := trivial
  idles _ _ := trivial

private theorem Looked.other {past : List Event} {thread : ThreadId} {event : Event} {result : Option Value}
    (other : ∀ actor fd found, event ≠ .lookedUp actor fd found) : Looked past thread event result :=
  fun fd found _ same => (other thread fd found same).elim

theorem selecting_keeping (thread : ThreadId) (entry : Entry) :
    selecting.Keeping thread entry (fun o => ∀ fd, o = .lookup fd → entry.Looks fd) connectEntries fun _ => True where
  op {o input now reply after} used _ executed kept call _ := by
    have does := exec_does executed
    refine ⟨trivial, ?_, fun _ _ => trivial, trivial⟩
    refine does.ledger kept fun event member => ?_
    rintro fd found entry' rfl call'
    cases call.symm.trans call'
    cases o with
    | lookup key =>
      simp only [Op.events, List.mem_singleton, Event.lookedUp.injEq, true_and] at member
      exact member.1 ▸ used key rfl
    | _ => simp [Op.events] at member
  record {now} event marks kept _ _ := by
    refine ⟨trivial, kept.concat (fun _ _ _ => .other ?_) ?_, trivial⟩
    · rintro actor fd found rfl
      exact marks
    · rintro actor value rfl
      exact marks
  waits _ _ _ _ _ _ := trivial
  idle _ _ _ := trivial

theorem selecting_sound : selecting.rules.Sound := by
  refine selecting_regular.sound ?_ ?_ ?_
  · intro thread entry net _ kept _ _
    exact ⟨kept.concat (fun _ _ _ => .other nofun) nofun, trivial⟩
  · intro input net after _ kept moves _
    obtain ⟨event, owner, log⟩ := moves.log
    refine ⟨?_, fun _ => trivial⟩
    show Ledger Looked after.log
    rw [log]
    refine kept.concat (fun actor mine => by simp [owner] at mine) ?_
    rintro actor value rfl
    cases owner
  · intro entry thread net kept call _ _ _
    refine (selecting_keeping thread entry).body selecting_regular ?_ ?_ kept call trivial
    · cases entry with
      | select nfds readfds writefds =>
        refine Uses.bind ((select_uses nfds (fun s given fd same => ?_) (fun _ _ same => nomatch same)
          fun _ _ same => nomatch same).mono (fun _ used => used) nofun)
          fun _ => trivial
        cases same
        exact ⟨s, given, rfl⟩
      | _ => exact (body_uses _).mono (fun _ _ _ _ => trivial) fun _ used => used
    · intro value now kept _ _
      exact ⟨Ledger.returned kept (.other nofun) fun _ _ _ _ _ _ good => good, trivial⟩

theorem select_looks {mainThreadId count : Nat} {world : World kernel}
    (reached : (Choices.all kernel).Reaches (initial mainThreadId count) world) (outside : world.current = none)
    {thread : ThreadId} {nfds : Int} {readfds writefds : Option FdSet}
    (call : callOf thread world.state.log = some (.select nfds readfds writefds)) {fd : Nat} {found : Option Ptr}
    (looked : .lookedUp thread fd found ∈ since thread world.state.log) :
    ∃ fds, (readfds = some fds ∨ writefds = some fds) ∧ fd = fds.firstWord := by
  have safe : selecting.rules.Safe (initial mainThreadId count) := by
    refine Rules.Safe.initial (.nil _) ?_ fun _ => trivial
    rintro name ⟨event, member, _⟩
    cases member
  have kept : Ledger Looked world.state.log := (safe.reaches selecting_sound reached).invariant outside
  obtain ⟨past, rest, split, same, owner, silent⟩ := mem_since looked
  exact kept past _ rest thread split owner silent fd found _ rfl (same.trans call)

/-- `own`, the events of a call of `select` on the descriptors `ds`, are those of a
call that decodes them: it looks them up, finds them and reads their flags. -/
structure Decodes (net : Net) (thread : ThreadId) (consults : Ptr → Event) (ds : List Nat) (own : List Event) :
    Prop where
  looks : ∀ fd, (∃ found, .lookedUp thread fd found ∈ own) ↔ fd ∈ ds
  finds : ∀ fd found, .lookedUp thread fd found ∈ own → found.isSome
  reads : ∀ p, consults p ∈ own ↔ ∃ fd ∈ ds, net.lookup fd = some p

/-- No call of `select` decodes the set it is given. -/
theorem select_decodes_nothing {mainThreadId count : Nat} {world : World kernel}
    (reached : (Choices.all kernel).Reaches (initial mainThreadId count) world) (outside : world.current = none)
    {thread : ThreadId} {nfds : Int} {ds : List Nat} (some_ : ds ≠ [])
    (inside : ∀ d ∈ ds, d < FD_SETSIZE ∧ (world.state.lookup d).isSome) :
    (callOf thread world.state.log = some (.select nfds (some (encode ds)) none) →
      ¬ Decodes world.state thread (.readRecvHalt thread) ds (since thread world.state.log)) ∧
    (callOf thread world.state.log = some (.select nfds none (some (encode ds))) →
      ¬ Decodes world.state thread (.readSendHalt thread) ds (since thread world.state.log)) := by
  have below (d : Nat) (member : d ∈ ds) : d < FD_SETSIZE := (inside d member).1
  have never {consults : Ptr → Event} (looks : ∀ fd found, .lookedUp thread fd found ∈ since thread world.state.log →
      fd = (encode ds).firstWord) : ¬ Decodes world.state thread consults ds (since thread world.state.log) := by
    intro decodes
    refine first_word_decodes_nothing below fun fd => ⟨fun same => ?_, fun member => ?_⟩
    · obtain ⟨d, member⟩ := List.exists_mem_of_ne_nil ds some_
      obtain ⟨found, looked⟩ := (decodes.looks d).mpr member
      rwa [same, ← looks d found looked]
    · obtain ⟨found, looked⟩ := (decodes.looks fd).mpr member
      exact looks fd found looked
  refine ⟨fun call => never fun fd found looked => ?_, fun call => never fun fd found looked => ?_⟩
  · obtain ⟨fds, given | given, same⟩ := select_looks reached outside call looked
    · exact (Option.some.inj given) ▸ same
    · cases given
  · obtain ⟨fds, given | given, same⟩ := select_looks reached outside call looked
    · cases given
    · exact (Option.some.inj given) ▸ same

/-- The first socket is opened, and a thread waits for it to be readable. -/
private def waitingOnFirst : World kernel :=
  (initial 0 1).after (opening 0 ++ calling 0 (.select 1 (some (encode [0])) none) [[.none, .none]])

theorem select_decodes_nothing_first :
    ¬ Decodes waitingOnFirst.state 0 (.readRecvHalt 0) [0] (since 0 waitingOnFirst.state.log) :=
  (@select_decodes_nothing 0 1 waitingOnFirst .after rfl 0 1 [0] nofun (by decide)).1 rfl

theorem select_misses_descriptor : (Choices.all kernel).Reaches (initial 0 1) waitingOnFirst ∧
    ¬ Decodes waitingOnFirst.state 0 (.readRecvHalt 0) [0] (since 0 waitingOnFirst.state.log) := by
  refine ⟨.after, fun decodes => ?_⟩
  have own : since 0 waitingOnFirst.state.log = [.lookedUp 0 1 none, .threw 0] := rfl
  obtain ⟨found, looked⟩ := (decodes.looks 0).mpr (List.mem_singleton_self 0)
  simp [own] at looked

end PowerBoot.PowerNet
