import PowerBoot.Transfer.Accounts

/-! Listing a directory while the other threads go on. The files that `next` returns are the
entries that the session lists, and `stat` returns the attributes of the files it names. -/

namespace PowerBoot.Transfer
open Coop

/-- The entry that the session lists of a directory with an answer. -/
def Reply.lists (handle : Ptr) : Reply → List Readdir
  | ⟨.sftpReaddirEx found _ _, ⟨.sftpReaddirEx, entry, _⟩⟩ => if found = handle ∧ 0 < entry.rc then [entry] else []
  | _ => []

/-- The name of a file and its attributes, where the session has them. -/
def Reply.describes : Reply → List (Bytes × Attributes)
  | ⟨.sftpStat _ path, ⟨.sftpStat, filled, _⟩⟩ => if 0 ≤ filled.rc then [(path, filled.data)] else []
  | _ => []

def Operation.reads (handle : Ptr) : Operation → Bool
  | .dirNext found => found = handle
  | _ => false

def Operation.stats : Operation → Bool
  | .stat _ => true
  | _ => false

def Value.files : Value → List File
  | .file (some found) => [found]
  | _ => []

/-- The name that `stat` was asked for, with what it returns. -/
def Operation.described : Operation → Value → List (Bytes × Attributes)
  | .stat path, .attributes attributes => [(cString path, attributes)]
  | _, _ => []

variable {build : Build} {this handle : Ptr} {pointer : Option Ptr} {operation : Operation} {client : Client}
  {replies : List Reply} {value : Value}

theorem asked_one (asked : Asked build pointer operation replies)
    (single : ∀ reply more, operation.asks build pointer (reply :: more) = none) :
    replies = [] ∨ ∃ call answer, replies = [⟨call, answer⟩] ∧ answer.function = call.function ∧
      operation.asks build pointer [] = some call := by
  cases asked with
  | nothing => exact .inl rfl
  | @more replies call answer _ _ asks given =>
    cases replies with
    | nil => exact .inr ⟨call, answer, rfl, given, asks⟩
    | cons reply more => cases (single reply more).symm.trans asks

theorem asked_next (asked : Asked build pointer (.dirNext handle) replies) :
    replies = [] ∨ ∃ entry errno, replies = [⟨.sftpReaddirEx handle 512 512, ⟨.sftpReaddirEx, entry, errno⟩⟩] := by
  obtain none | ⟨call, ⟨_, entry, errno⟩, rfl, given, asks⟩ := asked_one asked fun _ _ => rfl
  · exact .inl none
  · cases asks
    cases given
    exact .inr ⟨entry, errno, rfl⟩

theorem asked_stat {path : Bytes} (asked : Asked build pointer (.stat path) replies) :
    replies = [] ∨ ∃ filled errno, replies = [⟨.sftpStat pointer (cString path), ⟨.sftpStat, filled, errno⟩⟩] := by
  obtain none | ⟨call, ⟨_, filled, errno⟩, rfl, given, asks⟩ := asked_one asked fun _ _ => rfl
  · exact .inl none
  · cases asks
    cases given
    exact .inr ⟨filled, errno, rfl⟩

theorem asks_readdir {length longentryLength : Nat}
    (asks : operation.asks build pointer replies = some (.sftpReaddirEx handle length longentryLength)) :
    operation = .dirNext handle := by
  cases operation with
  | dirNext found =>
    cases replies with
    | nil =>
      cases asks
      rfl
    | cons => cases asks
  | fileRead found =>
    unfold Operation.asks at asks
    split at asks <;> cases asks
  | _ => cases replies <;> cases asks

theorem asks_stat {found : Option Ptr} {name : Bytes}
    (asks : operation.asks build pointer replies = some (.sftpStat found name)) : ∃ path, operation = .stat path := by
  cases operation with
  | stat path => exact ⟨path, rfl⟩
  | fileRead found =>
    unfold Operation.asks at asks
    split at asks <;> cases asks
  | _ => cases replies <;> cases asks

theorem Operation.reads_iff : operation.reads handle = true ↔ operation = .dirNext handle := by
  cases operation <;> simp [Operation.reads]

theorem Operation.stats_iff : operation.stats = true ↔ ∃ path, operation = .stat path := by
  cases operation <;> simp [Operation.stats]

theorem Reply.lists_some {reply : Reply} (lists : reply.lists handle ≠ []) : ∃ length longentryLength entry errno,
    reply = ⟨.sftpReaddirEx handle length longentryLength, ⟨.sftpReaddirEx, entry, errno⟩⟩ ∧ 0 < entry.rc := by
  unfold Reply.lists at lists
  split at lists
  · split at lists
    next holds =>
      obtain ⟨rfl, positive⟩ := holds
      exact ⟨_, _, _, _, rfl, positive⟩
    · exact (lists rfl).elim
  · exact (lists rfl).elim

theorem Reply.describes_some {reply : Reply} (describes : reply.describes ≠ []) : ∃ pointer path filled errno,
    reply = ⟨.sftpStat pointer path, ⟨.sftpStat, filled, errno⟩⟩ ∧ 0 ≤ filled.rc := by
  unfold Reply.describes at describes
  split at describes
  · split at describes
    next success => exact ⟨_, _, _, _, rfl, success⟩
    · exact (describes rfl).elim
  · exact (describes rfl).elim

/-- The account of one directory. -/
def directory (build : Build) (handle : Ptr) : Account build Readdir File where
  mine := Operation.reads handle
  credit := Reply.lists handle
  debit _ := Value.files
  paired := Readdir.Fills
  definitive reply lists := by
    obtain ⟨_, _, entry, _, rfl, positive⟩ := Reply.lists_some lists
    have definitive : entry.rc ≠ LIBSSH2_ERROR_EAGAIN := by
      rw [LIBSSH2_ERROR_EAGAIN]
      omega
    exact ⟨by simp [Answer.again, definitive], by simp⟩
  open_ reply lists := by
    obtain ⟨_, _, _, _, rfl, _⟩ := Reply.lists_some lists
    rfl
  asks reply asks lists := by
    obtain ⟨_, _, _, _, rfl, _⟩ := Reply.lists_some lists
    exact Operation.reads_iff.mpr (asks_readdir asks)
  returns mine fulfilled := by
    obtain rfl := Operation.reads_iff.mp mine
    obtain ⟨asked, succeed, done, gives⟩ := fulfilled
    obtain rfl | ⟨entry, errno, rfl⟩ := asked_next asked
    · cases done
    · obtain ⟨found, rfl, finds⟩ := gives
      have success : ¬ entry.rc < 0 := by simpa [Answer.fails, Answer.code] using succeed
      unfold Readdir.Found at finds
      split at finds
      next zero =>
        subst finds
        simp [Reply.lists, Value.files, zero]
      next more =>
        obtain ⟨file, rfl, fills⟩ := finds
        have positive : 0 < entry.rc := by omega
        simpa [Reply.lists, Value.files, positive] using fills
  stops mine asked unmet := by
    obtain rfl := Operation.reads_iff.mp mine
    obtain rfl | ⟨entry, errno, rfl⟩ := asked_next asked
    · rfl
    · have fails : entry.rc < 0 := by simpa [Unmet, Operation.asks, Answer.fails, Answer.code] using unmet
      have never : ¬ 0 < entry.rc := by omega
      simp [Reply.lists, never]
  single mine asked := by
    obtain rfl := Operation.reads_iff.mp mine
    obtain rfl | ⟨entry, errno, rfl⟩ := asked_next asked
    · simp
    · rw [List.flatMap_singleton, Reply.lists]
      split <;> simp

/-- The account of the attributes that `stat` returns. -/
def attributes (build : Build) : Account build (Bytes × Attributes) (Bytes × Attributes) where
  mine := Operation.stats
  credit := Reply.describes
  debit := Operation.described
  paired := Eq
  definitive reply describes := by
    obtain ⟨_, _, filled, _, rfl, success⟩ := Reply.describes_some describes
    have definitive : filled.rc ≠ LIBSSH2_ERROR_EAGAIN := by
      rw [LIBSSH2_ERROR_EAGAIN]
      omega
    exact ⟨by simp [Answer.again, definitive], by simp⟩
  open_ reply describes := by
    obtain ⟨_, _, _, _, rfl, _⟩ := Reply.describes_some describes
    rfl
  asks reply asks describes := by
    obtain ⟨_, _, _, _, rfl, _⟩ := Reply.describes_some describes
    exact Operation.stats_iff.mpr (asks_stat asks)
  returns mine fulfilled := by
    obtain ⟨path, rfl⟩ := Operation.stats_iff.mp mine
    obtain ⟨asked, succeed, done, gives⟩ := fulfilled
    obtain rfl | ⟨filled, errno, rfl⟩ := asked_stat asked
    · cases done
    · cases (show _ = Value.attributes filled.data from gives)
      have success : ¬ filled.rc < 0 := by simpa [Answer.fails, Answer.code] using succeed
      have positive : 0 ≤ filled.rc := by omega
      simp [Reply.describes, Operation.described, positive]
  stops mine asked unmet := by
    obtain ⟨path, rfl⟩ := Operation.stats_iff.mp mine
    obtain rfl | ⟨filled, errno, rfl⟩ := asked_stat asked
    · rfl
    · have fails : filled.rc < 0 := by simpa [Unmet, Operation.asks, Answer.fails, Answer.code] using unmet
      have never : ¬ 0 ≤ filled.rc := by omega
      simp [Reply.describes, never]
  single mine asked := by
    obtain ⟨path, rfl⟩ := Operation.stats_iff.mp mine
    obtain rfl | ⟨filled, errno, rfl⟩ := asked_stat asked
    · simp
    · rw [List.flatMap_singleton, Reply.describes]
      split <;> simp

/-- In every run in which one thread uses an object, `next` returns every entry that the
session lists of a directory once and in order, whatever the other threads do. -/
theorem directory_delivered {count : Nat} (starts : client.Starts count) {world : World (kernel build)}
    (reached : (solely build client.mainThreadId this).Reaches (World.initial client count) world) :
    (directory build handle).Balanced client.mainThreadId this world.state.log :=
  Account.balanced (attended_everywhere starts reached)

section runs

/-- The library answers the constructor, the set-up and two questions about a directory. -/
def listable : Client := answering 0 ([⟨.init, (0 : Int), 0⟩, ⟨.sessionInit, some 9, 0⟩, ⟨.sessionSetBlocking, (), 0⟩,
  ⟨.sftpReaddirEx, ({ rc := 1, buffer := [97, 0] } : Readdir), 0⟩, ⟨.sftpReaddirEx, ({ rc := 0 } : Readdir), 0⟩] ++
    (accepting.session 0).script)

/-- One call of `next` for directory 5, without a wait. -/
def nexts : List (Action (kernel .retro)) :=
  let blank := Input.memory (List.replicate 512 0)
  calling .retro 0 (.operate 0 (.dirNext 5)) ((blank :: blank :: List.replicate 5 .none) :: steps [2, 7])

def lists : List (Action (kernel .retro)) := calling .retro 0 (.construct 0) (steps [7]) ++ connects ++ nexts ++ nexts

def listing : World (kernel .retro) := (World.initial listable 1).after lists

theorem listing_reached : (solely .retro listable.mainThreadId 0).Reaches (World.initial listable 1) listing := by
  exact .tested _ solelyTest_allows (by decide +kernel)

theorem directory_delivered_once : (directory .retro 5).Balanced 0 0 listing.state.log ∧
    ((directory .retro 5).debits 0 0 listing.state.log).map (fun file => file.buffer.take 2) = [[97, 0]] :=
  ⟨@directory_delivered .retro 0 5 listable 1 ⟨rfl, Nat.zero_lt_one⟩ listing listing_reached, by decide +kernel⟩

end runs

end PowerBoot.Transfer
