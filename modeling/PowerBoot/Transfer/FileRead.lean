import PowerBoot.Memory.Overlay
import PowerBoot.Transfer.Retry
import Mathlib

/-! Reading a file through its handle. The size of the buffer comes from the whole file, and
its contents from the answers of one call that is repeated only on EAGAIN. -/

namespace PowerBoot.Transfer
open Coop Code Memory

variable {build : Build} {thread : ThreadId} {this handle : Ptr} {client last : Client} {content : Bytes} {offset : Nat}

/-- What libssh2_sftp_read answers for a file, from an offset on: EAGAIN, or the bytes that
come next, which are none only at the end. -/
def Delivers (content : Bytes) (length : Nat) : Nat → List (Filled Bytes) → Prop
  | _, [] => True
  | offset, read :: later =>
    if read.rc = LIBSSH2_ERROR_EAGAIN then read.data = [] ∧ Delivers content length offset later
    else read.rc = read.data.length ∧ read.data.length ≤ length ∧ read.data <+: content.drop offset ∧
      (read.data = [] → length = 0 ∨ content.length ≤ offset) ∧ Delivers content length
        (offset + read.data.length) later

theorem Delivers.within {length : Nat} {reads : List (Filled Bytes)} (delivers : Delivers content length offset reads) :
    (∀ read ∈ reads, read.data.length ≤ length) ∧ (reads.map (·.data)).flatten <+: content.drop offset := by
  induction reads generalizing offset with
  | nil => exact ⟨nofun, List.nil_prefix⟩
  | cons read later ih =>
    rw [Delivers] at delivers
    split at delivers
    next again =>
      obtain ⟨empty, delivers⟩ := delivers
      obtain ⟨each, prefix_⟩ := ih delivers
      refine ⟨fun other member => ?_, by simpa [empty] using prefix_⟩
      rcases List.mem_cons.mp member with rfl | member
      · simp [empty]
      · exact each other member
    next =>
      obtain ⟨_, fits, next, _, delivers⟩ := delivers
      obtain ⟨each, prefix_⟩ := ih delivers
      refine ⟨fun other member => ?_, ?_⟩
      · rcases List.mem_cons.mp member with rfl | member
        · exact fits
        · exact each other member
      · obtain ⟨rest, whole⟩ := next
        have left : content.drop (offset + read.data.length) = rest := by
          rw [← List.drop_drop, ← whole, List.drop_left]
        rw [left] at prefix_
        rw [List.map_cons, List.flatten_cons, ← whole]
        exact (List.prefix_append_right_inj _).mpr prefix_

/-- What the library answers while a file is read: its size, and then its bytes, up to the
first result that the code does not take for EAGAIN. -/
structure Reading (build : Build) (handle : Ptr) (content : Bytes) (offset : Nat) where
  size : Attempt (.sftpFstat handle)
  succeeds : size.answer.fails = false
  sized : (size.result : Filled Attributes).data.filesize = content.length
  agains : List (Filled Bytes × Int)
  result : Filled Bytes
  errno : Int
  again : ∀ reply ∈ agains, toInt reply.1.rc = LIBSSH2_ERROR_EAGAIN
  definitive : toInt result.rc ≠ LIBSSH2_ERROR_EAGAIN
  delivers : Delivers content (sizeT build content.length) offset (agains.map (·.1) ++ [result])

namespace Reading
variable (reading : Reading build handle content offset)

/-- What the reads stored, each of them at the start of the buffer. -/
def chunks : List Bytes := (reading.agains.map (·.1) ++ [reading.result]).map (·.data)

def answers : List Answer :=
  reading.size.answers ++ (reading.agains.map (fun reply => ⟨.sftpRead, reply.1, reply.2⟩) ++
    [⟨.sftpRead, reading.result, reading.errno⟩])

end Reading

/-- The file is read from the offset to its end, and these are the bytes that were delivered:
whatever the buffer held before, nothing of it is returned. This is about the runs in which
each `wait` between two calls returns. -/
structure ReadsRest (build : Build) (thread : ThreadId) (this : Ptr) (client : Client)
    (reading : Reading build handle content offset) : Prop where
  ends : ∃ last, EndsIn build thread (operate build this (.fileRead handle)) client
    (some (.bytes (content.drop offset))) last
  only : ∀ result last, EndsIn build thread (operate build this (.fileRead handle)) client result last →
    result = some (.bytes (content.drop offset))
  delivered : (content.drop offset).length = reading.chunks.flatten.length

/-- One of the answers brings the whole buffer, which is as large as the rest of the file,
and the last result is not negative as an int. -/
def Reading.Whole (reading : Reading build handle content offset) : Prop :=
  0 ≤ toInt reading.result.rc ∧ sizeT build content.length = content.length - offset ∧
    ∃ chunk ∈ reading.chunks, chunk.length = sizeT build content.length

section reading
variable {reading : Reading build handle content offset} {more : List Answer}

/-- What becomes of a file that is read: for every buffer the last result decides, and the
bytes returned are the buffer with all chunks stored at its start. -/
private theorem fileRead_ends (scripted : (client.session this).script = reading.answers ++ more) :
    (0 ≤ toInt reading.result.rc → ∀ result, (∃ last, EndsIn build thread (operate build this (.fileRead handle)) client
      result last) ↔ ∃ buffer : Bytes, buffer.length = sizeT build content.length ∧
        result = some (.bytes ((Memory.overlay buffer reading.chunks).take (sizeT build content.length)))) ∧
    (toInt reading.result.rc < 0 → ∀ value last,
      ¬ EndsIn build thread (operate build this (.fileRead handle)) client (some value) last) := by
  let filesize := sizeT build content.length
  let reads := reading.agains.map (fun reply => Answer.mk .sftpRead reply.1 reply.2) ++
    [Answer.mk .sftpRead reading.result reading.errno]
  let sized := client.settled thread this (.handle handle) reading.size (reads ++ more)
    (reading.size.result : Filled Attributes).rc
  let cmd (buffer : Bytes) : Program (Int × Bytes) := do
    let read ← network build this (.sftpRead handle filesize)
    return (toInt read.rc, overwrite buffer read.data)
  have stored (buffer : Bytes) :
    overwrite (reading.agains.foldl (fun memory reply => overwrite memory reply.1.data) buffer)
      reading.result.data = Memory.overlay buffer reading.chunks := by
    simp only [Reading.chunks, List.map_append, List.map_map, Memory.overlay, List.foldl_append, List.foldl_map]
    rfl
  have found (buffer : Bytes) := @rcErrHandle_results build thread this sized Value Bytes (.sftpRead handle filesize)
    (.handle handle) "libssh2_sftp_read" cmd buffer
      (fun read buffer => (toInt (read : Filled Bytes).rc, overwrite buffer read.data))
    reading.agains reading.result reading.errno more (fun _ _ _ => rfl) (fun _ _ => network_sends.map)
    (fun reply member => decide_eq_true (reading.again reply member)) (decide_eq_false reading.definitive)
    (by simp [sized, reads])
  have ends (result last) : EndsIn build thread (operate build this (.fileRead handle)) client result last ↔
      ∃ buffer : Bytes, buffer.length = filesize ∧ EndsIn build thread
        ((rcErrHandle build "libssh2_sftp_read" this (.handle handle) cmd buffer).bind fun buffer =>
          .pure (.bytes (buffer.take filesize))) sized result last := by
    have scripted : (client.session this).script = reading.size.answers ++ (reads ++ more) := by
      simp [scripted, Reading.answers, reads]
    simp only [operate, fileRead, bind_eq, Code.bind_assoc]
    rw [fileStat_attempt (fun fails => by rw [reading.succeeds] at fails; cases fails) scripted, reading.succeeds]
    simp only [Bool.false_eq_true, if_false]
    rw [memory_then, reading.sized]
    rfl
  constructor
  · intro settled result
    simp only [ends]
    constructor
    · rintro ⟨last, buffer, length, finishes⟩
      obtain ⟨after, same⟩ := (found buffer).1 settled
      obtain ⟨rfl, _⟩ := pure_ends.mp ((same _ result last).mp finishes)
      exact ⟨buffer, length, by rw [← stored]⟩
    · rintro ⟨buffer, length, rfl⟩
      obtain ⟨after, same⟩ := (found buffer).1 settled
      refine ⟨after, buffer, length, (same _ _ after).mpr (pure_ends.mpr ⟨?_, rfl⟩)⟩
      rw [← stored]
  · intro negative value last finishes
    obtain ⟨buffer, _, finishes⟩ := (ends _ _).mp finishes
    exact (found buffer).2 negative _ value last finishes

private theorem chunks_within (chunk : Bytes) (member : chunk ∈ reading.chunks) :
    chunk.length ≤ sizeT build content.length := by
  obtain ⟨read, among, rfl⟩ := List.mem_map.mp member
  exact reading.delivers.within.1 read among

private theorem chunks_prefix : reading.chunks.flatten <+: content.drop offset := reading.delivers.within.2

/-- What is returned whatever the buffer held has been delivered by one answer. -/
private theorem whole_of_reads (scripted : (client.session this).script = reading.answers ++ more)
    (reads : ReadsRest build thread this client reading) : reading.Whole := by
  obtain ⟨settles, never⟩ := @fileRead_ends build thread this handle client content offset reading more scripted
  obtain ⟨⟨last, ends⟩, only, _⟩ := reads
  have settled : 0 ≤ toInt reading.result.rc := by
    by_contra negative
    exact never (Int.not_le.mp negative) _ last ends
  have shown (buffer : Bytes) (length : buffer.length = sizeT build content.length) :
      Memory.overlay buffer reading.chunks = content.drop offset := by
    obtain ⟨last, finishes⟩ := (settles settled _).mpr ⟨buffer, length, rfl⟩
    have same := only _ last finishes
    simp only [Option.some.injEq, Value.bytes.injEq] at same
    rw [← same, List.take_of_length_le]
    rw [Memory.overlay_length (by simpa only [length] using chunks_within), length]
  have size : sizeT build content.length = content.length - offset := by
    rw [← List.length_drop, ← shown (List.replicate _ 0) List.length_replicate,
      Memory.overlay_length (by simpa using chunks_within), List.length_replicate]
  refine ⟨settled, size, ?_⟩
  rcases Nat.eq_zero_or_pos (sizeT build content.length) with none | some_
  · have member : reading.result.data ∈ reading.chunks := by simp [Reading.chunks]
    have fits := chunks_within _ member
    exact ⟨reading.result.data, member, by omega⟩
  · obtain ⟨chunk, member, long⟩ := Memory.overlay_shows (by decide : (0 : UInt8) ≠ 1) some_
      ((shown _ List.length_replicate).trans (shown _ List.length_replicate).symm)
    exact ⟨chunk, member, Nat.le_antisymm (chunks_within chunk member) long⟩

private theorem reads_of_whole (scripted : (client.session this).script = reading.answers ++ more)
    (whole : reading.Whole) :
    ReadsRest build thread this client reading := by
  obtain ⟨settles, _⟩ := @fileRead_ends build thread this handle client content offset reading more scripted
  obtain ⟨settled, size, chunk, member, length⟩ := whole
  have rest : (content.drop offset).length = sizeT build content.length := by rw [List.length_drop, size]
  have within : reading.chunks.flatten.length ≤ sizeT build content.length := rest ▸ chunks_prefix.length_le
  have kept (buffer : Bytes) (large : buffer.length = sizeT build content.length) :=
    @Memory.overlay_whole _ buffer chunk reading.chunks member (length.trans large.symm) (by omega)
  have flat : reading.chunks.flatten = content.drop offset := by
    refine chunks_prefix.eq_of_length ?_
    rw [(kept (List.replicate _ 0) List.length_replicate).2, length, rest]
  have shown (buffer : Bytes) (large : buffer.length = sizeT build content.length) :
      (Memory.overlay buffer reading.chunks).take (sizeT build content.length) = content.drop offset := by
    rw [(kept buffer large).1, ← (kept buffer large).2, flat, List.take_of_length_le (Nat.le_of_eq rest)]
  refine ⟨?_, fun result last ends => ?_, by rw [flat]⟩
  · exact (settles settled _).mpr ⟨List.replicate _ 0, List.length_replicate, by rw [shown _ List.length_replicate]⟩
  · obtain ⟨buffer, large, rfl⟩ := (settles settled result).mp ⟨last, ends⟩
    rw [shown buffer large]

/-- The rest of a file is read exactly where one answer brings it and it is as large as the
whole file. -/
theorem read_whole (scripted : (client.session this).script = reading.answers ++ more) :
    ReadsRest build thread this client reading ↔ reading.Whole :=
  ⟨whole_of_reads scripted, reads_of_whole scripted⟩

end reading

def twoBytes (result : Filled Bytes) (definitive : toInt result.rc ≠ LIBSSH2_ERROR_EAGAIN)
    (delivers : Delivers [1, 2] 2 0 [⟨LIBSSH2_ERROR_EAGAIN, []⟩, result]) : Reading .retro 7 [1, 2] 0 where
  size := {
    agains := []
    result := (⟨0, { filesize := 2 }⟩ : Filled Attributes)
    errno := 0
    again := nofun
    blank := nofun
    definitive := rfl }
  succeeds := rfl
  sized := rfl
  agains := [(⟨LIBSSH2_ERROR_EAGAIN, []⟩, LIBSSH2_ERROR_EAGAIN)]
  result
  errno := 0
  again := fun reply member => by cases List.mem_singleton.mp member; decide
  definitive
  delivers

theorem read_whole_twoBytes : ReadsRest .retro 0 0
    (answering 0 (twoBytes ⟨2, [1, 2]⟩ (by decide) (by simp [Delivers, LIBSSH2_ERROR_EAGAIN])).answers)
    (twoBytes ⟨2, [1, 2]⟩ (by decide) (by simp [Delivers, LIBSSH2_ERROR_EAGAIN])) :=
  (read_whole (List.append_nil _).symm).mpr ⟨by decide, rfl, [1, 2], by simp [Reading.chunks, twoBytes], rfl⟩

/-- The first byte is delivered, and the second one is left to the next call. -/
theorem read_cuts_short : ¬ ReadsRest .retro 0 0
    (answering 0 (twoBytes ⟨1, [1]⟩ (by decide) (by simp [Delivers, LIBSSH2_ERROR_EAGAIN])).answers)
    (twoBytes ⟨1, [1]⟩ (by decide) (by simp [Delivers, LIBSSH2_ERROR_EAGAIN])) := by
  intro reads
  obtain ⟨_, _, chunk, member, length⟩ := whole_of_reads (List.append_nil _).symm reads
  simp only [Reading.chunks, twoBytes, List.map_cons, List.map_nil, List.cons_append, List.nil_append, List.mem_cons,
    List.not_mem_nil, or_false] at member
  rcases member with rfl | rfl <;> cases length

end PowerBoot.Transfer
