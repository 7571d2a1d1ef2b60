import PowerBoot.Transfer.Attempts

/-! Reading a directory. The name of an entry comes back with the rest of the buffer it
was stored in, so the string is never the name, and what is sent with the length of that
string does not name the entry. -/

namespace PowerBoot.Transfer
open Coop Code Memory

/-- What the library answers for a directory with these names: EAGAIN any number of times,
each entry with its name and a NUL at the start of the buffer, and 0 at the end. -/
inductive Lists : List Answer → List Bytes → Prop where
  | done {entry : Readdir} {errno : Int} (ended : entry.rc = 0) : Lists [⟨.sftpReaddirEx, entry, errno⟩] []
  | again {entry : Readdir} {errno : Int} {script : List Answer} {names : List Bytes}
      (again : entry.rc = LIBSSH2_ERROR_EAGAIN) (lists : Lists script names) :
      Lists (⟨.sftpReaddirEx, entry, errno⟩ :: script) names
  | entry {entry : Readdir} {errno : Int} {script : List Answer} {name : Bytes} {names : List Bytes}
      (count : entry.rc = name.length) (stored : entry.buffer = name ++ [0]) (lists : Lists script names) :
      Lists (⟨.sftpReaddirEx, entry, errno⟩ :: script) (name :: names)

/-- A name that an entry can have. -/
structure ValidName (name : Bytes) : Prop where
  nonempty : 1 ≤ name.length
  fits : name.length ≤ 511
  noNul : 0 ∉ name

variable (build : Build)

/-- `next`, again and again until there is no more file. -/
def listAll (this handle : Ptr) : Program (List File) :=
  iterate (fun files => do
    match ← next build this handle with
    | some file => return .inl (files ++ [file])
    | none => return .inr files) []

/-- From `before` to `after`, no call named another file than the one called `name`. -/
def Named (name : Bytes) (before after : Client) : Prop :=
  ∃ more, after.log = before.log ++ more ∧
    ∀ actor this call answer path, .library actor this call answer ∈ more → call.path = some path → path = name

/-- Every call in which this code names a file names the one called `name`. -/
def NamesOnly {α : Type} (code : Program α) (name : Bytes) : Prop :=
  ∀ thread client result last, EndsIn build thread code client result last → Named name client last

/-- Opening or unlinking `filename` is done to the file called `name`. -/
structure NamedBy (this : Ptr) (filename name : Bytes) : Prop where
  openfile : ∀ flags mode, NamesOnly build (openfile build this filename flags mode) name
  opendir : NamesOnly build (opendir build this filename) name
  unlink : NamesOnly build (unlink build this filename) name

/-- Reading the directory to its end gives one file for each name, in order, whose string
is the name and names that entry, where each `wait` between two calls returns. -/
def YieldsNames (thread : ThreadId) (this handle : Ptr) (client : Client) (names : List Bytes) : Prop :=
  (∃ files last, EndsIn build thread (listAll build this handle) client (some files) last) ∧
  ∀ files last, EndsIn build thread (listAll build this handle) client (some files) last →
    List.Forall₂ (fun file name => file.buffer = name ∧ NamedBy build this file.buffer name) files names

variable {build} {thread : ThreadId} {this handle : Ptr} {client last : Client}

/-- What the code and the buffer are after the first definitive answer. -/
def HasRead (this handle : Ptr) (names : List Bytes) (buffers : Buffers) (client : Client) : Prop :=
  match names with
  | [] => client.rc (.handle handle) = 0
  | name :: names => client.rc (.handle handle) = name.length ∧ (∃ garbage, buffers.buffer = name ++ 0 :: garbage) ∧
    Lists (client.session this).script names

/-- The client after an answer, with the script that is left. -/
abbrev Client.listed (thread : ThreadId) (this handle : Ptr) (entry : Readdir) (errno : Int) (script : List Answer)
    (client : Client) : Client :=
  (client.answered thread this (.sftpReaddirEx handle 512 512) ⟨.sftpReaddirEx, entry, errno⟩ script).keepRc
    (.handle handle) entry.rc

/-- The loop of `next`. -/
abbrev readdirLoop (build : Build) (this handle : Ptr) (buffers : Buffers) : Program Buffers :=
  rcLoop build this (.handle handle) (readdirEx build this handle) buffers

theorem readdirLoop_turn {entry : Readdir} {errno : Int} {script : List Answer} {buffers : Buffers} {α : Type}
    {rest : Buffers → Program α} {result : Option α} (again : client.rc (.handle handle) = LIBSSH2_ERROR_EAGAIN)
    (scripted : (client.session this).script = ⟨.sftpReaddirEx, entry, errno⟩ :: script) :
    EndsIn build thread ((readdirLoop build this handle buffers).bind rest) client result last ↔
      if entry.rc = LIBSSH2_ERROR_EAGAIN then
        EndsIn build thread ((readdirLoop build this handle (buffers.read entry)).bind rest)
          ((client.listed thread this handle entry errno script).record (.waited thread this)) result last
      else EndsIn build thread (rest (buffers.read entry)) (client.listed thread this handle entry errno script)
        result last := by
  have next : nextAnswer (Call.sftpReaddirEx handle 512 512).function (client.session this).script =
      some (⟨.sftpReaddirEx, entry, errno⟩, script) := by
    rw [scripted]
    exact nextAnswer_cons
  exact rcLoop_turn readdirEx_makes again next rfl

theorem readdirLoop_scripted {script : List Answer} {names : List Bytes} (lists : Lists script names)
    (buffers : Buffers) (again : client.rc (.handle handle) = LIBSSH2_ERROR_EAGAIN)
    (scripted : (client.session this).script = script) : ∃ read final,
      (∀ {α : Type} (rest : Buffers → Program α) result last,
        EndsIn build thread ((readdirLoop build this handle buffers).bind rest) client result last ↔
          EndsIn build thread (rest read) final result last) ∧
      HasRead this handle names read final ∧ buffers.buffer.length ≤ read.buffer.length := by
  induction lists generalizing client buffers with
  | @done entry errno ended =>
    refine ⟨buffers.read entry, client.listed thread this handle entry errno [], fun rest result last => ?_, ?_,
      length_overwrite ..⟩
    · rw [readdirLoop_turn again scripted, if_neg (by simp [ended, LIBSSH2_ERROR_EAGAIN])]
    · simp [HasRead, ended]
  | @again entry errno script names more lists ih =>
    let later := (client.listed thread this handle entry errno script).record (.waited thread this)
    obtain ⟨read, final, finishes, reads, bound⟩ :=
      @ih later (buffers.read entry) (by simp [later, more]) (by simp [later])
    refine ⟨read, final, fun rest result last => ?_, reads, Nat.le_trans (length_overwrite ..) bound⟩
    rw [readdirLoop_turn again scripted, if_pos more]
    exact finishes rest result last
  | @entry entry errno script name names count stored lists _ =>
    refine ⟨buffers.read entry, client.listed thread this handle entry errno script, fun rest result last => ?_,
      ⟨?_, ⟨buffers.buffer.drop (name.length + 1), ?_⟩, ?_⟩, length_overwrite ..⟩
    · rw [readdirLoop_turn again scripted, if_neg (by rw [count, LIBSSH2_ERROR_EAGAIN]; omega)]
    · simpa using count
    · simp [Buffers.read, overwrite, stored]
    · simpa using lists

/-- The string of the file begins with the name, and goes on with a NUL and whatever the
buffer held. -/
def File.Holds (file : File) (name : Bytes) : Prop :=
  file.buffer.length = 512 ∧ ∃ garbage, file.buffer = name ++ 0 :: garbage

theorem File.Holds.ne {file : File} {name : Bytes} (holds : file.Holds name) (valid : ValidName name) :
    file.buffer ≠ name := by
  intro same
  have size := holds.1
  have fits := valid.fits
  rw [same] at size
  omega

/-- What `next` finds where these names are left. -/
def Finds (this : Ptr) (names : List Bytes) (found : Option File) (client : Client) : Prop :=
  match names, found with
  | [], none => True
  | name :: names, some file => file.Holds name ∧ Lists (client.session this).script names
  | _, _ => False

/-- What is left of `next` after its loop. -/
private def finish (build : Build) (this handle : Ptr) (buffers : Buffers) : Program (Option File) := do
  let buffers ← rcError build "libssh2_sftp_readdir_ex" this (.handle handle) buffers
  if (← perform (.rc (.handle handle))) = 0 then return none
  else
    return some {
      buffer := buffers.buffer.take 512
      longentry := buffers.longentry.take 512
      attributes := buffers.attrs }

private theorem next_eq : next build this handle = (perform (.memory 512)).bind fun buffer =>
    (perform (.memory 512)).bind fun longentry =>
      (perform (.setRc (.handle handle) LIBSSH2_ERROR_EAGAIN)).bind fun _ =>
        (perform (.setRc (.handle handle) LIBSSH2_ERROR_EAGAIN)).bind fun _ =>
          (readdirLoop build this handle { buffer, longentry, attrs := {} }).bind (finish build this handle) := by
  simp only [next, rcErrHandle_eq, bind_eq, Code.bind_assoc]
  rfl

private theorem finish_ends (build : Build) (thread : ThreadId) {names : List Bytes} {read : Buffers}
    (reads : HasRead this handle names read client) (bound : 512 ≤ read.buffer.length)
    (valid : ∀ name ∈ names, ValidName name) : ∃ found, Finds this names found client ∧
      ∀ result last, EndsIn build thread (finish build this handle read) client result last ↔
        result = some found ∧ last = client := by
  simp only [finish, rcError, bind_eq, Code.bind_assoc]
  cases names with
  | nil =>
    have zero : client.rc (.handle handle) = 0 := reads
    refine ⟨none, trivial, fun result last => ?_⟩
    rw [rc_then, zero]
    simp only [when, Int.lt_irrefl, if_false, pure_bind, pure_eq]
    rw [rc_then, zero]
    exact pure_ends
  | cons name names =>
    obtain ⟨count, ⟨garbage, stored⟩, lists⟩ := reads
    have nonempty := (valid name (List.mem_cons_self ..)).nonempty
    have fits := (valid name (List.mem_cons_self ..)).fits
    have positive : ¬ client.rc (.handle handle) < 0 := by omega
    have definite : client.rc (.handle handle) ≠ 0 := by omega
    refine ⟨some {
      buffer := read.buffer.take 512
      longentry := read.longentry.take 512
      attributes := read.attrs }, ⟨⟨by simp [bound], garbage.take (511 - name.length), ?_⟩, lists⟩, fun result last =>
        ?_⟩
    · have left : 512 - name.length = (511 - name.length) + 1 := by omega
      simp [stored, List.take_append, List.take_of_length_le, left, Nat.le_trans fits]
    · rw [rc_then]
      simp only [when, if_neg positive, pure_bind, pure_eq]
      rw [rc_then, if_neg definite]
      exact pure_ends

theorem next_scripted {names : List Bytes} (lists : Lists (client.session this).script names)
    (valid : ∀ name ∈ names, ValidName name) :
    (∃ found last, EndsIn build thread (next build this handle) client (some found) last) ∧
    ∀ result last, EndsIn build thread (next build this handle) client result last →
      ∃ found, result = some found ∧ Finds this names found last := by
  let entered := (client.keepRc (.handle handle) LIBSSH2_ERROR_EAGAIN).keepRc (.handle handle) LIBSSH2_ERROR_EAGAIN
  have scripted (buffers : Buffers) :=
    @readdirLoop_scripted build thread this handle entered _ _ lists buffers Client.keepRc_same rfl
  have whole (buffer longentry : Bytes) (result : Option (Option File)) (last : Client) :
      EndsIn build thread ((perform (.setRc (.handle handle) LIBSSH2_ERROR_EAGAIN)).bind fun _ =>
        (perform (.setRc (.handle handle) LIBSSH2_ERROR_EAGAIN)).bind fun _ =>
          (readdirLoop build this handle { buffer, longentry, attrs := {} }).bind (finish build this handle)) client
        result last ↔ EndsIn build thread ((readdirLoop build this handle { buffer, longentry, attrs := {} }).bind
          (finish build this handle)) entered result last := by
    rw [setRc_then, setRc_then]
  rw [next_eq]
  constructor
  · obtain ⟨blank, size⟩ : ∃ bytes : Bytes, bytes.length = 512 := ⟨List.replicate 512 0, List.length_replicate⟩
    obtain ⟨read, final, finishes, reads, bound⟩ := scripted { buffer := blank, longentry := blank, attrs := {} }
    have bound : 512 ≤ read.buffer.length := size ▸ bound
    obtain ⟨found, _, ends⟩ := finish_ends build thread reads bound valid
    refine ⟨found, final, memory_then.mpr ⟨blank, size, memory_then.mpr ⟨blank, size, (whole ..).mpr ?_⟩⟩⟩
    exact (finishes _ _ _).mpr ((ends _ _).mpr ⟨rfl, rfl⟩)
  · intro result last ends
    rw [memory_then] at ends
    obtain ⟨buffer, size, ends⟩ := ends
    rw [memory_then] at ends
    obtain ⟨longentry, _, ends⟩ := ends
    obtain ⟨read, final, finishes, reads, bound⟩ := scripted { buffer, longentry, attrs := {} }
    have bound : 512 ≤ read.buffer.length := size ▸ bound
    obtain ⟨found, finds, finished⟩ := finish_ends build thread reads bound valid
    obtain ⟨rfl, rfl⟩ := (finished _ _).mp ((finishes _ _ _).mp ((whole ..).mp ends))
    exact ⟨found, rfl, finds⟩

private def listTurn (build : Build) (this handle : Ptr) (files : List File) : Program (List File ⊕ List File) := do
  match ← next build this handle with
  | some file => return .inl (files ++ [file])
  | none => return .inr files

private theorem listTurn_ends {files : List File} {result : Option (List File)}
    (returns : ∀ last, ¬ EndsIn build thread (next build this handle) client none last) :
    EndsIn build thread (iterate (listTurn build this handle) files) client result last ↔
      (∃ file middle, EndsIn build thread (next build this handle) client (some (some file)) middle ∧
        EndsIn build thread (iterate (listTurn build this handle) (files ++ [file])) middle result last) ∨
      (result = some files ∧ EndsIn build thread (next build this handle) client (some none) last) := by
  rw [iterate_ends, listTurn, bind_eq, bind_assoc]
  constructor
  · intro finishes
    rcases Finishes.bind_iff.mp finishes with ⟨found, middle, runs, later⟩ | ⟨_, stopped⟩
    · cases found with
      | some file => exact Or.inl ⟨file, middle, Finishes.some_iff.mpr runs, later⟩
      | none =>
        obtain ⟨rfl, rfl⟩ := pure_ends.mp later
        exact Or.inr ⟨rfl, Finishes.some_iff.mpr runs⟩
    · exact (returns _ stopped).elim
  · rintro (⟨file, middle, runs, later⟩ | ⟨rfl, runs⟩)
    · exact Finishes.bind_iff.mpr (Or.inl ⟨some file, middle, Finishes.some_iff.mp runs, later⟩)
    · exact Finishes.bind_iff.mpr (Or.inl ⟨none, last, Finishes.some_iff.mp runs, pure_ends.mpr ⟨rfl, rfl⟩⟩)

private theorem listAll_from (build : Build) (thread : ThreadId) (handle : Ptr) (names : List Bytes)
    (files : List File) (lists : Lists (client.session this).script names) (valid : ∀ name ∈ names, ValidName name) :
    (∃ more last, EndsIn build thread (iterate (listTurn build this handle) files) client (some (files ++ more)) last) ∧
    ∀ result last, EndsIn build thread (iterate (listTurn build this handle) files) client result last →
      ∃ more, result = some (files ++ more) ∧ List.Forall₂ File.Holds more names := by
  induction names generalizing client files with
  | nil =>
    obtain ⟨⟨found, last, finishes⟩, all⟩ := @next_scripted build thread this handle _ _ lists valid
    have returns (last : Client) (stopped : EndsIn build thread (next build this handle) client none last) : False := by
      obtain ⟨_, never, _⟩ := all _ _ stopped
      cases never
    have empty (found : Option File) (last : Client)
        (finishes : EndsIn build thread (next build this handle) client (some found) last) : found = none := by
      obtain ⟨_, same, finds⟩ := all _ _ finishes
      cases same
      cases found with
      | none => rfl
      | some => exact finds.elim
    constructor
    · cases empty found last finishes
      exact ⟨[], last, (listTurn_ends returns).mpr (Or.inr ⟨by rw [List.append_nil], finishes⟩)⟩
    · intro result last ends
      rcases (listTurn_ends returns).mp ends with ⟨file, middle, runs, _⟩ | ⟨rfl, _⟩
      · cases empty _ _ runs
      · exact ⟨[], by rw [List.append_nil], .nil⟩
  | cons name names ih =>
    obtain ⟨⟨found, last, finishes⟩, all⟩ := @next_scripted build thread this handle _ _ lists valid
    have later (name : Bytes) (member : name ∈ names) := valid name (List.mem_cons_of_mem _ member)
    have returns (last : Client) (stopped : EndsIn build thread (next build this handle) client none last) : False := by
      obtain ⟨_, never, _⟩ := all _ _ stopped
      cases never
    have found (found : Option File) (last : Client)
        (finishes : EndsIn build thread (next build this handle) client (some found) last) :
        ∃ file, found = some file ∧ file.Holds name ∧ Lists (last.session this).script names := by
      obtain ⟨_, same, finds⟩ := all _ _ finishes
      cases same
      cases found with
      | none => exact finds.elim
      | some file => exact ⟨file, rfl, finds⟩
    constructor
    · obtain ⟨file, rfl, _, rest⟩ := found _ _ finishes
      obtain ⟨⟨more, final, ends⟩, _⟩ := ih (files ++ [file]) rest later
      refine ⟨file :: more, final, (listTurn_ends returns).mpr (Or.inl ⟨file, last, finishes, ?_⟩)⟩
      rwa [List.append_assoc] at ends
    · intro result last ends
      rcases (listTurn_ends returns).mp ends with ⟨file, middle, runs, ends⟩ | ⟨rfl, runs⟩
      · obtain ⟨_, same, holds, rest⟩ := found _ _ runs
        cases same
        obtain ⟨more, rfl, each⟩ := (ih (files ++ [file]) rest later).2 _ _ ends
        exact ⟨file :: more, by rw [List.append_assoc, List.singleton_append], .cons holds each⟩
      · obtain ⟨_, never, _⟩ := found _ _ runs
        cases never

theorem listAll_scripted {names : List Bytes} (lists : Lists (client.session this).script names)
    (valid : ∀ name ∈ names, ValidName name) :
    (∃ files last, EndsIn build thread (listAll build this handle) client (some files) last) ∧
    ∀ files last, EndsIn build thread (listAll build this handle) client (some files) last →
      List.Forall₂ File.Holds files names := by
  obtain ⟨⟨files, last, finishes⟩, found⟩ := listAll_from build thread handle names [] lists valid
  refine ⟨⟨files, last, finishes⟩, fun files last finishes => ?_⟩
  obtain ⟨more, same, holds⟩ := found _ _ finishes
  cases same
  exact holds

/-- The calls of the library that name no other file than the one called `name`. -/
def Op.Names (name : Bytes) : Op → Prop
  | .library _ call => ∀ path, call.path = some path → path = name
  | _ => True

theorem namesOnly_of_uses {α : Type} {code : Program α} {name : Bytes}
    (uses : code.Uses (Op.Names name) fun _ => False) : NamesOnly build code name := by
  intro thread client result last finishes
  have nothing : Named name client client :=
    ⟨[], (List.append_nil _).symm, fun _ _ _ _ _ member _ => (List.not_mem_nil member).elim⟩
  refine Finishes.keeps (Named name client) ?_ finishes uses nothing
  intro o input now reply after used executed ⟨more, log, named⟩
  obtain ⟨events, grown, logs⟩ := exec_log executed
  refine ⟨more ++ events, by rw [grown, log, List.append_assoc], fun actor this call answer path member sent => ?_⟩
  rcases List.mem_append.mp member with before | new
  · exact named actor this call answer path before sent
  · cases o with
    | library object other =>
      obtain ⟨_, _, rfl⟩ := logs
      cases List.mem_singleton.mp new
      exact used path sent
    | _ =>
      cases (show events = _ from logs)
      simp at new

theorem namedBy_itself (this : Ptr) (filename : Bytes) : NamedBy build this filename filename := by
  have minor (o : Op) (used : o.Minor) : o.Names filename := by
    cases o with
    | library _ call =>
      cases (show call = .sessionLastError from used)
      exact nofun
    | _ => trivial
  have whole (path : Bytes) (sent : some (filename.take filename.length) = some path) : path = filename := by
    rw [List.take_length] at sent
    exact (Option.some.inj sent).symm
  have permits := @uses_permits build (Op.Names filename) (fun _ => False) this minor (fun _ _ => trivial) trivial
  refine ⟨fun flags mode => ?_, ?_, ?_⟩
  · exact namesOnly_of_uses (permits.openEx fun _ => perform_uses whole)
  · exact namesOnly_of_uses (permits.openEx fun _ => perform_uses whole)
  · exact namesOnly_of_uses (permits.unlink fun _ => perform_uses whole)

/-- The strings of a directory's files are the names of its entries exactly where the
directory has none. -/
theorem next_yields_names {names : List Bytes} (lists : Lists (client.session this).script names)
    (valid : ∀ name ∈ names, ValidName name) : YieldsNames build thread this handle client names ↔ names = [] := by
  obtain ⟨⟨files, last, finishes⟩, holds⟩ := @listAll_scripted build thread this handle _ _ lists valid
  constructor
  · rintro ⟨_, yields⟩
    have each := holds files last finishes
    cases yields files last finishes with
    | nil => rfl
    | @cons file name files names same =>
      cases each with
      | cons held => exact (held.ne (valid name (List.mem_cons_self ..)) same.1).elim
  · rintro rfl
    refine ⟨⟨files, last, finishes⟩, fun files last finishes => ?_⟩
    cases holds files last finishes
    exact .nil

def oneEntry : Client :=
  answering 0 [⟨.sftpReaddirEx, { rc := 1, buffer := [97, 0] }, 0⟩, ⟨.sftpReaddirEx, { rc := 0 }, 0⟩]

private theorem oneEntry_lists : Lists (oneEntry.session 0).script [[97]] := .entry rfl rfl (.done rfl)

private theorem valid_one (name : Bytes) (member : name ∈ [[97]]) : ValidName name := by
  cases List.mem_singleton.mp member
  exact ⟨by decide, by decide, by decide⟩

theorem next_yields_names_one : YieldsNames .retro 0 0 0 oneEntry [[97]] ↔ [[97]] = ([] : List Bytes) :=
  next_yields_names oneEntry_lists valid_one

theorem next_yields_buffer : ¬ YieldsNames .retro 0 0 0 oneEntry [[97]] := by
  rintro ⟨⟨files, last, finishes⟩, yields⟩
  have holds := (listAll_scripted oneEntry_lists valid_one).2 files last finishes
  cases yields files last finishes with
  | cons same => cases holds with
    | cons held => exact held.ne (valid_one _ (List.mem_cons_self ..)) same.1

end PowerBoot.Transfer
