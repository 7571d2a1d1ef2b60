import PowerBoot.Transfer.Program

/-! What the main program prints is what the session lists. Its story is told again by the
log of the client, and there its calls are accounted for. -/

namespace PowerBoot.Transfer
open Coop

/-- The values that an operation returns. -/
def Operation.Returns (value : Value) : Operation → Prop
  | .lstat .. | .stat _ | .fileStat _ => ∃ attributes, value = .attributes attributes
  | .openfile .. | .opendir _ => ∃ handle, value = .handle handle
  | .statvfs _ | .fileStatvfs _ => ∃ vfs, value = .statvfs vfs
  | .fileRead _ => ∃ bytes, value = .bytes bytes
  | .fileTell _ => ∃ offset, value = .offset offset
  | .dirNext _ => ∃ file, value = .file file
  | _ => value = .none

def Entry.Returns (entry : Entry) (value : Value) : Prop :=
  match entry with
  | .connect this _ => value = .connected this
  | .operate _ operation => operation.Returns value
  | _ => value = .none

theorem body_returns (build : Build) (entry : Entry) : (body build entry).GivesOnly entry.Returns := by
  cases entry with
  | operate this operation =>
    cases operation <;> exact .bind fun value => by first | rfl | exact ⟨value, rfl⟩
  | _ => exact .bind fun _ => rfl

/-- Where a call begins, or one of the thread ends. -/
def Event.turning (build : Build) (user : ThreadId) : Event → Option (Turning (kernel build))
  | .called actor entry => some (.began actor entry)
  | .returned actor value => if actor = user then some (.ended (some value)) else none
  | .threw actor => if actor = user then some (.ended none) else none
  | _ => none

def turnings (build : Build) (user : ThreadId) (client : Client) : List (Turning (kernel build)) :=
  client.log.filterMap (Event.turning build user)

variable {build : Build} {user : ThreadId} {this dir : Ptr} {client : Client} {story : Story build}
  {course next : Course} {log : List Event} {T U : Type}

@[simp] theorem turnings_record {event : Event} :
    turnings build user (client.record event) = turnings build user client ++ (event.turning build user).toList := by
  rw [turnings, Client.record, List.filterMap_append]
  cases found : event.turning build user <;> simp [turnings, found]

theorem turnings_exec {thread : ThreadId} {o : Op} {input : Input} {reply : o.Reply} {after : Client}
    (executed : exec thread o input client = some (reply, after)) :
    turnings build user after = turnings build user client := by
  obtain ⟨events, grown, logs⟩ := exec_log executed
  rw [turnings, grown, List.filterMap_append, turnings, List.append_right_eq_self]
  cases o with
  | library =>
    obtain ⟨answer, _, rfl⟩ := logs
    rfl
  | _ =>
    cases (show events = _ from logs)
    rfl

theorem recounts : (kernel build).Recounts user (turnings build user) where
  exec := turnings_exec
  called {actor entry state after} admitted := by
    cases entry <;> cases admitted <;> simp [Event.turning]
  spawned := by simp [spawned, Event.turning, turnings]
  disposed := by simp [Event.turning]
  exited := by simp [Event.turning]
  returned := by simp [Event.turning]
  threw := by simp [Event.turning]
  returns other := by simp [Event.turning, other]
  throws other := by simp [Event.turning, other]
  environment {input state after} moved := by
    cases input <;> cases moved
    rfl

theorem fitting_concat {told : Told (kernel build) Thrown Line} : Fitting Entry.Returns (story ++ [told]) ↔
    Fitting Entry.Returns story ∧ ∀ entry value, told = .called entry (.ok value) → entry.Returns value := by
  constructor
  · refine fun fitting => ⟨fun entry value member => fitting entry value (List.mem_append_left _ member), ?_⟩
    rintro entry value rfl
    exact fitting entry value (List.mem_append_right _ (List.mem_singleton.mpr rfl))
  · rintro ⟨earlier, last⟩ entry value member
    rcases List.mem_append.mp member with member | member
    · exact earlier entry value member
    · exact last entry value (List.mem_singleton.mp member).symm

/-- The steps of main_func that its story consists of, where calls return what they can. -/
inductive Course.Goes (this : Ptr) {build : Build} : Course → Told (kernel build) Thrown Line → Course → Prop where
  | starts {dir done} : Goes this ⟨.fresh, dir, done⟩ (.said startingLine) ⟨.started, dir, done⟩
  | constructs {dir done} : Goes this ⟨.started, dir, done⟩ (.called (.construct this) (.ok .none))
      ⟨.constructed, dir, done⟩
  | connects {dir done} : Goes this ⟨.constructed, dir, done⟩
      (.called (.connect this homeOptions) (.ok (.connected this)))
      ⟨.connected, dir, done⟩
  | opens {dir handle done} : Goes this ⟨.connected, dir, done⟩
      (.called (.operate this (.opendir [46])) (.ok (.handle handle)))
      ⟨.between, handle, done⟩
  | finds {dir done file} : Goes this ⟨.between, dir, done⟩
      (.called (.operate this (.dirNext dir)) (.ok (.file (some file)))) ⟨.found file, dir, done⟩
  | exhausts {dir done} : Goes this ⟨.between, dir, done⟩ (.called (.operate this (.dirNext dir)) (.ok (.file none)))
      ⟨.exhausted, dir, done⟩
  | describes {dir done file attributes} : Goes this ⟨.found file, dir, done⟩
      (.called (.operate this (.stat file.buffer)) (.ok (.attributes attributes)))
        ⟨.described file attributes, dir, done⟩
  | prints {dir done file attributes} : Goes this ⟨.described file attributes, dir, done⟩
      (.said (fileLine (cString file.buffer) (some attributes))) ⟨.between, dir, done ++ [(file, attributes)]⟩
  | closes {dir done} : Goes this ⟨.exhausted, dir, done⟩ (.called (.operate this (.dirClose dir)) (.ok .none))
      ⟨.closed, dir, done⟩
  | fails {phase dir done entry thrown} (asks : (Course.mk phase dir done).asks this = some entry) :
      Goes this ⟨phase, dir, done⟩ (.called entry (.error thrown)) ⟨.failed thrown phase.file, dir, done⟩
  | reports {dir done thrown file} : Goes this ⟨.failed thrown file, dir, done⟩ (.said thrown.line)
      ⟨.reported thrown file, dir, done⟩

theorem Course.Moves.goes {told : Told (kernel build) Thrown Line} (moves : course.Moves build this told next)
    (sound : course.phase ≠ .astray) (fits : ∀ entry value, told = .called entry (.ok value) → entry.Returns value) :
    course.Goes this told next := by
  obtain ⟨phase, dir, done⟩ := course
  cases moves with
  | strays astray => exact (sound astray).elim
  | throws asks => exact .fails asks
  | prints prints =>
    cases phase <;> cases prints
    · exact .starts
    · exact .prints
    · exact .reports
  | returns asks =>
    have fits := fits _ _ rfl
    cases phase <;> cases asks
    · exact fits ▸ .constructs
    · exact fits ▸ .connects
    · obtain ⟨handle, rfl⟩ := fits
      exact .opens
    · obtain ⟨file, rfl⟩ := fits
      cases file with
      | none => exact .exhausts
      | some file => exact .finds
    · obtain ⟨attributes, rfl⟩ := fits
      exact .describes
    · exact fits ▸ .closes

theorem Course.Goes.sound {told : Told (kernel build) Thrown Line} (goes : course.Goes this told next) :
    next.phase ≠ .astray := by
  cases goes <;> nofun

/-- What holds at first and is kept by each step holds after every story. -/
theorem Telling.along (holds : Story build → Course → Prop) (fresh : holds [] { phase := .fresh })
    (goes : ∀ {story course told next}, Fitting Entry.Returns story → course.Goes this told next → holds story course →
      holds (story ++ [told]) next) (telling : Telling build this story course)
    (fitting : Fitting Entry.Returns story) : holds story course := by
  suffices course.phase ≠ .astray ∧ holds story course from this.2
  induction telling with
  | fresh => exact ⟨nofun, fresh⟩
  | more telling moves ih =>
    obtain ⟨earlier, fits⟩ := fitting_concat.mp fitting
    obtain ⟨sound, before⟩ := ih earlier
    have step := moves.goes sound fits
    exact ⟨step.sound, goes earlier step before⟩

theorem Telling.sound (telling : Telling build this story course) (fitting : Fitting Entry.Returns story) :
    course.phase ≠ .astray :=
  telling.along (fun _ course => course.phase ≠ .astray) nofun (fun _ goes _ => goes.sound) fitting

/-- What of the calls of main_func is in the past. -/
def Course.Past (user : ThreadId) (this : Ptr) (story : Story build) (course : Course) : Prop :=
  match course.phase with
  | .fresh | .started => story.flatMap (Told.turnings user) = []
  | .constructed =>
    story.flatMap (Told.turnings user) = [.began user (.construct this), .ended (some .none)]
  | .failed .. | .reported .. | .astray => True
  | _ => Told.called (Entry.connect this homeOptions) (.ok (Value.connected this)) ∈ story

theorem Telling.past (telling : Telling build this story course) (fitting : Fitting Entry.Returns story) :
    course.Past user this story := by
  refine telling.along (fun story course => course.Past user this story) rfl ?_ fitting
  intro story course told next _ goes past
  cases goes with
  | starts | constructs => simpa [Course.Past, Told.turnings, Except.toOption] using past
  | connects => simp [Course.Past]
  | fails | reports => trivial
  | _ => simpa [Course.Past] using past

/-- Where main_func comes to a call, and what the call is. -/
theorem mainFunc_asks {entry : Entry} {rest : Except Thrown Value → Main build Unit}
    (tells : Runs (K := teller (kernel build) Thrown Line) user (mainFunc build this) [] (.op (.call entry) rest) story)
    (fitting : Fitting Entry.Returns story) : ∃ course, Telling build this story course ∧
      course.asks this = some entry := by
  have passes := mainFunc_tells.along tells
  obtain ⟨later, told, _⟩ := (passes.2 (some (.error (.exception []))) _ _ rfl).here
  generalize whole : story ++ [_] = grown at told
  cases told with
  | fresh => simp at whole
  | more telling moves =>
    obtain ⟨rfl, same⟩ := List.append_inj' whole rfl
    cases same
    cases moves with
    | throws asks => exact ⟨_, telling, asks⟩
    | strays astray => exact (telling.sound fitting astray).elim

theorem turnings_split {past : List (Turning (kernel build))} {value : Value}
    (told : turnings build user client = past ++ [.ended (some value)]) :
    ∃ before rest, client.log = before ++ .returned user value :: rest ∧
      before.filterMap (Event.turning build user) = past := by
  obtain ⟨before, later, split, first, last⟩ := List.filterMap_eq_append_iff.mp told
  obtain ⟨quiet, event, rest, rfl, silent, turns, _⟩ := List.filterMap_eq_cons_iff.mp last
  obtain rfl : event = .returned user value := by
    cases event <;> simp [Event.turning] at turns
    obtain ⟨rfl, rfl⟩ := turns
    rfl
  refine ⟨before ++ quiet, rest, by rw [split, List.append_assoc], ?_⟩
  rw [List.filterMap_append, first, List.filterMap_eq_nil_iff.mpr silent, List.append_nil]

namespace Account
variable (account : Account build T U)

/-- The call in progress and what has been returned, after a turning. -/
def tally (user : ThreadId) (this : Ptr) (found : Option Entry × List U) :
    Turning (kernel build) → Option Entry × List U
  | .began actor entry => (if actor = user then some entry else found.1, found.2)
  | .ended (some value) => (none, found.2 ++ account.debited user this found.1 (.returned user value))
  | .ended none => (none, found.2)

/-- What the calls of a story have returned. -/
def told (user : ThreadId) (this : Ptr) (story : Story build) : List U :=
  story.flatMap fun
    | .called entry (.ok value) => account.debited user this (some entry) (.returned user value)
    | _ => []

@[simp] theorem told_concat {told : Told (kernel build) Thrown Line} : account.told user this (story ++ [told]) =
    account.told user this story ++ account.told user this [told] := List.flatMap_append

theorem tallied (user : ThreadId) (this : Ptr) (log : List Event) :
    (log.filterMap (Event.turning build user)).foldl (account.tally user this) (none, []) =
    (callOf user log, account.debits user this log) := by
  induction log using List.reverseRecOn with
  | nil => rfl
  | append_singleton log event ih =>
    rw [List.filterMap_append, List.foldl_append, ih, callOf_concat, debits_concat]
    cases event with
    | returned actor value =>
      by_cases mine : actor = user
      · subst mine
        simp [Event.turning, tally, Event.callAfter]
      · have other : account.debited user this (callOf user log) (.returned actor value) = [] :=
          debited_outside fun inside => mine inside.1
        simp [Event.turning, Event.callAfter, mine, other]
    | threw actor => by_cases mine : actor = user <;> simp [Event.turning, tally, Event.callAfter, mine, debited]
    | _ => simp [Event.turning, tally, Event.callAfter, debited, List.filterMap_cons]

theorem tally_story {done : List U} :
    (story.flatMap (Told.turnings user)).foldl (account.tally user this) (none, done) =
    (none, done ++ account.told user this story) := by
  induction story using List.reverseRecOn with
  | nil => simp [told]
  | append_singleton story told ih =>
    rw [List.flatMap_append, List.foldl_append, ih]
    cases told with
    | said line => simp [Told.turnings, Account.told]
    | called entry reply => cases reply <;> simp [Told.turnings, Account.told, tally, Except.toOption]

/-- The log tells the story again, with the call in progress. -/
theorem recounted (this : Ptr) {begun : List (Turning (kernel build))}
    (recounts : turnings build user client = story.flatMap (Told.turnings user) ++ begun) :
    (callOf user client.log, account.debits user this client.log) =
      begun.foldl (account.tally user this) (none, account.told user this story) := by
  rw [← tallied, ← turnings, recounts, List.foldl_append, tally_story, List.nil_append]

end Account

/-- Nothing outside the main program makes calls or gives commands. -/
def unattended (build : Build) : Choices (kernel build) where
  answers _ _ _ _ := True
  calls _ _ _ := False
  moves _ _ := False

section main
variable {entry : Entry} {actor : ThreadId} {count : Nat} {driven : Driven (kernel build) Thrown Line}

theorem began_member (build : Build) (user : ThreadId) (called : .called actor entry ∈ client.log) :
    Turning.began (K := kernel build) actor entry ∈ turnings build user client :=
  List.mem_filterMap.mpr ⟨_, called, rfl⟩

/-- The calls that main_func makes are such as one user of the object makes. -/
theorem asks_admitted (telling : Telling build this story course) (fitting : Fitting Entry.Returns story)
    (asks : course.asks this = some entry)
    (recounts : turnings build user client = story.flatMap (Told.turnings user)) :
    (solely build user this).calls user entry client := by
  have past : course.Past user this story := telling.past fitting
  have connected (called : Told.called (Entry.connect this homeOptions) (.ok (Value.connected this)) ∈ story) :
      Connected this client := by
    have ended : Turning.ended (some (Value.connected this)) ∈ turnings build user client := by
      rw [recounts, List.mem_flatMap]
      exact ⟨_, called, by simp [Told.turnings, Except.toOption]⟩
    obtain ⟨event, member, turns⟩ := List.mem_filterMap.mp ended
    cases event <;> simp [Event.turning] at turns
    exact ⟨_, turns.2 ▸ member⟩
  obtain ⟨phase, dir, done⟩ := course
  cases phase <;> cases asks
  · refine ⟨rfl, rfl, fun actor entry called => ?_⟩
    have began := recounts ▸ began_member build user called
    rw [past] at began
    cases began
  · have turned : turnings build user client = [.began user (.construct this)] ++ [.ended (some .none)] :=
      recounts.trans past
    obtain ⟨before, rest, split, told⟩ := turnings_split turned
    refine ⟨rfl, rfl, ⟨before, .none, rest, split, ?_⟩, fun actor options called => ?_⟩
    · -- any account tells the call that is in progress
      have call := congrArg Prod.fst ((attributes build).tallied user this before)
      exact call.symm.trans (by rw [told]; simp [Account.tally])
    · have began := turned ▸ began_member build user called
      simp at began
  all_goals exact ⟨rfl, rfl, connected past⟩

theorem driven_solely {actor : ThreadId}
    (allowed : ((unattended build).driven user (mainFunc build this) (turnings build user) Entry.Returns).calls actor
      entry client) : (solely build user this).calls actor entry client := by
  obtain ⟨rfl, rest, story, tells, fitting, recounts⟩ := allowed
  obtain ⟨course, telling, asks⟩ := mainFunc_asks tells fitting
  exact asks_admitted telling fitting asks recounts

end main

/-- The calls of printf that main_func has made. -/
def printed (story : Story build) : List Line :=
  story.filterMap fun
    | .said line => some line
    | _ => none

/-- The files that have been printed, each with the name and the attributes that were. -/
def Course.named (course : Course) : List (Bytes × Attributes) :=
  course.done.map fun (file, attributes) => (cString file.buffer, attributes)

def nameLine : Bytes × Attributes → Line := fun (name, attributes) => fileLine name (some attributes)

def Phase.opening : Phase → List Line
  | .fresh => []
  | _ => [startingLine]

def Phase.report : Phase → List Line
  | .reported thrown _ => [thrown.line]
  | _ => []

/-- No directory is open yet. -/
def Phase.early : Phase → Bool
  | .fresh | .started | .constructed | .connected => true
  | _ => false

/-- A directory has been opened, as far as the phase shows. -/
def Phase.late : Phase → Bool
  | .between | .found _ | .described .. | .exhausted | .closed => true
  | .failed _ file | .reported _ file => file.isSome
  | _ => false

/-- `opendir` has handed this directory to main_func. -/
def Handed (this dir : Ptr) (story : Story build) : Prop :=
  .called (.operate this (.opendir [46])) (.ok (.handle dir)) ∈ story

theorem handed_concat {told : Told (kernel build) Thrown Line} : Handed this dir (story ++ [told]) ↔
    Handed this dir story ∨ told = .called (.operate this (.opendir [46])) (.ok (.handle dir)) := by
  simp [Handed, eq_comm]

namespace Telling

/-- What `next` has returned for a directory. -/
theorem told_directory (telling : Telling build this story course) (fitting : Fitting Entry.Returns story)
    (handle : Ptr) : (course.phase.early = true → course.done = []) ∧ (directory build handle).told user this story =
      if handle = course.dir then course.done.map Prod.fst ++ course.phase.file.toList else [] := by
  refine telling.along (fun story course => (course.phase.early = true → course.done = []) ∧
    (directory build handle).told user this story =
      if handle = course.dir then course.done.map Prod.fst ++ course.phase.file.toList else []) ?_ ?_ fitting
  · simp [Account.told, Phase.file]
  · intro story course told next _ goes before
    obtain ⟨early, before⟩ := before
    rw [Account.told_concat, before]
    cases goes with
    | opens =>
      obtain rfl := early rfl
      simp [Account.told, Account.debited, directory, Operation.reads, Phase.file]
    | @finds dir =>
      by_cases same : handle = dir
      · simp [same, Account.told, Account.debited, directory, Operation.reads, Value.files, Phase.file, Phase.early]
      · have other : ¬ dir = handle := fun found => same found.symm
        simp [same, other, Account.told, Account.debited, directory, Operation.reads, Phase.early]
    | starts | constructs | connects =>
      obtain rfl := early rfl
      simp [Account.told, Account.debited, Phase.file]
    | _ => simp [Account.told, Account.debited, directory, Operation.reads, Value.files, Phase.file, Phase.early]

/-- What `stat` has returned. -/
theorem told_attributes (telling : Telling build this story course) (fitting : Fitting Entry.Returns story) :
    (attributes build).told user this story = course.named ++ course.phase.attributes.toList := by
  refine telling.along (fun story course => (attributes build).told user this story =
    course.named ++ course.phase.attributes.toList) rfl ?_ fitting
  intro story course told next _ goes before
  rw [Account.told_concat, before]
  cases goes with
  | @fails phase =>
    rename_i asks
    cases phase <;> first | (simp [Account.told, Course.named, Phase.attributes]; done) | cases asks
  | _ =>
    simp [Account.told, Account.debited, attributes, Operation.stats, Operation.described, Course.named,
      Phase.attributes]

/-- The directory that main_func goes through is the one that `opendir` has returned, or none
has been opened and none has been gone through. -/
theorem opened (telling : Telling build this story course) (fitting : Fitting Entry.Returns story) :
    (course.phase.early = false ∧ ∀ handle, Handed this handle story ↔ handle = course.dir) ∨
      ((∀ handle, ¬ Handed this handle story) ∧ course.done = [] ∧ course.phase.late = false) := by
  refine telling.along (fun story course =>
    (course.phase.early = false ∧ ∀ handle, Handed this handle story ↔ handle = course.dir) ∨
      ((∀ handle, ¬ Handed this handle story) ∧ course.done = [] ∧ course.phase.late = false)) ?_ ?_ fitting
  · exact .inr ⟨fun _ => List.not_mem_nil, rfl, rfl⟩
  intro story course told next _ goes before
  simp only [handed_concat]
  rcases before with ⟨some, here⟩ | ⟨none, clear, soon⟩
  · cases goes with
    | starts | constructs | connects | opens => cases some
    | @fails phase =>
      rename_i asks
      refine .inl ⟨rfl, fun handle => ?_⟩
      simpa using here handle
    | _ => exact .inl ⟨rfl, fun handle => by simpa using here handle⟩
  · cases goes with
    | opens =>
      refine .inl ⟨rfl, fun handle => ?_⟩
      simpa [none handle] using eq_comm
    | starts | constructs | connects => exact .inr ⟨fun handle => by simpa using none handle, clear, rfl⟩
    | @fails phase =>
      refine .inr ⟨fun handle => by simpa using none handle, clear, ?_⟩
      cases phase <;> first | rfl | exact soon
    | reports => exact .inr ⟨fun handle => by simpa using none handle, clear, soon⟩
    | _ => cases soon

theorem printed_lines (telling : Telling build this story course) (fitting : Fitting Entry.Returns story) :
    (course.phase.early = true → course.done = []) ∧
      printed story = course.phase.opening ++ course.named.map nameLine ++ course.phase.report := by
  refine telling.along (fun story course => (course.phase.early = true → course.done = []) ∧
    printed story = course.phase.opening ++ course.named.map nameLine ++ course.phase.report)
      ⟨fun _ => rfl, rfl⟩ ?_ fitting
  intro story course told next _ goes before
  obtain ⟨early, before⟩ := before
  rw [printed, List.filterMap_append, ← printed, before]
  cases goes with
  | starts | constructs | connects | opens =>
    obtain rfl := early rfl
    simp [Phase.opening, Phase.report, Course.named]
  | @fails phase =>
    rename_i asks
    refine ⟨nofun, ?_⟩
    cases phase <;> first | (simp [Phase.opening, Phase.report, Course.named]; done) | cases asks
  | _ => simp [Phase.opening, Phase.report, Phase.early, Course.named, nameLine]

end Telling

/-- What main_func has printed: a line for each of these files, and at most one report. The
files are those of the one directory that `opendir` has returned, and no other is listed. Of
what the session lists of it, and of what it describes, at most one thing is not printed, and
none is when the end is reached without a report. -/
structure Prints (this : Ptr) (driven : Driven (kernel build) Thrown Line) (done : List (File × Attributes))
    (opening report : List Line) : Prop where
  lines : printed driven.story =
    opening ++ (done.map fun (file, attributes) => fileLine (cString file.buffer) (some attributes)) ++ report
  opens : opening = [] ∧ done = [] ∨ opening = [startingLine]
  reports : report = [] ∨ ∃ thrown : Thrown, report = [thrown.line]
  once : ∀ dir other, Handed this dir driven.story → Handed this other driven.story → dir = other
  unopened : (∀ dir, ¬ Handed this dir driven.story) → done = []
  listed : ∀ dir, Handed this dir driven.story → ∃ shown more,
    (directory build dir).credits this (session this driven.world.state.log) = shown ++ more ∧
      List.Forall₂ Readdir.Fills shown (done.map Prod.fst) ∧ more.length ≤ 1
  unlisted : ∀ dir, ¬ Handed this dir driven.story →
    (directory build dir).credits this (session this driven.world.state.log) = []
  described : ∃ more, (attributes build).credits this (session this driven.world.state.log) =
    (done.map fun (file, attributes) => (cString file.buffer, attributes)) ++ more ∧ more.length ≤ 1
  complete : driven.code = .pure () → report = [] → ∃ dir, Handed this dir driven.story ∧
    ((directory build dir).credits this (session this driven.world.state.log)).length = done.length

section main
variable {count : Nat} {driven : Driven (kernel build) Thrown Line}

theorem driven_follows (starts : client.Starts count)
    (reached : (Driven.initial client count (mainFunc build this)).Reaches
      (unattended build) client.mainThreadId driven) :
    driven.Follows (unattended build) client.mainThreadId (mainFunc build this) (turnings build client.mainThreadId)
      Entry.Returns (World.initial client count) :=
  reached.follows recounts (body_returns build) (by simp [turnings, starts.log]) starts.main

/-- The worlds that the main program reaches are those of a sole user of the object. -/
theorem driven_reaches (starts : client.Starts count)
    (reached : (Driven.initial client count (mainFunc build this)).Reaches
      (unattended build) client.mainThreadId driven) :
    (solely build client.mainThreadId this).Reaches (World.initial client count) driven.world := by
  refine (driven_follows starts reached).reached.mono _ fun action world allowed => ?_
  cases action with
  | call actor entry => exact driven_solely allowed
  | resume | «continue» | environment => exact allowed

/-- Where main_func is, as far as its code shows. -/
theorem located
    (tells : Runs (K := teller (kernel build) Thrown Line) user (mainFunc build this) [] driven.code driven.story)
    (fitting : Fitting Entry.Returns driven.story) : ∃ course, Telling build this driven.story course ∧
      (∀ entry rest, driven.code = .op (.call entry) rest → course.asks this = some entry) ∧
      (driven.code = .pure () → course.Ended) := by
  by_cases calls : ∃ entry rest, driven.code = .op (.call entry) rest
  · obtain ⟨entry, rest, here⟩ := calls
    rw [here] at tells
    obtain ⟨course, telling, asks⟩ := mainFunc_asks tells fitting
    refine ⟨course, telling, fun other rest there => ?_, fun ended => ?_⟩
    · cases here.symm.trans there
      exact asks
    · cases here.symm.trans ended
  · have passes := mainFunc_tells.along tells
    by_cases ended : driven.code = .pure ()
    · rw [ended] at passes
      obtain ⟨course, telling, astray | here⟩ := passes.2
      · exact (telling.sound fitting astray).elim
      · exact ⟨course, telling, fun entry rest there => (calls ⟨entry, rest, there⟩).elim, fun _ => here⟩
    · obtain ⟨course, telling, _⟩ := passes.here
      exact ⟨course, telling, fun entry rest there => (calls ⟨entry, rest, there⟩).elim, fun now => (ended now).elim⟩

/-- The log tells the story again, and a call in progress with it. -/
theorem recounted_now (account : Account build T U) (this : Ptr) {choices : Choices (kernel build)}
    {start : World (kernel build)}
    {program : Main build Unit}
    (follows : driven.Follows choices user program (turnings build user) Entry.Returns start) :
    account.debits user this driven.world.state.log = account.told user this driven.story ∧
      ∀ entry, callOf user driven.world.state.log = some entry → ∃ rest, driven.code = .op (.call entry) rest := by
  have recounted := account.recounted this follows.recounts
  rw [Driven.begun] at recounted
  split at recounted
  next entry rest busy here =>
    simp only [List.foldl_cons, List.foldl_nil, Account.tally, if_pos, Prod.mk.injEq] at recounted
    obtain ⟨call, debits⟩ := recounted
    refine ⟨debits, fun other calls => ⟨rest, ?_⟩⟩
    cases call.symm.trans calls
    exact here
  · simp only [List.foldl_nil, Prod.mk.injEq] at recounted
    obtain ⟨call, debits⟩ := recounted
    exact ⟨debits, fun other calls => by cases call.symm.trans calls⟩

/-- The call in progress is the one that main_func is at. -/
theorem call_now {choices : Choices (kernel build)} {start : World (kernel build)} {program : Main build Unit}
    (follows : driven.Follows choices user program (turnings build user) Entry.Returns start) {entry : Entry}
    (call : callOf user driven.world.state.log = some entry) : ∃ rest, driven.code = .op (.call entry) rest :=
  (recounted_now (attributes build) 0 follows).2 entry call

/-- Of what came in, all is paired with what has been done, but for one thing at most. -/
theorem paired_but_one {related : T → U → Prop} {paired pending : List T} {done : List U} {last : Option U}
    (pairs : List.Forall₂ related paired (done ++ last.toList)) (few : pending.length ≤ 1)
    (quiet : pending ≠ [] → last = none) : ∃ shown more, paired ++ pending = shown ++ more ∧
      List.Forall₂ related shown done ∧ more.length ≤ 1 := by
  refine ⟨paired.take done.length, paired.drop done.length ++ pending, ?_, List.forall₂_take_append _ _ _ pairs, ?_⟩
  · rw [← List.append_assoc, List.take_append_drop]
  · have rest := (List.forall₂_drop_append _ _ _ pairs).length_eq
    rw [List.length_append, rest]
    by_cases none : pending = []
    · cases last <;> simp [none]
    · simpa [quiet none] using few

theorem asks_attributes {operation : Operation} (asks : course.asks this = some (.operate this operation)) :
    course.phase.attributes = none := by
  obtain ⟨phase, dir, done⟩ := course
  cases phase <;> first | rfl | cases asks

/-- Where `next` is asked, it is for the directory that is open, of which nothing is left to print. -/
theorem asks_next {handle : Ptr} (asks : course.asks this = some (.operate this (.dirNext handle))) :
    handle = course.dir ∧ course.phase.file = none ∧ course.phase.late = true := by
  obtain ⟨phase, dir, done⟩ := course
  cases phase <;> first | (cases asks; done) | (cases asks; exact ⟨rfl, rfl, rfl⟩)

theorem unopened_file {phase : Phase} (soon : phase.late = false) : phase.file = none := by
  cases phase <;> first | rfl | cases soon | simpa [Phase.late, Phase.file] using soon

theorem handed_only (telling : Telling build this story course) (fitting : Fitting Entry.Returns story) {handle : Ptr}
    (here : Handed this handle story) : handle = course.dir := by
  rcases telling.opened fitting with ⟨_, open_⟩ | ⟨none, _⟩
  · exact (open_ handle).mp here
  · exact (none handle here).elim

/-- What the session has listed of a directory, where main_func is there. -/
theorem listed_now {choices : Choices (kernel build)} {start : World (kernel build)}
    (attended : Attended build user this driven.world.state.log) (telling : Telling build this driven.story course)
    (asks : ∀ entry rest, driven.code = .op (.call entry) rest → course.asks this = some entry)
    (follows : driven.Follows choices user (mainFunc build this) (turnings build user) Entry.Returns start)
    (handle : Ptr) : ∃ listed listing,
      (directory build handle).credits this (session this driven.world.state.log) = listed ++ listing ∧
      List.Forall₂ Readdir.Fills listed
        (if handle = course.dir then course.done.map Prod.fst ++ course.phase.file.toList else []) ∧
      listing.length ≤ 1 ∧ (listing ≠ [] → course.asks this = some (.operate this (.dirNext handle)) ∧
        ∃ entry rest, driven.code = .op (.call entry) rest) := by
  obtain ⟨listed, listing, all, fills, few, reading⟩ := (directory build handle).balanced attended
  rw [(recounted_now _ this follows).1, (telling.told_directory follows.fitting handle).2] at fills
  refine ⟨listed, listing, all, fills, few, fun some => ?_⟩
  obtain ⟨operation, call, reads⟩ := reading some
  obtain rfl := Operation.reads_iff.mp reads
  obtain ⟨rest, here⟩ := call_now follows call
  exact ⟨asks _ rest here, _, rest, here⟩

/-- Of a directory that was not opened nothing has been listed. -/
theorem unlisted_now {choices : Choices (kernel build)} {start : World (kernel build)}
    (attended : Attended build user this driven.world.state.log) (telling : Telling build this driven.story course)
    (asks : ∀ entry rest, driven.code = .op (.call entry) rest → course.asks this = some entry)
    (follows : driven.Follows choices user (mainFunc build this) (turnings build user) Entry.Returns start)
    {handle : Ptr} (closed : ¬ Handed this handle driven.story) :
    (directory build handle).credits this (session this driven.world.state.log) = [] := by
  obtain ⟨listed, listing, all, fills, few, reading⟩ := listed_now attended telling asks follows handle
  have nothing : (if handle = course.dir then course.done.map Prod.fst ++ course.phase.file.toList else []) = [] ∧
      listing = [] := by
    rcases telling.opened follows.fitting with ⟨_, open_⟩ | ⟨_, clear, soon⟩
    · have other : handle ≠ course.dir := fun same => closed ((open_ handle).mpr same)
      exact ⟨if_neg other, by_contra fun some => other (asks_next (reading some).1).1⟩
    · refine ⟨by simp [clear, unopened_file soon], by_contra fun some => ?_⟩
      cases soon.symm.trans (asks_next (reading some).1).2.2
  rw [nothing.1] at fills
  rw [all, nothing.2, List.forall₂_nil_right_iff.mp fills]
  rfl

/-- What the session has described, where main_func is there. -/
theorem described_now {choices : Choices (kernel build)} {start : World (kernel build)}
    (attended : Attended build user this driven.world.state.log) (telling : Telling build this driven.story course)
    (asks : ∀ entry rest, driven.code = .op (.call entry) rest → course.asks this = some entry)
    (follows : driven.Follows choices user (mainFunc build this) (turnings build user) Entry.Returns start) :
    ∃ more, (attributes build).credits this (session this driven.world.state.log) = course.named ++ more ∧
      more.length ≤ 1 := by
  obtain ⟨known, asking, answers, same, single, stating⟩ := (attributes build).balanced attended
  rw [(recounted_now _ this follows).1, telling.told_attributes follows.fitting] at same
  have unstated (some : asking ≠ []) : course.phase.attributes = none := by
    obtain ⟨operation, call, _⟩ := stating some
    obtain ⟨rest, here⟩ := call_now follows call
    exact asks_attributes (asks _ rest here)
  obtain ⟨shown, more, split, filled, short⟩ := paired_but_one same single unstated
  obtain rfl : shown = course.named := List.forall₂_eq_eq_eq ▸ filled
  exact ⟨more, answers.trans split, short⟩

/-- In every run of the main program, each line that it prints is one file that the session
lists, with the attributes that the session describes it by, in the order of the directory. -/
theorem directory_printed (starts : client.Starts count)
    (reached : (Driven.initial client count (mainFunc build this)).Reaches
      (unattended build) client.mainThreadId driven) :
    ∃ done opening report, Prints this driven done opening report := by
  have follows := driven_follows starts reached
  have attended := attended_everywhere starts (driven_reaches starts reached)
  obtain ⟨course, telling, asks, ends⟩ := located follows.tells follows.fitting
  have lists := listed_now attended telling asks follows
  have opened := telling.opened follows.fitting
  have unique {handle : Ptr} (here : Handed this handle driven.story) : handle = course.dir :=
    handed_only telling follows.fitting here
  obtain ⟨early, lines⟩ := telling.printed_lines follows.fitting
  refine ⟨course.done, course.phase.opening, course.phase.report, ?_, ?_, ?_,
    fun dir other here there => (unique here).trans (unique there).symm, fun none => ?_, fun dir here => ?_,
    fun dir closed => unlisted_now attended telling asks follows closed, described_now attended telling asks follows,
    fun ended none => ?_⟩
  · rw [lines, Course.named, List.map_map]
    rfl
  · obtain ⟨phase, dir, done⟩ := course
    cases phase <;> first | exact .inr rfl | exact .inl ⟨rfl, early rfl⟩
  · obtain ⟨phase, dir, done⟩ := course
    cases phase <;> first | exact .inl rfl | exact .inr ⟨_, rfl⟩
  · rcases opened with ⟨_, open_⟩ | ⟨_, clear, _⟩
    · exact (none _ ((open_ _).mpr rfl)).elim
    · exact clear
  · obtain ⟨listed, listing, all, fills, few, reading⟩ := lists dir
    rw [if_pos (unique here)] at fills
    obtain ⟨shown, more, split, filled, short⟩ :=
      paired_but_one fills few fun some => (asks_next (reading some).1).2.1
    exact ⟨shown, more, all.trans split, filled, short⟩
  · have closed : course.phase = .closed := (ends ended).resolve_right fun ⟨thrown, file, here⟩ => by
      rw [here] at none
      cases none
    obtain ⟨listed, listing, all, fills, few, reading⟩ := lists course.dir
    have nothing : listing = [] := by
      by_contra some
      obtain ⟨_, entry, rest, here⟩ := reading some
      cases ended.symm.trans here
    rcases opened with ⟨_, open_⟩ | ⟨_, _, soon⟩
    · refine ⟨course.dir, (open_ _).mpr rfl, ?_⟩
      rw [all, nothing, List.append_nil, fills.length_eq, closed]
      simp [Phase.file]
    · rw [closed] at soon
      cases soon

/-- Every run of the main program is one in which one thread uses one object. -/
theorem program_uses (starts : client.Starts count)
    (reached : (Driven.initial client count (mainFunc build this)).Reaches
      (unattended build) client.mainThreadId driven) :
    (solely build client.mainThreadId this).Reaches (World.initial client count) driven.world :=
  driven_reaches starts reached

end main

section runs

/-- A server that lists one file. -/
def printable : Client := answering 0 ([⟨.init, (0 : Int), 0⟩, ⟨.sessionInit, some 9, 0⟩, ⟨.sessionSetBlocking, (), 0⟩,
  ⟨.sftpOpenEx, some 5, 0⟩, ⟨.sftpReaddirEx, ({ rc := 1, buffer := [97, 0] } : Readdir), 0⟩,
  ⟨.sftpStat, ({ rc := 0, data := { filesize := 3 } } : Filled Attributes), 0⟩,
  ⟨.sftpReaddirEx, ({ rc := 0 } : Readdir), 0⟩, ⟨.sftpClosedir, (0 : Int), 0⟩] ++ (accepting.session 0).script)

/-- The program goes first, and then the threads in this order. -/
def turns (order : List ThreadId) : List (Move (kernel .retro) Thrown) :=
  [.program, .returns .none] ++ ([.none, .memory (List.replicate 512 0), .dir 0, .select (.returns 0), .status 0].map
    fun input => .machine (.continue input)) ++ order.map fun thread => .machine (.resume thread)

theorem turns_allowed {order : List ThreadId} (action : Action (kernel .retro)) (member : .machine action ∈ turns order)
    (world : World (kernel .retro)) : (unattended .retro).Allows action world := by
  rcases List.mem_append.mp member with member | member
  · rcases List.mem_append.mp member with member | member
    · simp at member
    · obtain ⟨input, _, same⟩ := List.mem_map.mp member
      cases same
      exact fun _ _ _ _ _ => trivial
  · obtain ⟨thread, _, same⟩ := List.mem_map.mp member
    cases same
    trivial

/-- The read thread goes before the main thread. -/
def printing : Driven (kernel .retro) Thrown Line :=
  (Driven.initial printable 1 (mainFunc .retro 0)).play 0 (turns [1, 0]) 400

theorem printing_reached : (Driven.initial printable 1 (mainFunc .retro 0)).Reaches (unattended .retro) 0 printing :=
  .play .start turns_allowed

theorem directory_printed_once : (∃ done opening report, Prints 0 printing done opening report) ∧
    printed printing.story = [startingLine, ⟨"[%ldKB] %s\n", [.uint64 3, .text [97]]⟩] :=
  ⟨@directory_printed .retro 0 printable 1 printing ⟨rfl, Nat.zero_lt_one⟩ printing_reached, by decide +kernel⟩

theorem program_uses_once : (solely .retro 0 0).Reaches (World.initial printable 1) printing.world ∧
    printing.story.length = 9 :=
  ⟨@program_uses .retro 0 printable 1 printing ⟨rfl, Nat.zero_lt_one⟩ printing_reached, by decide +kernel⟩

end runs

end PowerBoot.Transfer
