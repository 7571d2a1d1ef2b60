import PowerBoot.Coop.Driver
import PowerBoot.Transfer.Listing

/-! The main program, which connects to a server and prints what its home directory lists. -/

namespace PowerBoot.Transfer
open Coop Driving

/-- What a call can throw. -/
inductive Thrown where
  | runtimeError (what : Bytes)
  | exception (what : Bytes)

/-- What is passed to printf after the format: a uint64_t or a string. -/
inductive Argument where
  | uint64 (value : Nat)
  | text (value : Bytes)
deriving DecidableEq

/-- A call of printf: what is passed to it, and not the text that it makes of this. -/
structure Line where
  format : String
  arguments : List Argument := []
deriving DecidableEq

section program
variable (build : Build)

abbrev Main := Driving (kernel build) Thrown Line

/-- What main_func has done. -/
abbrev Story := List (Told (kernel build) Thrown Line)

abbrev TryMain := Trying (kernel build) Thrown Line

/-- YieldToAnyThread, on the main thread. -/
def giveWay : Main build Unit :=
  match build with
  | .retro => Code.pause
  | .direct _ => return ()

def printLine (line : Line) : Main build Unit := do
  say line
  giveWay build

/-- The options that the main program connects with. -/
def homeOptions : ConnectionOptions where
  addr := "192.168.1.145"
  port := 22
  username := "gavin"
  password := "UnitedSenora02"
  pubkey := "/home/gavin/.ssh/id_rsa.pub"
  privkey := "/home/gavin/.ssh/id_rsa"

/-- A method of the object, on the main thread. -/
def method (this : Ptr) (operation : Operation) : TryMain build Value := invoke (.operate this operation)

/-- `opendir` returns a handle, and `next` a file or nothing. -/
def mainOpendir (this : Ptr) (path : Bytes) : TryMain build Ptr := do
  match ← method build this (.opendir path) with
  | .handle dir => return dir
  | _ => ExceptT.mk .throw

def mainNext (this dir : Ptr) : TryMain build (Option File) := do
  match ← method build this (.dirNext dir) with
  | .file file => return file
  | _ => ExceptT.mk .throw

/-- What main_func passes to printf for a file. The size is a uint64_t while `%ld` takes a
long, which is half as wide in the retro build: the line says what is passed there too. -/
def fileLine (name : Bytes) (attr : Option Attributes) : Line :=
  match attr with
  | none => ⟨"%s\n", [.text name]⟩
  | some attributes => ⟨"[%ldKB] %s\n", [.uint64 attributes.filesize, .text name]⟩

/-- What `stat` returns, or NULL. -/
def Value.attributes? : Value → Option Attributes
  | .attributes found => some found
  | _ => Option.none

/-- The loop over the files of a directory, from the first one on. -/
def printFiles (this dir : Ptr) (file : Option File) : TryMain build Unit :=
  repeats (fun file => do
    match file with
    | some val =>
      let filename := val.buffer
      let attr ← method build this (.stat filename)
      giveWay build
      printLine build (fileLine (cString filename) attr.attributes?)
      giveWay build
      return .inl (← mainNext build this dir)
    | none => return .inr ()) file

/-- The try block of main_func. -/
def tryMain (this : Ptr) : TryMain build Unit := do
  let _ ← invoke (.construct this)
  giveWay build
  giveWay build
  let _ ← invoke (.connect this homeOptions)
  giveWay build
  let dir ← mainOpendir build this [46]
  giveWay build
  let file ← mainNext build this dir
  giveWay build
  printFiles build this dir file
  let _ ← method build this (.dirClose dir)
  giveWay build

/-- What the handlers of main_func print. -/
def Thrown.line : Thrown → Line
  | .runtimeError what => ⟨"Runtime Error: %s\n", [.text what]⟩
  | .exception what => ⟨"Unhandled Exception: %s\n", [.text what]⟩

def startingLine : Line := ⟨"Starting PowerBoot...\n", []⟩

def mainFunc (this : Ptr) : Main build Unit := do
  printLine build startingLine
  giveWay build
  match ← (tryMain build this).run with
  | .ok () => return ()
  | .error thrown => printLine build thrown.line

end program

/-- Where main_func is, with what it needs from there on. It has gone astray where a call
returns what its type excludes. -/
inductive Phase where
  | fresh | started | constructed | connected
  | between | found (file : File) | described (file : File) (attributes : Attributes)
  | exhausted | closed
  | failed (thrown : Thrown) (file : Option File) | reported (thrown : Thrown) (file : Option File)
  | astray

/-- The directory that is open, and the files that have been printed. -/
structure Course where
  phase : Phase
  dir : Ptr := 0
  done : List (File × Attributes) := []

namespace Phase

/-- The file that `next` has returned and that is not printed yet. -/
def file : Phase → Option File
  | .found file | .described file _ => some file
  | .failed _ file | .reported _ file => file
  | _ => none

/-- What `stat` has returned and is not printed yet. -/
def attributes : Phase → Option (Bytes × Attributes)
  | .described file filled => some (cString file.buffer, filled)
  | _ => none

end Phase

namespace Course

/-- The call that comes next. -/
def asks (this : Ptr) (course : Course) : Option Entry :=
  match course.phase with
  | .started => some (.construct this)
  | .constructed => some (.connect this homeOptions)
  | .connected => some (.operate this (.opendir [46]))
  | .between => some (.operate this (.dirNext course.dir))
  | .found file => some (.operate this (.stat file.buffer))
  | .exhausted => some (.operate this (.dirClose course.dir))
  | _ => none

def given (value : Value) (course : Course) : Course :=
  match course.phase, value with
  | .started, _ => { course with phase := .constructed }
  | .constructed, _ => { course with phase := .connected }
  | .connected, .handle dir => { course with phase := .between, dir }
  | .between, .file (some file) => { course with phase := .found file }
  | .between, .file none => { course with phase := .exhausted }
  | .found file, .attributes found => { course with phase := .described file found }
  | .exhausted, _ => { course with phase := .closed }
  | _, _ => { course with phase := .astray }

/-- The line that comes next, and where that leads to. -/
def prints (course : Course) : Option (Line × Course) :=
  match course.phase with
  | .fresh => some (startingLine, { course with phase := .started })
  | .described file found => some (fileLine (cString file.buffer) (some found),
      { course with phase := .between, done := course.done ++ [(file, found)] })
  | .failed thrown file => some (thrown.line, { course with phase := .reported thrown file })
  | _ => none

end Course

/-- One step of main_func. -/
inductive Course.Moves (build : Build) (this : Ptr) :
    Course → Told (kernel build) Thrown Line → Course → Prop where
  | returns {course : Course} {entry : Entry} {value : Value} (asks : course.asks this = some entry) :
      Moves build this course (.called entry (.ok value)) (course.given value)
  | throws {course : Course} {entry : Entry} {thrown : Thrown} (asks : course.asks this = some entry) :
      Moves build this course (.called entry (.error thrown))
        { course with phase := .failed thrown course.phase.file }
  | prints {course next : Course} {line : Line} (prints : course.prints = some (line, next)) :
      Moves build this course (.said line) next
  | strays {course : Course} {told : Told (kernel build) Thrown Line} (astray : course.phase = .astray) :
      Moves build this course told course

/-- The story is one that main_func can tell, and this is where it is then. -/
inductive Telling (build : Build) (this : Ptr) : Story build → Course → Prop where
  | fresh : Telling build this [] { phase := .fresh }
  | more {story : Story build} {course next : Course} {told : Told (kernel build) Thrown Line}
      (telling : Telling build this story course) (moves : course.Moves build this told next) :
      Telling build this (story ++ [told]) next

/-- After the story main_func is in one of these phases. -/
def Comes (build : Build) (this : Ptr) (course : Course → Prop) (story : Story build) : Prop :=
  ∃ now, Telling build this story now ∧ (now.phase = .astray ∨ course now)

variable {build : Build} {this dir : Ptr} {story : Story build} {thread : ThreadId}
  {course next : Course}

abbrev Tells (thread : ThreadId) (this : Ptr) {build : Build} {α : Type} (code : Main build α)
    (post : α → Story build → Prop) (story : Story build) : Prop :=
  Passage (K := teller (kernel build) Thrown Line) thread (Comes build this fun _ => True) (fun _ => True) code post
    story

/-- What a part of the try block leaves. -/
def Leaving (this : Ptr) {build : Build} {α : Type} (after : α → Course → Prop) :
    Except Thrown α → Story build → Prop
  | .ok value => Comes build this (after value)
  | .error thrown => Comes build this fun course => ∃ file, course.phase = .failed thrown file

theorem Comes.any {at_ : Course → Prop} (comes : Comes build this at_ story) :
    Comes build this (fun _ => True) story := by
  obtain ⟨now, telling, _⟩ := comes
  exact ⟨now, telling, .inr trivial⟩

theorem Comes.mono {before after : Course → Prop} (comes : Comes build this before story)
    (implies : ∀ now, before now → after now) : Comes build this after story := by
  obtain ⟨now, telling, here⟩ := comes
  exact ⟨now, telling, here.imp_right (implies now)⟩

theorem Comes.astray {before after : Course → Prop} (comes : Comes build this before story)
    (strays : ∀ now, before now → now.phase = .astray) : Comes build this after story := by
  obtain ⟨now, telling, here⟩ := comes
  exact ⟨now, telling, .inl (here.elim id (strays now))⟩

theorem giveWay_tells {post : Story build → Prop} (comes : Comes build this (fun _ => True) story)
    (holds : post story) : Tells thread this (giveWay build) (fun _ => post) story := by
  cases build <;> exact ⟨comes, holds⟩

theorem printLine_tells {line : Line} {before after : Course → Prop} (comes : Comes build this before story)
    (prints : ∀ now, before now → ∃ next, now.prints = some (line, next) ∧ after next) :
    Tells thread this (printLine build line) (fun _ => Comes build this after) story := by
  have later : Comes build this after (story ++ [.said line]) := by
    obtain ⟨now, telling, astray | here⟩ := comes
    · exact ⟨now, telling.more (.strays astray), .inl astray⟩
    · obtain ⟨next, prints, there⟩ := prints now here
      exact ⟨next, telling.more (.prints prints), .inr there⟩
  refine Passage.bind ((passes_say comes.any ⟨later.any, later⟩).mono fun _ story now holds => ?_)
  exact giveWay_tells now holds

theorem invoke_tells {entry : Entry} {before : Course → Prop} (comes : Comes build this before story)
    (asks : ∀ now, before now → now.asks this = some entry) :
    Tells thread this (invoke entry : TryMain build Value).run
      (Leaving this fun value next => ∃ now, before now ∧ next = now.given value) story := by
  refine passes_invoke comes.any fun reply => ?_
  obtain ⟨now, telling, astray | here⟩ := comes
  · have later (at_ : Course → Prop) : Comes build this at_ (story ++ [.called entry reply]) :=
      ⟨now, telling.more (.strays astray), .inl astray⟩
    cases reply <;> exact ⟨later _, later _⟩
  · cases reply with
    | ok value =>
      have telling : Telling build this (story ++ [.called entry (.ok value)]) (now.given value) :=
        telling.more (.returns (asks now here))
      exact ⟨⟨_, telling, .inr trivial⟩, _, telling, .inr ⟨now, here, rfl⟩⟩
    | error thrown =>
      have telling : Telling build this (story ++ [.called entry (.error thrown)])
          { now with phase := .failed thrown now.phase.file } := telling.more (.throws (asks now here))
      exact ⟨⟨_, telling, .inr trivial⟩, _, telling, .inr ⟨_, rfl⟩⟩

/-- A part of the try block, and what comes after it. -/
theorem try_tells {α β : Type} {first : TryMain build α} {rest : α → TryMain build β} {after : α → Course → Prop}
    {post : Except Thrown β → Story build → Prop} (tells : Tells thread this first.run (Leaving this after) story)
    (then_ : ∀ value story, Comes build this (after value) story → Tells thread this (rest value).run post story)
    (fails : ∀ thrown story, Comes build this (fun course => ∃ file, course.phase = .failed thrown file) story →
      post (.error thrown) story) : Tells thread this (first >>= rest).run post story := by
  refine passes_bind (tells.mono ?_)
  rintro (thrown | value) story _ comes
  · exact fails thrown story comes
  · exact then_ value story comes

/-- What the main thread does besides its calls. -/
theorem lift_tells {α : Type} {code : Main build Unit} {rest : Unit → TryMain build α}
    {post : Except Thrown α → Story build → Prop} {holds : Story build → Prop}
    (tells : Tells thread this code (fun _ => holds) story)
    (then_ : ∀ story, holds story → Tells thread this (rest ()).run post story) :
    Tells thread this (ExceptT.lift code >>= rest).run post story :=
  passes_bind (passes_lift (tells.mono fun _ story _ comes => then_ story comes))

theorem yields_tells {α : Type} {rest : Unit → TryMain build α} {post : Except Thrown α → Story build → Prop}
    {at_ : Course → Prop} (comes : Comes build this at_ story) (then_ : Tells thread this (rest ()).run post story) :
    Tells thread this (ExceptT.lift (giveWay build) >>= rest).run post story :=
  lift_tells (giveWay_tells comes.any (rfl : story = story)) fun _ same => same ▸ then_

theorem astray_tells {α : Type} {post : Except Thrown α → Story build → Prop} {at_ : Course → Prop}
    (comes : Comes build this at_ story) : Tells thread this (ExceptT.mk .throw : TryMain build α).run post story :=
  ⟨comes.any, trivial⟩

theorem mainOpendir_tells (comes : Comes build this (fun now => now.phase = .connected) story) :
    Tells thread this (mainOpendir build this [46]).run
      (Leaving this fun dir now => now.phase = .between ∧ now.dir = dir) story := by
  refine try_tells (invoke_tells comes fun now here => by rw [Course.asks, here]) (fun value story comes => ?_)
    fun _ _ comes => comes
  cases value with
  | handle dir =>
    refine ⟨comes.any, comes.mono fun next gone => ?_⟩
    obtain ⟨now, here, rfl⟩ := gone
    simp [Course.given, here]
  | _ => exact astray_tells comes

/-- After `next` there is a file to be printed, or the loop is over. -/
def Course.Has (dir : Ptr) (file : Option File) (course : Course) : Prop :=
  course.dir = dir ∧ course.phase = match file with
    | some file => .found file
    | none => .exhausted

theorem mainNext_tells (comes : Comes build this (fun now => now.phase = .between ∧ now.dir = dir) story) :
    Tells thread this (mainNext build this dir).run (Leaving this (Course.Has dir)) story := by
  refine try_tells (invoke_tells comes fun now here => by rw [Course.asks, here.1, here.2])
    (fun value story comes => ?_) fun _ _ comes => comes
  cases value with
  | file file =>
    refine ⟨comes.any, comes.mono fun next gone => ?_⟩
    obtain ⟨now, here, rfl⟩ := gone
    cases file <;> simp [Course.given, Course.Has, here]
  | _ => exact astray_tells comes

theorem printFiles_tells {file : Option File} (comes : Comes build this (Course.Has dir file) story) :
    Tells thread this (printFiles build this dir file).run
      (Leaving this fun _ now => now.phase = .exhausted ∧ now.dir = dir) story := by
  refine passes_repeats (fun file => Comes build this (Course.Has dir file)) comes fun file story comes => ?_
  cases file with
  | none => exact ⟨comes.any, comes.mono fun now here => ⟨here.2, here.1⟩⟩
  | some file =>
    refine try_tells (invoke_tells comes fun now here => by rw [Course.asks, here.2]) (fun value story comes => ?_)
      fun _ _ comes => comes
    have filled : Comes build this (fun now => ∃ attributes, value.attributes? = some attributes ∧ now.dir = dir ∧
        now.phase = .described file attributes) story := by
      cases value with
      | attributes attributes =>
        refine comes.mono fun next gone => ?_
        obtain ⟨now, here, rfl⟩ := gone
        exact ⟨attributes, rfl, by simp [Course.given, here.1, here.2]⟩
      | _ =>
        refine comes.astray fun next gone => ?_
        obtain ⟨now, here, rfl⟩ := gone
        simp [Course.given, here.2]
    have printed : Tells thread this (printLine build (fileLine (cString file.buffer) value.attributes?))
        (fun _ => Comes build this fun now => now.phase = .between ∧ now.dir = dir) story :=
      printLine_tells filled fun now ⟨attributes, same, dir, here⟩ =>
        ⟨{ now with phase := .between, done := now.done ++ [(file, attributes)] }, by rw [Course.prints, here, same],
          rfl, dir⟩
    refine yields_tells filled (lift_tells printed fun story comes => ?_)
    refine yields_tells comes (try_tells (mainNext_tells comes) (fun file story comes => ?_) fun _ _ comes => comes)
    exact ⟨comes.any, comes⟩

theorem tryMain_tells (comes : Comes build this (fun now => now.phase = .started) story) :
    Tells thread this (tryMain build this).run (Leaving this fun _ now => now.phase = .closed) story := by
  refine try_tells (invoke_tells comes fun now here => by rw [Course.asks, here]) (fun _ story comes => ?_)
    fun _ _ comes => comes
  have comes : Comes build this (fun now => now.phase = .constructed) story := comes.mono fun next gone => by
    obtain ⟨now, here, rfl⟩ := gone
    simp [Course.given, here]
  refine yields_tells comes (yields_tells comes ?_)
  refine try_tells (invoke_tells comes fun now here => by rw [Course.asks, here]) (fun _ story comes => ?_)
    fun _ _ comes => comes
  have comes : Comes build this (fun now => now.phase = .connected) story := comes.mono fun next gone => by
    obtain ⟨now, here, rfl⟩ := gone
    simp [Course.given, here]
  refine yields_tells comes (try_tells (mainOpendir_tells comes) (fun dir story comes => ?_) fun _ _ comes => comes)
  refine yields_tells comes (try_tells (mainNext_tells comes) (fun file story comes => ?_) fun _ _ comes => comes)
  refine yields_tells comes (try_tells (printFiles_tells comes) (fun _ story comes => ?_) fun _ _ comes => comes)
  refine try_tells (invoke_tells comes fun now here => by rw [Course.asks, here.1, here.2]) (fun _ story comes => ?_)
    fun _ _ comes => comes
  have comes : Comes build this (fun now => now.phase = .closed) story := comes.mono fun next gone => by
    obtain ⟨now, here, rfl⟩ := gone
    simp [Course.given, here]
  exact passes_lift (giveWay_tells comes.any comes)

/-- At its end main_func has closed the directory or reported what was thrown. -/
def Course.Ended (course : Course) : Prop :=
  course.phase = .closed ∨ ∃ thrown file, course.phase = .reported thrown file

theorem mainFunc_tells : Tells thread this (mainFunc build this) (fun _ => Comes build this Course.Ended) [] := by
  have fresh : Comes build this (fun now => now.phase = .fresh) [] := ⟨_, .fresh, .inr rfl⟩
  have printed : Tells thread this (printLine build startingLine)
      (fun _ => Comes build this fun now => now.phase = .started) [] :=
    printLine_tells fresh fun now here => ⟨{ now with phase := .started }, by rw [Course.prints, here], rfl⟩
  refine Passage.bind (printed.mono fun _ story now comes => ?_)
  refine Passage.bind ((giveWay_tells now comes).mono fun _ story now comes => ?_)
  refine Passage.bind ((tryMain_tells comes).mono ?_)
  rintro (thrown | _) story now comes
  · refine printLine_tells comes fun now here => ?_
    obtain ⟨file, here⟩ := here
    exact ⟨_, by rw [Course.prints, here], .inr ⟨thrown, file, rfl⟩⟩
  · exact ⟨comes.any, comes.mono fun _ => .inl⟩

end PowerBoot.Transfer
