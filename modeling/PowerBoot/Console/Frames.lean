import PowerBoot.Console.EventLoop

/-! What the event loop shows. Each frame is drawn from the last lines of the history at that time,
and because drawing invalidates the window, the loop never waits for an event. -/

namespace PowerBoot.Console.EventLoop
open Coop Code

variable {machine : Machine} {rec : Rect} {thread : ThreadId} {desk start now after : Desk}

/-- No SizeWindow has left the window without an inside. -/
def Roomy (scenes : List Scene) : Prop := ∀ w h, .sized w h ∈ scenes → inside w h = true

/-- A poll finds that the window has to be updated, and nothing but the goodbye of the user ends the program. -/
def Staged (past : List Scene) (scene : Scene) : Prop :=
  .quit ∉ past ∧ match scene with
    | .polled _ invalid => Roomy past → invalid = true
    | .quit => ∃ before, past = before ++ [.tracked true]
    | .ended => False
    | .sized .. | .drawn .. | .tracked _ => True

/-- A frame is `ScreenDraw` of the last lines that had been written when it was drawn. -/
def Shows (machine : Machine) (rec : Rect) (log : List Event) : Scene → Prop
  | .drawn time marks => time ≤ log.length ∧ ∃ screen,
      screenDraw machine rec (lastLines (writesOf (log.take time))) = some screen ∧ screen.marks = marks
  | _ => True

/-- What every operation keeps. -/
structure Standing (machine : Machine) (rec : Rect) (desk : Desk) : Prop where
  remembers : Remembers desk.history
  staged : Throughout Staged desk.scenes
  shows : ∀ scene ∈ desk.scenes, Shows machine rec desk.history.log scene
  sized : ∀ w h, .sized w h ∈ desk.scenes → .sized desk.size.1 desk.size.2 ∈ desk.scenes
  fresh : desk.main = none → desk.scenes = []

/-- There is a window. -/
def Desk.Opened (desk : Desk) : Prop := ∃ w h, .sized w h ∈ desk.scenes

/-- The window has to be updated. -/
def Desk.Pending (desk : Desk) : Prop := desk.Opened → Roomy desk.scenes → desk.invalid = true

theorem Roomy.mono {scenes more : List Scene} (roomy : Roomy more) (grown : ∀ scene ∈ scenes, scene ∈ more) :
    Roomy scenes := fun w h member => roomy w h (grown _ member)

theorem Shows.grow {log more : List Event} {scene : Scene} (shows_ : Shows machine rec log scene)
    (grown : log <+: more) : Shows machine rec more scene := by
  cases scene with
  | drawn time marks =>
    obtain ⟨before, drawn⟩ := shows_
    obtain ⟨rest, rfl⟩ := grown
    refine ⟨Nat.le_trans before (by simp), ?_⟩
    rwa [List.take_append_of_le_length before]
  | _ => trivial

/-- Only the history goes on. -/
theorem Standing.goOn {history : History} (standing : Standing machine rec desk)
    (grown : desk.history.log <+: history.log)
    (remembers : Remembers history) : Standing machine rec { desk with history } where
  remembers := remembers
  staged := standing.staged
  shows scene member := (standing.shows scene member).grow grown
  sized := standing.sized
  fresh := standing.fresh

/-- A scene is added that is not a frame and does not change the size. -/
theorem Standing.stage {scene : Scene} (standing : Standing machine rec desk) (here : desk.main = some thread)
    (staged : Staged desk.scenes scene) (other : ∀ w h, scene ≠ .sized w h)
    (still : ∀ time marks, scene ≠ .drawn time marks) :
    Standing machine rec (desk.stage scene) where
  remembers := standing.remembers
  staged := throughout_concat.mpr ⟨standing.staged, staged⟩
  shows found member := by
    rcases List.mem_append.mp member with before | last
    · exact standing.shows found before
    · rw [List.mem_singleton.mp last]
      cases scene with
      | drawn time marks => exact (still time marks rfl).elim
      | _ => trivial
  sized w h member := by
    rcases List.mem_append.mp member with before | last
    · exact List.mem_append_left _ (standing.sized w h before)
    · exact (other w h (List.mem_singleton.mp last).symm).elim
  fresh nobody := by
    rw [Desk.stage, here] at nobody
    cases nobody

theorem Standing.resize {w h : BitVec 16} (standing : Standing machine rec desk) (here : desk.main = some thread)
    (going : .quit ∉ desk.scenes) : Standing machine rec (desk.resize w h) where
  remembers := standing.remembers
  staged := throughout_concat.mpr ⟨standing.staged, going, trivial⟩
  shows found member := by
    rcases List.mem_append.mp member with before | last
    · exact standing.shows found before
    · rw [List.mem_singleton.mp last]
      trivial
  sized _ _ _ := List.mem_append_right _ (List.mem_singleton_self _)
  fresh nobody := by
    rw [Desk.resize, Desk.stage, here] at nobody
    cases nobody

theorem Standing.draw (standing : Standing machine rec desk) (outside : desk.history.critical = 0)
    (here : desk.main = some thread) (going : .quit ∉ desk.scenes) (done : desk.draw machine rec thread = some after) :
    Standing machine rec after ∧ after.Pending := by
  obtain ⟨screen, drawn, rfl⟩ := Option.map_eq_some_iff.mp done
  rw [standing.remembers.lines outside] at drawn
  have pushes (strs : List Bytes) : writesOf (strs.map (.pushed thread)) = strs := by
    induction strs with
    | nil => rfl
    | cons str strs ih => exact congrArg (str :: ·) ih
  have answered (past : List Event) (event : Event)
      (member : event ∈ (printed machine screen.marks).map (.pushed thread)) : Answered past event := by
    obtain ⟨str, _, rfl⟩ := List.mem_map.mp member
    exact answered_pushed
  refine ⟨⟨⟨fun _ => ?_, standing.remembers.answers.append answered⟩, ?_, ?_, ?_, ?_⟩, ?_⟩
  · rw [screenDraw_last drawn]
    exact congrArg lastLines ((List.filterMap_append).trans (congrArg _ (pushes _))).symm
  · exact throughout_concat.mpr ⟨standing.staged, going, trivial⟩
  · intro scene member
    rcases List.mem_append.mp member with before | last
    · exact (standing.shows scene before).grow (List.prefix_append ..)
    · rw [List.mem_singleton.mp last]
      refine ⟨by simp, screen, ?_, rfl⟩
      dsimp only
      rwa [List.take_left]
  · intro w h member
    rcases List.mem_append.mp member with before | last
    · exact List.mem_append_left _ (standing.sized w h before)
    · cases List.mem_singleton.mp last
  · intro nobody
    rw [here] at nobody
    cases nobody
  · rintro ⟨w, h, opened⟩ roomy
    rcases List.mem_append.mp opened with before | last
    · have here := roomy _ _ (List.mem_append_left _ (standing.sized w h before))
      exact Bool.or_eq_true_iff.mpr (.inr here)
    · cases List.mem_singleton.mp last

section rules

/-- Between two sections no critical section is open, and the window has to be updated. -/
def showing (machine : Machine) (rec : Rect) : Rules (kernel machine rec) where
  choices := .all _
  knows desk name := remembering.knows desk.history name
  alive _ _ := True
  invariant desk := Standing machine rec desk ∧ desk.history.critical = 0 ∧ desk.Pending
  rely thread before after := own thread after.history.log = own thread before.history.log ∧
    (before.main = some thread → after.main = some thread ∧ after.scenes = before.scenes)
  step _ _ after := Standing machine rec after
  idle _ _ := True
  requires
    | .inl entry, thread, desk => remembering.requires entry thread desk.history
    | .inr .macMain, thread, desk => desk.main = some thread ∧ desk.scenes = []

theorem exec_grows {o : Console.Op} {history later : History} {reply : o.Reply}
    (executed : Console.exec thread o () history = some (reply, later)) : history.log <+: later.log := by
  cases o with
  | pushBack =>
    cases executed
    exact List.prefix_append ..
  | eraseFirst =>
    exact eraseFirst_drops executed ▸ List.prefix_refl _
  | _ =>
    cases executed
    exact List.prefix_refl _

/-- A write is made beside the window. -/
structure Beside (machine : Machine) (rec : Rect) (start now : Desk) : Prop where
  same : now = { start with history := now.history }
  grown : start.history.log <+: now.history.log
  kept : (showing machine rec).invariant start

theorem Beside.ends (beside : Beside machine rec start now)
    (ends : remembering.Ends thread start.history now.history) : (showing machine rec).Ends thread start now where
  invariant := by
    rw [beside.same]
    exact ⟨beside.kept.1.goOn beside.grown ends.invariant.2, ends.invariant.1, beside.kept.2.2⟩
  others other different := by
    rw [beside.same]
    exact ⟨ends.others other different, fun here => ⟨here, rfl⟩⟩

theorem history_carried :
    Carries remembering (showing machine rec) Desk.history thread (Beside machine rec) where
  exec {start now after o input reply} beside _ executed := by
    obtain ⟨⟨_, history⟩, did, same⟩ := Option.map_eq_some_iff.mp executed
    cases same
    have grown := beside.grown.trans (exec_grows did)
    refine ⟨⟨?_, grown, beside.kept⟩, (), trivial, did, fun remembers => ?_⟩
    · rw [beside.same]
    · rw [beside.same]
      exact beside.kept.1.goOn grown remembers
  ends := Beside.ends
  waits _ kept moved _ := ⟨⟨rfl, List.prefix_refl _, kept⟩, ⟨kept.2.1, kept.1.remembers⟩, moved.1, trivial⟩

theorem consolewriteCode_within {buf : Bytes} : (consolewriteCode buf).Within { ops := fun _ => True } := by
  have within (o : Console.Op) : (perform o).Within { ops := fun _ => True } := ⟨trivial, fun _ _ => trivial⟩
  refine .op trivial fun _ _ => .op trivial fun _ _ => .op trivial fun size _ => ?_
  exact .bind (Code.Within.composes.when fun _ => within .eraseFirst) fun _ => .op trivial fun _ _ => trivial

/-- A write in the larger machine, from its call to its return. -/
theorem write_holds {buf : Bytes} (kept : (showing machine rec).invariant desk)
    (ready : remembering.requires (.consolewrite buf) thread desk.history) :
    (showing machine rec).Holds thread (body (.inl (.consolewrite buf))) ((showing machine rec).Returns thread)
      desk desk := by
  refine Rules.Holds.bind ?_
  have wrote := consolewrite_holds kept.2.1 kept.1.remembers ready
  refine (history_carried.holds consolewriteCode_within wrote ⟨rfl, List.prefix_refl _, kept⟩).mono ?_
  rintro size start now ⟨⟨ends, _⟩, beside⟩
  refine ⟨Beside.ends ⟨?_, beside.grown.trans (List.prefix_append ..), beside.kept⟩ ends, trivial⟩
  change Desk.mk .. = _
  rw [beside.same]
  rfl

/-- The application thread acts: it may be drawing, and nobody else has done anything. -/
structure Acts (machine : Machine) (rec : Rect) (thread : ThreadId) (start now : Desk) : Prop where
  standing : Standing machine rec now
  outside : now.history.critical = 0
  others : ∀ other, other ≠ thread → own other now.history.log = own other start.history.log
  began : start.main = some thread
  here : now.main = some thread
  going : .quit ∉ now.scenes

/-- The application thread can wait for events or give way. -/
structure Ready (machine : Machine) (rec : Rect) (thread : ThreadId) (start now : Desk) : Prop
    extends Acts machine rec thread start now where
  opened : now.Opened
  pending : now.Pending

theorem Opened.grow (opened : now.Opened) (grown : now.scenes <+: after.scenes) : after.Opened := by
  obtain ⟨w, h, member⟩ := opened
  exact ⟨w, h, grown.subset member⟩

theorem Pending.stage {scene : Scene} (pending : desk.Pending) (other : ∀ w h, scene ≠ .sized w h) :
    (desk.stage scene).Pending := by
  rintro ⟨w, h, member⟩ roomy
  refine pending ⟨w, h, ?_⟩ (roomy.mono fun _ => List.mem_append_left _)
  rcases List.mem_append.mp member with before | last
  · exact before
  · exact (other w h (List.mem_singleton.mp last).symm).elim

theorem Acts.alone (acts : Acts machine rec thread start now) (same : after.history = now.history)
    {other : ThreadId} (different : other ≠ thread) : (showing machine rec).rely other start after := by
  refine ⟨same ▸ acts.others other different, fun foreign => ?_⟩
  rw [acts.began] at foreign
  exact (different (Option.some.inj foreign).symm).elim

theorem Ready.ends (ready : Ready machine rec thread start now) : (showing machine rec).Ends thread start now where
  invariant := ⟨ready.standing, ready.outside, ready.pending⟩
  others _ := ready.alone rfl

theorem going_stage {scene : Scene} (going : .quit ∉ desk.scenes) (other : scene ≠ .quit) :
    .quit ∉ (desk.stage scene).scenes := by
  intro member
  rcases List.mem_append.mp member with before | last
  · exact going before
  · exact other (List.mem_singleton.mp last).symm

theorem Ready.stage {scene : Scene} (ready : Ready machine rec thread start now) (staged : Staged now.scenes scene)
    (other : ∀ w h, scene ≠ .sized w h) (still : ∀ time marks, scene ≠ .drawn time marks) (goes : scene ≠ .quit) :
    Ready machine rec thread start (now.stage scene) where
  standing := ready.standing.stage ready.here staged other still
  outside := ready.outside
  others := ready.others
  began := ready.began
  here := ready.here
  going := going_stage ready.going goes
  opened := Opened.grow ready.opened (List.prefix_append ..)
  pending := Pending.stage ready.pending other

theorem Acts.resize {w h : BitVec 16} (acts : Acts machine rec thread start now) :
    Acts machine rec thread start (now.resize w h) where
  standing := acts.standing.resize acts.here acts.going
  outside := acts.outside
  others := acts.others
  began := acts.began
  here := acts.here
  going := going_stage acts.going nofun

theorem resize_opened {w h : BitVec 16} : (desk.resize w h).Opened :=
  ⟨w, h, List.mem_append_right _ (List.mem_singleton_self _)⟩

theorem Ready.resize {w h : BitVec 16} (ready : Ready machine rec thread start now) :
    Ready machine rec thread start (now.resize w h) where
  toActs := ready.toActs.resize
  opened := resize_opened
  pending _ roomy := ready.pending ready.opened (roomy.mono fun _ => List.mem_append_left _)

theorem Acts.validate {invalid : Bool} (acts : Acts machine rec thread start now) :
    Acts machine rec thread start { now with invalid } where
  standing := ⟨acts.standing.remembers, acts.standing.staged, acts.standing.shows, acts.standing.sized,
    acts.standing.fresh⟩
  outside := acts.outside
  others := acts.others
  began := acts.began
  here := acts.here
  going := acts.going

theorem Acts.draw (acts : Acts machine rec thread start now) (opened : now.Opened)
    (done : now.draw machine rec thread = some after) : Ready machine rec thread start after := by
  obtain ⟨standing, pending⟩ := acts.standing.draw acts.outside acts.here acts.going done
  obtain ⟨screen, _, rfl⟩ := Option.map_eq_some_iff.mp done
  have grown : now.scenes <+: now.scenes ++ [.drawn now.history.log.length screen.marks] := List.prefix_append ..
  refine ⟨⟨standing, acts.outside, fun other different => ?_, acts.began, acts.here, ?going⟩, Opened.grow opened grown,
    pending⟩
  case going => exact going_stage acts.going nofun
  have foreign : own other ((printed machine screen.marks).map (.pushed thread)) = [] := by
    refine List.filter_eq_nil_iff.mpr fun event member => ?_
    obtain ⟨str, _, rfl⟩ := List.mem_map.mp member
    simp [Event.thread, different.symm]
  refine ((List.filter_append ..).trans ?_).trans (acts.others other different)
  rw [← own, ← own, foreign, List.append_nil]

section code
variable {α : Type} {post : α → Desk → Desk → Prop}

theorem toolbox_holds {o : Toolbox} {rest : o.Reply → Code signature α}
    (done : ∀ input reply after, o.exec machine rec thread input now = some (reply, after) →
      Standing machine rec after ∧ (showing machine rec).Holds thread (rest reply) post start after) :
    (showing machine rec).Holds thread ((toolbox o).bind rest) post start now :=
  fun input reply after _ executed => done input reply after executed

theorem update_holds {rest : Unit → Code signature α} (acts : Acts machine rec thread start now) (opened : now.Opened)
    (next : ∀ after, Ready machine rec thread start after →
      (showing machine rec).Holds thread (rest ()) post start after) :
    (showing machine rec).Holds thread (update.bind rest) post start now := by
  refine toolbox_holds (o := .beginUpdate) fun _ _ _ begun => ?_
  cases begun
  have valid : Acts machine rec thread start { now with invalid := false } := acts.validate
  refine ⟨valid.standing, toolbox_holds (o := .screenDraw) fun _ _ after drawn => ?_⟩
  obtain ⟨_, done, same⟩ := Option.map_eq_some_iff.mp drawn
  cases same
  have ready := valid.draw opened done
  refine ⟨ready.standing, toolbox_holds (o := .endUpdate) fun _ _ _ ended => ?_⟩
  cases ended
  exact ⟨ready.standing, next after ready⟩

theorem nextEvent_holds {rest : What → Code signature α} (ready : Ready machine rec thread start now)
    (next : ∀ start after what, Ready machine rec thread start after →
      (showing machine rec).Holds thread (rest what) post start after) :
    (showing machine rec).Holds thread (nextEvent.bind rest) post start now := by
  refine ⟨fun _ => Ready machine rec thread, ready, fun _ start now ready => ?_⟩
  refine toolbox_holds (o := .getNextEvent) fun input what after polled => ?_
  cases input with
  | event =>
    cases polled
    have polled : Ready machine rec thread start (now.stage (.polled what now.invalid)) :=
      ready.stage ⟨ready.going, ready.pending ready.opened⟩ nofun nofun nofun
    refine ⟨polled.standing, ?_⟩
    cases what with
    | some what => exact next start _ what polled
    | none =>
      refine toolbox_holds (o := .systemTask) fun _ _ _ done => ?_
      cases done
      exact ⟨polled.standing, update_holds polled.toActs polled.opened fun after ready => ready⟩
  | _ => cases polled

theorem handle_holds {rest : Unit → Code signature α} {what : What} (ready : Ready machine rec thread start now)
    (next : ∀ after, Ready machine rec thread start after →
      (showing machine rec).Holds thread (rest ()) post start after) :
    (showing machine rec).Holds thread ((handle what).bind rest) post start now := by
  cases what with
  | updateEvt => exact update_holds ready.toActs ready.opened next
  | activateEvt =>
    refine toolbox_holds (o := .getWRefCon) fun _ _ _ done => ?_
    cases done
    exact ⟨ready.standing, next now ready⟩
  | osEvt | other => exact next now ready
  | mouseDown =>
    refine toolbox_holds (o := .findWindow) fun input part _ found => ?_
    cases input with
    | part =>
      cases found
      refine ⟨ready.standing, ?_⟩
      cases part with
      | inDrag =>
        refine toolbox_holds (o := .dragWindow) fun _ _ _ done => ?_
        cases done
        exact ⟨ready.standing, next now ready⟩
      | inGrow =>
        refine toolbox_holds (o := .growWindow) fun input growResult _ grown => ?_
        cases input with
        | grown =>
          cases grown
          refine ⟨ready.standing, toolbox_holds
            (o := .sizeWindow (growResult.setWidth 16) ((growResult >>> 16).setWidth 16)) fun _ _ _ sized => ?_⟩
          cases sized
          split
          · exact ⟨ready.standing, next now ready⟩
          · exact ⟨ready.resize.standing, next _ ready.resize⟩
        | _ => cases grown
      | inGoAway =>
        refine toolbox_holds (o := .trackGoAway) fun input goAway _ tracked => ?_
        cases input with
        | tracked =>
          cases tracked
          have tracked : Ready machine rec thread start (now.stage (.tracked goAway)) :=
            ready.stage ⟨ready.going, trivial⟩ nofun nofun nofun
          refine ⟨tracked.standing, ?_⟩
          cases goAway with
          | false => exact next _ tracked
          | true =>
            have quits : Staged (now.stage (.tracked true)).scenes .quit := ⟨tracked.going, now.scenes, rfl⟩
            have still : ((now.stage (.tracked true)).stage .quit).history = (now.stage (.tracked true)).history := rfl
            exact ⟨⟨tracked.standing.stage tracked.here quits nofun nofun, tracked.outside,
              Pending.stage tracked.pending nofun⟩, fun _ => tracked.alone still⟩
        | _ => cases tracked
      | other => exact next now ready
    | _ => cases found

/-- The application thread from its start on. It never comes to an end by itself. -/
theorem macMain_holds (kept : (showing machine rec).invariant desk) (here : desk.main = some thread)
    (new : desk.scenes = []) : (showing machine rec).Holds thread macMain (fun _ _ _ => False) desk desk := by
  have acts : Acts machine rec thread desk desk :=
    ⟨kept.1, kept.2.1, fun _ _ => rfl, here, here, by rw [new]; exact List.not_mem_nil⟩
  refine toolbox_holds (o := .consoleSetup) fun input _ _ done => ?_
  cases input with
  | size w h =>
    cases done
    have made : Acts machine rec thread desk { desk.resize w h with invalid := true } := acts.resize.validate
    refine ⟨made.standing, update_holds made resize_opened fun drawn ready => ?_⟩
    refine ⟨fun _ => Ready machine rec thread, ready, fun _ start now ready => ?_⟩
    refine toolbox_holds (o := .systemTask) fun _ _ _ done => ?_
    cases done
    refine ⟨ready.standing, nextEvent_holds ready fun start now what ready => ?_⟩
    refine handle_holds ready fun after ready => ⟨ready.ends, fun later kept moved _ => ?_⟩
    obtain ⟨here, still⟩ := moved.2 ready.here
    refine ⟨⟨kept.1, kept.2.1, fun _ _ => rfl, here, here, still ▸ ready.going⟩, ?_, kept.2.2⟩
    exact Opened.grow ready.opened (still ▸ List.prefix_refl _)
  | _ => cases done

end code

theorem toolbox_log {o : Toolbox} {input : Input} {reply : o.Reply}
    (executed : o.exec machine rec thread input now = some (reply, after)) :
    ∀ event ∈ after.history.log, event ∈ now.history.log ∨ event.thread = thread := by
  intro event member
  cases o with
  | screenDraw =>
    obtain ⟨_, done, same⟩ := Option.map_eq_some_iff.mp executed
    cases same
    obtain ⟨screen, _, rfl⟩ := Option.map_eq_some_iff.mp done
    refine (List.mem_append.mp member).imp_right fun pushed => ?_
    obtain ⟨str, _, rfl⟩ := List.mem_map.mp pushed
    rfl
  | sizeWindow w h =>
    cases executed
    split at member <;> exact .inl member
  | consoleSetup | getNextEvent | findWindow | growWindow | trackGoAway =>
    cases input <;> cases executed
    exact .inl member
  | _ =>
    cases executed
    exact .inl member

theorem showing_named : (showing machine rec).Named where
  exec thread o input before reply after executed := by
    refine ⟨?_, fun _ _ _ => trivial⟩
    cases o with
    | inl o =>
      obtain ⟨⟨_, history⟩, did, same⟩ := Option.map_eq_some_iff.mp executed
      cases same
      exact (remembering_named.exec thread o () _ _ _ did).known
    | inr o =>
      rintro name ⟨event, member, rfl⟩
      exact (toolbox_log executed event member).imp_left fun old => ⟨event, old, rfl⟩
  called thread entry before after called := by
    refine ⟨⟨?_, fun _ _ _ => trivial⟩, trivial⟩
    rcases entry with ⟨buf⟩ | _
    · cases called
      exact (remembering_record rfl).known
    · obtain ⟨_, called⟩ := Option.ite_none_left_eq_some.mp called
      cases called
      exact fun _ knows => .inl knows
  spawned _ _ _ _ := ⟨⟨fun _ knows => .inl knows, fun _ _ _ => trivial⟩, trivial⟩
  disposed _ _ _ := ⟨fun _ knows => .inl knows, fun _ _ _ => trivial⟩
  exited _ _ _ knows := .inl knows
  returned thread value desk := by
    refine ⟨?_, fun _ _ _ => trivial⟩
    cases value with
    | wrote size => exact (remembering_record rfl).known
    | done => exact fun _ knows => .inl knows
  threw _ _ := ⟨fun _ knows => .inl knows, fun _ _ _ => trivial⟩
  environment input before after moved := by
    refine ⟨?_, fun _ _ _ => trivial⟩
    cases input <;> cases moved
    exact fun _ knows => .inl knows

theorem showing_sound : (showing machine rec).Sound where
  refl _ _ := ⟨rfl, fun here => ⟨here, rfl⟩⟩
  trans first second := by
    refine ⟨second.1.trans first.1, fun here => ?_⟩
    obtain ⟨here, still⟩ := first.2 here
    obtain ⟨here, stiller⟩ := second.2 here
    exact ⟨here, stiller.trans still⟩
  named := showing_named
  fresh _ _ := trivial
  idles _ _ := trivial
  readies {entry thread before after} same ready := by
    rcases entry with ⟨buf⟩ | _
    · obtain ⟨front, ready⟩ := ready
      exact ⟨front, same.1.trans ready⟩
    · obtain ⟨here, new⟩ := ready
      exact ⟨(same.2 here).1, (same.2 here).2.trans new⟩
  called {thread entry before after} _ kept _ called := by
    rcases entry with entry | _
    · cases entry with
      | consolewrite buf =>
        have wrote : Console.kernel.called thread (.consolewrite buf) before.history =
            some (before.history.record (.called thread buf)) := rfl
        obtain ⟨ends, ready⟩ := remembering_sound.called trivial ⟨kept.2.1, kept.1.remembers⟩ trivial wrote
        cases called
        have beside : Beside machine rec before { before with history := before.history.record (.called thread buf) } :=
          ⟨rfl, List.prefix_append .., kept⟩
        exact ⟨beside.ends ends, ready⟩
    · obtain ⟨nobody, called⟩ := Option.ite_none_left_eq_some.mp called
      cases called
      have new := Option.not_isSome_iff_eq_none.mp nobody
      refine ⟨⟨⟨⟨kept.1.remembers, kept.1.staged, kept.1.shows, kept.1.sized, nofun⟩, kept.2⟩, fun other _ => ?_⟩,
        rfl, kept.1.fresh new⟩
      refine ⟨rfl, fun here => ?_⟩
      rw [new] at here
      cases here
  environment {input before after} _ kept moved := by
    cases input <;> cases moved
    exact ⟨⟨⟨kept.1.remembers, kept.1.staged, kept.1.shows, kept.1.sized, kept.1.fresh⟩, kept.2.1, fun _ _ => rfl⟩,
      fun _ => ⟨rfl, fun here => ⟨here, rfl⟩⟩⟩
  body {entry thread desk} kept ready _ := by
    rcases entry with ⟨buf⟩ | _
    · exact write_holds kept ready
    · exact (macMain_holds kept ready.1 ready.2).mono fun _ _ _ never => never.elim

end rules

section runs
variable {count : Nat} {world : World (kernel machine rec)}

theorem standing (reached : (Choices.all (kernel machine rec)).Reaches (World.initial ({} : Desk) count) world) :
    Standing machine rec world.state := by
  have start : (showing machine rec).invariant {} :=
    ⟨⟨⟨fun _ => rfl, .nil⟩, .nil, nofun, nofun, fun _ => rfl⟩, rfl, fun ⟨_, _, never⟩ => by cases never⟩
  have safe : (showing machine rec).Safe (World.initial ({} : Desk) count) :=
    .initial start (fun name => by rintro ⟨event, member, _⟩; cases member) fun _ => trivial
  exact showing_sound.everywhere safe rfl (fun _ kept => kept.1) (fun _ _ _ stepped => stepped) reached

/-- In any run of the event loop beside any threads, each frame is what `ScreenDraw` draws of the last lines
that had been written to the console by then, and of no others. -/
theorem frames_shown {time : Nat} {marks : List Mark}
    (reached : (Choices.all (kernel machine rec)).Reaches (World.initial ({} : Desk) count) world)
    (drawn : .drawn time marks ∈ world.state.scenes) :
    time ≤ world.state.history.log.length ∧ ∃ screen, screen.marks = marks ∧
      screenDraw machine rec (lastLines (writesOf (world.state.history.log.take time))) = some screen := by
  obtain ⟨before, screen, draws, same⟩ := (standing reached).shows _ drawn
  exact ⟨before, screen, same, draws⟩

theorem staged {scene : Scene}
    (reached : (Choices.all (kernel machine rec)).Reaches (World.initial ({} : Desk) count) world)
    {before after : List Scene} (at_ : world.state.scenes = before ++ scene :: after) : Staged before scene :=
  (standing reached).staged before scene after at_

/-- Drawing invalidates what it draws, so the window has to be updated at every poll. As GetNextEvent then
answers with an event, the loop around it, which gives way to no thread, never turns. -/
theorem loop_gives_way {what : Option What} {invalid : Bool}
    (reached : (Choices.all (kernel machine rec)).Reaches (World.initial ({} : Desk) count) world)
    (roomy : ∀ w h, .sized w h ∈ world.state.scenes → inside w h = true)
    (documented : .polled none true ∉ world.state.scenes) (polled : .polled what invalid ∈ world.state.scenes) :
    invalid = true ∧ what ≠ none := by
  obtain ⟨before, after, at_⟩ := List.append_of_mem polled
  have pending : invalid = true := (staged reached at_).2 fun w h member =>
    roomy w h (at_ ▸ List.mem_append_left _ member)
  refine ⟨pending, ?_⟩
  rintro rfl
  exact documented (pending ▸ polled)

/-- A thread writes between two frames of the loop. -/
def framed : World (kernel monospaced ⟨0, 0⟩) :=
  let go (n : Nat) : List (Action (kernel monospaced ⟨0, 0⟩)) := List.replicate n (.continue .none)
  (World.initial ({} : Desk) 2).after
    ([.call 0 (.inr .macMain), .resume 0, .continue (.size 8 8)] ++ go 6 ++ [.continue (.event (some .osEvt))] ++
      go 1 ++
    [.call 1 (.inl (.consolewrite [72])), .resume 1] ++ go 5 ++
    [.resume 0] ++ go 3 ++ [.continue (.event (some .updateEvt))] ++ go 4)

theorem framed_scenes : framed.state.scenes = [
    .sized 8 8, .drawn 0 [], .polled (some .osEvt) true, .polled (some .updateEvt) true,
    .drawn 2 [.glyph 72 9 9 .white .black]] := by
  decide +kernel

theorem frames_shown_framed : ∃ screen, screen.marks = [.glyph 72 9 9 .white .black] ∧
    screenDraw monospaced ⟨0, 0⟩ (lastLines (writesOf (framed.state.history.log.take 2))) = some screen :=
  (@frames_shown monospaced ⟨0, 0⟩ 2 framed 2 [.glyph 72 9 9 .white .black] .after (by rw [framed_scenes]; decide)).2

theorem loop_gives_way_framed : true = true ∧ some What.osEvt ≠ none :=
  @loop_gives_way monospaced ⟨0, 0⟩ 2 framed (some .osEvt) true .after
    (by
      intro w h member
      rw [framed_scenes] at member
      simp only [List.mem_cons, Scene.sized.injEq, reduceCtorEq, List.not_mem_nil, or_false] at member
      obtain ⟨rfl, rfl⟩ := member
      decide)
    (by rw [framed_scenes]; decide) (by rw [framed_scenes]; decide)

/-- `MacMain` neither returns nor throws. The program ends where the user has let the window go, and nothing is
polled or drawn after that. -/
theorem macMain_endless
    (reached : (Choices.all (kernel machine rec)).Reaches (World.initial ({} : Desk) count) world) :
    .ended ∉ world.state.scenes ∧ ∀ before after, world.state.scenes = before ++ .quit :: after →
      (∃ first, before = first ++ [.tracked true]) ∧ after = [] := by
  refine ⟨fun ended => ?_, fun before after at_ => ⟨(staged reached at_).2, ?_⟩⟩
  · obtain ⟨before, after, at_⟩ := List.append_of_mem ended
    exact (staged reached at_).2
  · cases after with
    | nil => rfl
    | cons scene after =>
      have later : world.state.scenes = (before ++ [.quit]) ++ scene :: after := by rw [at_, List.append_cons]
      exact ((staged reached later).1 (by simp)).elim

/-- The user closes the window. -/
def closed : World (kernel monospaced ⟨0, 0⟩) :=
  let go (n : Nat) : List (Action (kernel monospaced ⟨0, 0⟩)) := List.replicate n (.continue .none)
  (World.initial ({} : Desk) 1).after
    ([.call 0 (.inr .macMain), .resume 0, .continue (.size 8 8)] ++ go 6 ++
    [.continue (.event (some .mouseDown)), .continue (.part .inGoAway), .continue (.tracked true)] ++ go 1)

theorem macMain_endless_closed : .ended ∉ closed.state.scenes ∧
    closed.state.scenes = [.sized 8 8, .drawn 0 [], .polled (some .mouseDown) true, .tracked true, .quit] :=
  ⟨(@macMain_endless monospaced ⟨0, 0⟩ 1 closed .after).1, by decide +kernel⟩

end runs

end PowerBoot.Console.EventLoop
