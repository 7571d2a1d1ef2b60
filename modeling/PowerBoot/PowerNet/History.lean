import Mathlib.Data.List.Induction
import PowerBoot.PowerNet.State

/-! The log of a run as a history of calls. A thread makes one call after another,
so the call that an event belongs to is the latest one of its thread. -/

namespace PowerBoot.PowerNet
open Coop

/-- The entry point on which an event starts `thread`. -/
def Event.begins (thread : ThreadId) : Event → Option Entry
  | .called caller entry => if caller = thread then some entry else none
  | .spawned _ child entry => if child = thread then some entry else none
  | _ => none

def callOf (thread : ThreadId) (log : List Event) : Option Entry :=
  log.foldl (fun entry event => (event.begins thread).or entry) none

/-- What has happened since the latest call of `thread` began. -/
def during (thread : ThreadId) (log : List Event) : List Event :=
  log.foldl (fun events event => if (event.begins thread).isSome then [] else events ++ [event]) []

/-- What `thread` itself has done in its latest call. -/
def since (thread : ThreadId) (log : List Event) : List Event :=
  (during thread log).filter fun event => event.thread = some thread

/-- What the call of `thread` returns that is under way when `rest` begins. -/
def resultOf (thread : ThreadId) : List Event → Option Value
  | [] => none
  | event :: rest =>
    if (event.begins thread).isSome then none
    else match event with
      | .returned actor value => if actor = thread then some value else resultOf thread rest
      | _ => resultOf thread rest

variable {thread : ThreadId} {log rest : List Event} {event : Event}

@[simp] theorem callOf_concat : callOf thread (log ++ [event]) = (event.begins thread).or (callOf thread log) := by
  simp [callOf]

@[simp] theorem during_concat : during thread (log ++ [event]) =
    if (event.begins thread).isSome then [] else during thread log ++ [event] := by
  simp [during]

theorem callOf_append (same : ∀ event ∈ rest, event.begins thread = none) :
    callOf thread (log ++ rest) = callOf thread log := by
  induction rest generalizing log with
  | nil => simp
  | cons event rest ih =>
    rw [List.append_cons, ih fun other member => same other (List.mem_cons_of_mem _ member), callOf_concat,
      same event (List.mem_cons_self ..), Option.none_or]

theorem callOf_mem {entry : Entry} (call : callOf thread log = some entry) :
    ∃ event ∈ log, event.begins thread = some entry := by
  induction log using List.reverseRecOn with
  | nil => cases call
  | append_singleton log event ih =>
    rw [callOf_concat] at call
    cases begins : event.begins thread with
    | some first =>
      rw [begins] at call
      exact ⟨event, by simp, begins.trans call⟩
    | none =>
      rw [begins] at call
      obtain ⟨early, member, same⟩ := ih call
      exact ⟨early, List.mem_append_left _ member, same⟩

theorem during_append (same : ∀ event ∈ rest, event.begins thread = none) :
    during thread (log ++ rest) = during thread log ++ rest := by
  induction rest generalizing log with
  | nil => simp
  | cons event rest ih =>
    rw [List.append_cons, ih fun other member => same other (List.mem_cons_of_mem _ member), during_concat,
      same event (List.mem_cons_self ..)]
    simp

theorem during_sublist : List.Sublist (during thread log) log := by
  induction log using List.reverseRecOn with
  | nil => exact .refl _
  | append_singleton log event ih =>
    rw [during_concat]
    split
    · exact List.nil_sublist _
    · exact ih.append (.refl _)

theorem since_sublist : List.Sublist (since thread log) log := List.filter_sublist.trans during_sublist

theorem mem_since (member : event ∈ since thread log) : ∃ past rest, log = past ++ event :: rest ∧
    callOf thread past = callOf thread log ∧ event.thread = some thread ∧ event.begins thread = none := by
  induction log using List.reverseRecOn with
  | nil => cases member
  | append_singleton log last ih =>
    cases begins : last.begins thread with
    | some entry => simp [since, begins] at member
    | none =>
      simp only [since, during_concat, begins, Option.isSome_none, Bool.false_eq_true, if_false, List.filter_append,
        List.mem_append] at member
      rw [callOf_concat, begins, Option.none_or]
      rcases member with earlier | now
      · obtain ⟨past, rest, split, call, owner, silent⟩ := ih earlier
        exact ⟨past, rest ++ [last], by rw [split, List.append_assoc, List.cons_append], call, owner, silent⟩
      · obtain ⟨same, owner⟩ := List.mem_filter.mp now
        obtain rfl := List.mem_singleton.mp same
        exact ⟨log, [], rfl, rfl, by simpa using owner, begins⟩

theorem since_grows (same : ∀ event ∈ rest, event.begins thread = none) (member : event ∈ since thread log) :
    event ∈ since thread (log ++ rest) := by
  rw [since, during_append same, List.filter_append]
  exact List.mem_append_left _ member

theorem since_append (same : ∀ event ∈ rest, event.begins thread = none)
    (others : ∀ event ∈ rest, event.thread ≠ some thread) : since thread (log ++ rest) = since thread log := by
  have none : rest.filter (fun event => event.thread = some thread) = [] := by simpa using others
  rw [since, during_append same, List.filter_append, none, List.append_nil, since]

theorem since_concat (same : event.begins thread = none) :
    since thread (log ++ [event]) = since thread log ++ if event.thread = some thread then [event] else [] := by
  simp only [since, during_concat, same, Option.isSome_none, Bool.false_eq_true, if_false, List.filter_append,
    List.filter_singleton, Bool.cond_decide]

theorem mem_since_concat {new : Event} (same : event.begins thread = none)
    (member : new ∈ since thread (log ++ [event])) : new ∈ since thread log ∨ new = event := by
  rw [since_concat same] at member
  rcases List.mem_append.mp member with old | last
  · exact Or.inl old
  · split at last
    · exact Or.inr (List.mem_singleton.mp last)
    · cases last

theorem since_begins (same : (event.begins thread).isSome) : since thread (log ++ [event]) = [] := by
  simp [since, same]

/-- One more event changes the result of a call only by returning from it. -/
theorem resultOf_concat (thread : ThreadId) (rest : List Event) (event : Event) :
    resultOf thread (rest ++ [event]) = resultOf thread rest ∨
    ∃ value, event = .returned thread value ∧ resultOf thread (rest ++ [event]) = some value ∧
      resultOf thread rest = none ∧ ∀ between ∈ rest, between.begins thread = none := by
  induction rest with
  | nil =>
    cases event with
    | returned actor value =>
      by_cases same : actor = thread
      · subst same
        exact Or.inr ⟨value, rfl, by simp [resultOf, Event.begins], rfl, nofun⟩
      · exact Or.inl (by simp [resultOf, Event.begins, same])
    | _ => exact Or.inl (by simp [resultOf])
  | cons first rest ih =>
    simp only [List.cons_append, resultOf]
    by_cases again : (first.begins thread).isSome
    · exact Or.inl (by simp [again])
    · have silent : first.begins thread = none := by simpa using again
      simp only [again, Bool.false_eq_true, if_false]
      rcases ih with same | ⟨value, returned, result, open_, between⟩
      · exact Or.inl (by rw [same])
      · cases first with
        | returned actor early =>
          by_cases mine : actor = thread
          · exact Or.inl (by simp [mine])
          · exact Or.inr ⟨value, returned, by simpa [mine] using result, by simpa [mine] using open_,
              by simpa [silent] using between⟩
        | _ => exact Or.inr ⟨value, returned, result, open_, by simpa [silent] using between⟩

/-- Events that belong to the call under way: they neither begin nor end a call. -/
def Event.Inner (event : Event) : Prop :=
  (∀ thread, event.begins thread = none) ∧ ∀ thread value, event ≠ .returned thread value

theorem resultOf_inner {more : List Event} (inner : ∀ event ∈ more, event.Inner) :
    resultOf thread (rest ++ more) = resultOf thread rest := by
  induction more using List.reverseRecOn with
  | nil => rw [List.append_nil]
  | append_singleton more event ih =>
    rw [← List.append_assoc]
    rcases resultOf_concat thread (rest ++ more) event with same | ⟨value, returned, _⟩
    · exact same.trans (ih fun found member => inner found (List.mem_append_left _ member))
    · exact ((inner event (by simp)).2 thread value returned).elim

theorem resultOf_skip {more : List Event} (inner : ∀ event ∈ more, event.Inner) :
    resultOf thread (more ++ rest) = resultOf thread rest := by
  induction more with
  | nil => rfl
  | cons event more ih =>
    obtain ⟨silent, open_⟩ := inner event (List.mem_cons_self ..)
    rw [List.cons_append, ← ih fun found member => inner found (List.mem_cons_of_mem _ member)]
    cases event with
    | returned actor value => exact (open_ actor value rfl).elim
    | _ => simp [resultOf, silent]

theorem resultOf_returned {between : List Event} {value : Value}
    (silent : ∀ event ∈ between, event.begins thread = none) (open_ : ∀ result, .returned thread result ∉ between) :
    resultOf thread (between ++ .returned thread value :: rest) = some value := by
  induction between with
  | nil => simp [resultOf, Event.begins]
  | cons event between ih =>
    have later := ih (fun found member => silent found (List.mem_cons_of_mem _ member))
      fun result member => open_ result (List.mem_cons_of_mem _ member)
    have quiet := silent event (List.mem_cons_self ..)
    cases event with
    | returned actor result =>
      have other : actor ≠ thread := fun same => open_ result (same ▸ List.mem_cons_self ..)
      simpa [resultOf, quiet, other] using later
    | _ => simpa [resultOf, quiet] using later

/-- `good` holds of every event of a thread: of what came before it, of the event and
of what the call returned that it belongs to, if it has. -/
def Ledger (good : List Event → ThreadId → Event → Option Value → Prop) (log : List Event) : Prop :=
  ∀ past event rest thread, log = past ++ event :: rest → event.thread = some thread →
    event.begins thread = none → good past thread event (resultOf thread rest)

namespace Ledger
variable {good better : List Event → ThreadId → Event → Option Value → Prop}

theorem nil (good : List Event → ThreadId → Event → Option Value → Prop) : Ledger good [] := by
  intro past event rest thread split
  simp at split

theorem mono (ledger : Ledger good log)
    (implies : ∀ past thread event value, good past thread event value → better past thread event value) :
    Ledger better log :=
  fun past event rest thread split owner ordinary =>
    implies _ _ _ _ (ledger past event rest thread split owner ordinary)

theorem concat (ledger : Ledger good log) (fresh : ∀ thread, event.thread = some thread →
      event.begins thread = none → good log thread event none)
    (open_ : ∀ thread value, event ≠ .returned thread value) : Ledger good (log ++ [event]) := by
  intro past found rest thread split owner ordinary
  rcases List.eq_nil_or_concat rest with rfl | ⟨between, last, rfl⟩
  · obtain ⟨rfl, same⟩ := List.append_inj' split rfl
    cases same
    exact fresh thread owner ordinary
  · rw [List.concat_eq_append, ← List.cons_append, ← List.append_assoc] at split
    obtain ⟨rfl, same⟩ := List.append_inj' split rfl
    cases same
    rw [List.concat_eq_append]
    rcases resultOf_concat thread between event with same | ⟨value, returned, _⟩
    · exact same ▸ ledger past found between thread rfl owner ordinary
    · exact (open_ thread value returned).elim

/-- The call of `thread` does `more` and returns: the value has to suit `more` and
what the thread did in that call before. -/
theorem returns {more : List Event} {thread : ThreadId} {value : Value} (ledger : Ledger good log)
    (inner : ∀ event ∈ more, event.Inner ∧ event.thread = some thread)
    (fresh : ∀ past event rest, more = past ++ event :: rest → good (log ++ past) thread event (some value))
    (last : good (log ++ more) thread (.returned thread value) none)
    (closes : ∀ past own between, log = past ++ own :: between → own ∈ since thread log →
      callOf thread past = callOf thread log → good past thread own none → good past thread own (some value)) :
    Ledger good (log ++ more ++ [.returned thread value]) := by
  intro past found rest actor split owner ordinary
  rcases List.eq_nil_or_concat rest with rfl | ⟨between, final, rfl⟩
  · obtain ⟨rfl, same⟩ := List.append_inj' split rfl
    cases same
    cases owner
    exact last
  · rw [List.concat_eq_append, ← List.cons_append, ← List.append_assoc] at split
    obtain ⟨whole, final⟩ := List.append_inj' split rfl
    cases final
    clear split
    rw [List.concat_eq_append]
    have ofMore (early : List Event) (split : more = early ++ found :: between) :
        good (log ++ early) actor found (resultOf actor (between ++ [.returned thread value])) := by
      have member : found ∈ more := by simp [split]
      obtain rfl : thread = actor := Option.some.inj ((inner found member).2.symm.trans owner)
      rw [resultOf_skip fun event member => (inner event (by simp [split, member])).1]
      simpa [resultOf, Event.begins] using fresh early found between split
    rcases List.append_eq_append_iff.mp whole with ⟨early, rfl, split⟩ | ⟨late, same, split⟩
    · exact ofMore early split
    · cases late with
      | nil =>
        rw [List.append_nil] at same
        simpa [same] using ofMore [] (by simpa using split.symm)
      | cons own late =>
        simp only [List.cons_append, List.cons.injEq] at split
        obtain ⟨rfl, rfl⟩ := split
        have quiet : resultOf actor (late ++ more) = resultOf actor late :=
          resultOf_inner fun event member => (inner event member).1
        have before := ledger past found late actor same owner ordinary
        rcases resultOf_concat actor (late ++ more) (.returned thread value) with
          unchanged | ⟨_, returned, result, under, silent⟩
        · rw [unchanged, quiet]
          exact before
        · cases returned
          rw [quiet] at under
          rw [under] at before
          rw [result]
          have silent : ∀ event ∈ found :: late, event.begins thread = none := by
            intro event member
            rcases List.mem_cons.mp member with rfl | member
            · exact ordinary
            · exact silent event (List.mem_append_left _ member)
          refine closes past found late same ?_ ?_ before
          · simp [same, since, during_append silent, owner]
          · rw [same, callOf_append silent]

theorem returned {thread : ThreadId} {value : Value} (ledger : Ledger good log)
    (last : good log thread (.returned thread value) none)
    (closes : ∀ past own between, log = past ++ own :: between → own ∈ since thread log →
      callOf thread past = callOf thread log → good past thread own none → good past thread own (some value)) :
    Ledger good (log ++ [.returned thread value]) := by
  have none : ∀ event ∈ ([] : List Event), event.Inner ∧ event.thread = some thread := nofun
  have whole := ledger.returns none (by simp) (by simpa using last) closes
  rwa [List.append_nil] at whole

end Ledger
end PowerBoot.PowerNet
