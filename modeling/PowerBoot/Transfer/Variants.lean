import PowerBoot.Transfer.Authentication

/-! The two builds of `connect`. With threads it returns as soon as the set-up is at its
end; without them it is the body of the read thread, which only an error ends. -/

namespace PowerBoot.Transfer
open Coop

/-- A call of `connect` returns to its caller with the state Open and with this session. -/
def Connects (build : Build) (this : Ptr) (options : ConnectionOptions) (client : Client) (count : Nat)
    (pointer : Option Ptr) : Prop :=
  ∃ world thread, (connecting build this).Reaches (World.initial client count) world ∧
    .called thread (.connect this options) ∈ world.state.log ∧
    world.state.log.getLast? = some (.returned thread (.connected this)) ∧
    (world.state.sftp this).readThreadState = .open_ ∧ (world.state.sftp this).sftpPointer = pointer

variable {build : Build} {this : Ptr} {options : ConnectionOptions} {client : Client} {count : Nat}
  {pointer : Option Ptr}

/-- Only the build with threads gets back to the caller. -/
theorem Connects.threads (starts : client.Starts count)
    (unconnected : (client.sftp this).readThreadState = .uninitialized)
    (connects : Connects build this options client count pointer) : build = .retro := by
  obtain ⟨world, thread, reached, _, last, _⟩ := connects
  have set : Setting false this (client.sftp this).userauthlist build world.state :=
    setting_everywhere starts unconnected reached
  have connected : Connected this world.state := ⟨thread, List.mem_of_getLast? last⟩
  exact (set.opened connected).1

/-- Where `connect` returns to its caller with threads, it does not return without them. -/
theorem variants_differ (starts : client.Starts count)
    (unconnected : (client.sftp this).readThreadState = .uninitialized)
    (_ : Connects .retro this options client count pointer) (linux : Bool) :
    ¬ Connects (.direct linux) this options client count pointer := by
  intro direct
  cases direct.threads starts unconnected

private theorem connects_accepting : Connects .retro 0 account accepting 1 (some 7) := by
  refine ⟨connected, 0, connected_reached, ?_, rfl, rfl, rfl⟩
  exact List.mem_of_getElem? (show connected.state.log[0]? = some (.called 0 (.connect 0 account)) from rfl)

theorem variants_differ_accepting : ¬ Connects (.direct true) 0 account accepting 1 (some 7) :=
  variants_differ ⟨rfl, Nat.zero_lt_one⟩ rfl connects_accepting true

theorem variant_stuck : Connects .retro 0 account accepting 1 (some 7) ∧
    ¬ Connects (.direct false) 0 account accepting 1 (some 7) := by
  refine ⟨connects_accepting, fun direct => ?_⟩
  cases direct.threads ⟨rfl, Nat.zero_lt_one⟩ rfl

end PowerBoot.Transfer
