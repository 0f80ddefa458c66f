import VotingSystem.Data.Queue
import VotingSystem.Embedded.Keypad

namespace VotingSystem.Embedded

open VotingSystem.Data

/-! `System`, its states and what they call on the device and on the election. -/

inductive SystemState
  | uninitialized
  | setup
  | run
  | shutdown
  deriving DecidableEq

/-- The two objects of the program that are listeners of a keypad. -/
inductive Listener
  | system
  | electionSystem
  deriving DecidableEq

structure Device where
  keypad : Keypad Listener
  running : Bool

namespace Device

def init (device : Device) : Device := { device with running := true }

def update (device : Device) : List (Notification Listener) × Device :=
  (device.keypad.poll.1, { device with keypad := device.keypad.poll.2 })

/-- It only prints a line. -/
def shutdown (device : Device) : Device := device

def registerKeypadListener (device : Device) (listener : Listener) : Device :=
  { device with keypad := device.keypad.registerListener listener }

end Device

structure System where
  device : Device
  state : SystemState
  running : Bool

/-- The calls of the states, with the notifications that a poll makes. -/
inductive Call
  | deviceInit
  | deviceUpdate (notifications : List (Notification Listener))
  | deviceShutdown
  | electionUpdate
  deriving DecidableEq

namespace System

/-- `System::notify` and `ElectionSystem::notify` are empty. -/
def notify (system : System) (_ : Notification Listener) : System := system

def stop (system : System) : System := { system with running := false }

def setState (system : System) (state : SystemState) : System := { system with state := state }

def updateDevice (system : System) : List Call × System :=
  ([.deviceUpdate system.device.update.1],
    system.device.update.1.foldl notify { system with device := system.device.update.2 })

/-- `SystemState::update`. The state of the election has an empty one. -/
def update (system : System) : List Call × System :=
  match system.state with
  | .uninitialized =>
      ([.deviceInit],
        { system with device := system.device.init.registerKeypadListener .system }.setState
          .setup)
  | .setup => system.updateDevice
  | .run => (system.updateDevice.1 ++ [.electionUpdate], system.updateDevice.2)
  | .shutdown =>
      ([.deviceShutdown],
        ({ system with device := system.device.shutdown }.setState .uninitialized).stop)

/-- `SystemState::handleKey`. -/
def handleKey (system : System) : System :=
  match system.state with
  | .uninitialized => system
  | .setup => system.setState .run
  | .run => system.setState .shutdown
  | .shutdown => system

def changeKey (system : System) (key : Nat) : System :=
  { system with device := { system.device with keypad := system.device.keypad.change key } }

end System

/-- `inStart` from a call of `start` to its return. -/
structure SystemWorld where
  system : System
  inStart : Bool
  calls : List Call

/-- The constructors leave the two flags as they are in memory. -/
def SystemWorld.construct (keys : List Key) (running deviceRunning : Bool) : SystemWorld where
  system := ⟨⟨Keypad.construct keys, deviceRunning⟩, .uninitialized, running⟩
  inStart := false
  calls := []

inductive SystemEvent
  | start
  | turn
  | returns
  | stop
  | handleKey
  | change (key : Nat)
  deriving DecidableEq

/-- Keys change, `stop` and `handleKey` are called between any two turns of the loop. -/
inductive SystemStep : SystemWorld → SystemEvent → SystemWorld → Prop
  | start (world : SystemWorld) (hidle : world.inStart = false) :
      SystemStep world .start
        { world with system := { world.system with running := true }, inStart := true }
  | turn (world : SystemWorld) (hstart : world.inStart = true)
      (hrunning : world.system.running = true) :
      SystemStep world .turn
        { world with
          system := world.system.update.2
          calls := world.calls ++ world.system.update.1 }
  | returns (world : SystemWorld) (hstart : world.inStart = true)
      (hrunning : world.system.running = false) :
      SystemStep world .returns { world with inStart := false }
  | stop (world : SystemWorld) :
      SystemStep world .stop { world with system := world.system.stop }
  | handleKey (world : SystemWorld) :
      SystemStep world .handleKey { world with system := world.system.handleKey }
  | change (world : SystemWorld) (key : Nat) :
      SystemStep world (.change key) { world with system := world.system.changeKey key }

/-! Nobody listens to the keypad, so that the device is polled to no effect. -/

namespace System

variable {system : System}

/-- No key can reach a state. -/
def Unheard (system : System) : Prop := system.device.keypad.listeners = []

theorem Unheard.poll (hunheard : system.Unheard) : system.device.update.1 = [] := by
  rw [Device.update, Keypad.poll, hunheard]
  rfl

theorem Unheard.updateDevice_eq (hunheard : system.Unheard) :
    system.updateDevice = ([.deviceUpdate []], system) := by
  rw [updateDevice, hunheard.poll]
  rfl

theorem Unheard.update_uninitialized (hunheard : system.Unheard)
    (hstate : system.state = .uninitialized) :
    system.update = ([.deviceInit], ⟨⟨system.device.keypad, true⟩, .setup, system.running⟩) := by
  have hregister : system.device.keypad.registerListener .system = system.device.keypad := by
    rw [Keypad.registerListener, hunheard, if_neg List.not_mem_nil]
  simp only [update, hstate, Device.init, Device.registerKeypadListener, hregister, setState]

theorem Unheard.update_setup (hunheard : system.Unheard) (hstate : system.state = .setup) :
    system.update = ([.deviceUpdate []], system) := by
  simp only [update, hstate, hunheard.updateDevice_eq]

theorem Unheard.update_run (hunheard : system.Unheard) (hstate : system.state = .run) :
    system.update = ([.deviceUpdate [], .electionUpdate], system) := by
  simp only [update, hstate, hunheard.updateDevice_eq, List.cons_append, List.nil_append]

theorem update_shutdown (hstate : system.state = .shutdown) :
    system.update = ([.deviceShutdown], ⟨system.device, .uninitialized, false⟩) := by
  simp only [update, hstate, Device.shutdown, setState, stop]

theorem Unheard.update (hunheard : system.Unheard) : system.update.2.Unheard := by
  cases hstate : system.state with
  | uninitialized =>
      rw [hunheard.update_uninitialized hstate]
      exact hunheard
  | setup =>
      rw [hunheard.update_setup hstate]
      exact hunheard
  | run =>
      rw [hunheard.update_run hstate]
      exact hunheard
  | shutdown =>
      rw [update_shutdown hstate]
      exact hunheard

theorem Unheard.handleKey (hunheard : system.Unheard) : system.handleKey.Unheard := by
  unfold System.handleKey
  cases system.state with
  | uninitialized => exact hunheard
  | setup => exact hunheard
  | run => exact hunheard
  | shutdown => exact hunheard

end System

/-! Every run, with any keys handled and the loop stopped at any time. -/

/-- Between its initialisation and its shutdown a device is updated, without a notification,
and the election is updated. -/
def powered : Bool → Call → Option Bool
  | false, .deviceInit => some true
  | true, .deviceUpdate [] => some true
  | true, .electionUpdate => some true
  | true, .deviceShutdown => some false
  | _, _ => none

/-- The keys that were handled on the way to a state from the last initialisation. -/
def SystemState.keysHandled : SystemState → Nat
  | .uninitialized => 0
  | .setup => 0
  | .run => 1
  | .shutdown => 2

structure Lifecycle (deviceRunning : Bool) (labels : List SystemEvent) (world : SystemWorld) :
    Prop where
  unheard : world.system.Unheard
  powered : world.calls.foldlM powered false = some (decide (world.system.state ≠ .uninitialized))
  device : world.system.device.running = (deviceRunning || decide (.deviceInit ∈ world.calls))
  shutdowns : 2 * world.calls.count .deviceShutdown + world.system.state.keysHandled ≤
    labels.count .handleKey
  elections : .electionUpdate ∈ world.calls → .handleKey ∈ labels

section Lifecycle

variable {deviceRunning : Bool} {labels : List SystemEvent} {world : SystemWorld}

theorem Lifecycle.turn (hlife : Lifecycle deviceRunning labels world) :
    Lifecycle deviceRunning (labels ++ [.turn])
      { world with
        system := world.system.update.2
        calls := world.calls ++ world.system.update.1 } := by
  have hunheard := hlife.unheard
  have hpowered := hlife.powered
  have hdevice := hlife.device
  have hshutdowns := hlife.shutdowns
  have helections := hlife.elections
  cases hstate : world.system.state with
  | uninitialized =>
      rw [hstate] at hpowered hshutdowns
      rw [hunheard.update_uninitialized hstate]
      refine ⟨hunheard, ?_, ?_, ?_, ?_⟩
      · simp [List.foldlM_append, hpowered, Embedded.powered]
      · simp
      · simpa [List.count_append, SystemState.keysHandled] using hshutdowns
      · simpa using helections
  | setup =>
      rw [hstate] at hpowered hshutdowns
      rw [hunheard.update_setup hstate]
      refine ⟨hunheard, ?_, ?_, ?_, ?_⟩
      · simp [List.foldlM_append, hpowered, hstate, Embedded.powered]
      · simpa using hdevice
      · simpa [List.count_append, hstate] using hshutdowns
      · simpa using helections
  | run =>
      rw [hstate] at hpowered hshutdowns
      rw [hunheard.update_run hstate]
      refine ⟨hunheard, ?_, ?_, ?_, ?_⟩
      · simp [List.foldlM_append, hpowered, hstate, Embedded.powered]
      · simpa using hdevice
      · simpa [List.count_append, hstate] using hshutdowns
      · intro _
        have hhandled : 0 < labels.count .handleKey :=
          Nat.lt_of_lt_of_le (by simp [SystemState.keysHandled]) hshutdowns
        exact List.mem_append_left _ (List.count_pos_iff.mp hhandled)
  | shutdown =>
      rw [hstate] at hpowered hshutdowns
      rw [System.update_shutdown hstate]
      refine ⟨hunheard, ?_, ?_, ?_, ?_⟩
      · simp [List.foldlM_append, hpowered, Embedded.powered]
      · simpa using hdevice
      · simp [List.count_append, SystemState.keysHandled] at hshutdowns ⊢
        omega
      · simpa using helections

theorem Lifecycle.handleKey (hlife : Lifecycle deviceRunning labels world) :
    Lifecycle deviceRunning (labels ++ [.handleKey])
      { world with system := world.system.handleKey } := by
  have hpowered := hlife.powered
  have hshutdowns := hlife.shutdowns
  refine ⟨hlife.unheard.handleKey, ?_, ?_, ?_, by simp⟩
  · rw [hpowered]
    unfold System.handleKey
    cases hstate : world.system.state <;> simp [hstate, System.setState]
  · rw [← hlife.device]
    unfold System.handleKey
    cases world.system.state <;> rfl
  · unfold System.handleKey
    cases hstate : world.system.state <;>
      simp [hstate, System.setState, List.count_append, SystemState.keysHandled] at hshutdowns ⊢ <;>
      omega

theorem Lifecycle.step (hlife : Lifecycle deviceRunning labels world) {label : SystemEvent}
    {world' : SystemWorld} (hstep : SystemStep world label world') :
    Lifecycle deviceRunning (labels ++ [label]) world' := by
  have helections : ∀ label, .electionUpdate ∈ world.calls → .handleKey ∈ labels ++ [label] :=
    fun label hcall => List.mem_append_left _ (hlife.elections hcall)
  have hshutdowns : ∀ label, 2 * world.calls.count .deviceShutdown +
      world.system.state.keysHandled ≤ (labels ++ [label]).count SystemEvent.handleKey := by
    intro label
    rw [List.count_append]
    exact Nat.le_trans hlife.shutdowns (Nat.le_add_right _ _)
  cases hstep with
  | start hidle =>
      exact ⟨hlife.unheard, hlife.powered, hlife.device, hshutdowns _, helections _⟩
  | turn hstart hrunning => exact hlife.turn
  | returns hstart hrunning =>
      exact ⟨hlife.unheard, hlife.powered, hlife.device, hshutdowns _, helections _⟩
  | stop => exact ⟨hlife.unheard, hlife.powered, hlife.device, hshutdowns _, helections _⟩
  | handleKey => exact hlife.handleKey
  | change key => exact ⟨hlife.unheard, hlife.powered, hlife.device, hshutdowns _, helections _⟩

end Lifecycle

/-- Whatever keys are handled and whenever the loop is stopped and started again, a device is
initialised and shut down in turn and used in between, and no key is ever notified. Its flag
stays set after the first initialisation. -/
theorem lifecycle_of_run {keys : List Key} {running deviceRunning : Bool}
    {labels : List SystemEvent} {world : SystemWorld}
    (hrun : Trace SystemStep (.construct keys running deviceRunning) labels world) :
    Lifecycle deviceRunning labels world := by
  induction hrun with
  | refl => exact ⟨rfl, rfl, by simp [SystemWorld.construct], by simp [SystemWorld.construct,
      SystemState.keysHandled], by simp [SystemWorld.construct]⟩
  | tail hrun hstep ih => exact ih.step hstep

/-- A device that was shut down says that it is running. -/
theorem lifecycle_of_run_shutdown :
    ∃ labels world, Lifecycle false labels world ∧ world.calls =
        [.deviceInit, .deviceUpdate [], .electionUpdate, .deviceShutdown] ∧
      world.system.state = .uninitialized ∧ world.system.device.running = true := by
  have hrun : Trace SystemStep (.construct [] false false) [] (.construct [] false false) := .refl
  have hstart := hrun.tail (.start _ rfl)
  have hinit := hstart.tail (.turn _ rfl rfl)
  have hvote := (hinit.tail (.handleKey _)).tail (.turn _ rfl rfl)
  have hend := (hvote.tail (.handleKey _)).tail (.turn _ rfl rfl)
  exact ⟨_, _, lifecycle_of_run hend, rfl, rfl, rfl⟩

/-! The run of the program, which calls `start` and in which only keys change. -/

/-- Outside `ShutdownState::update` nothing in the program calls `stop`, and nothing at all
calls `handleKey`. -/
def SystemEvent.InMain (event : SystemEvent) : Prop := event ≠ .stop ∧ event ≠ .handleKey

/-- The calls of the first turns of the loop. -/
def mainCalls : (turns : Nat) → List Call
  | 0 => []
  | turns + 1 => .deviceInit :: List.replicate turns (.deviceUpdate [])

theorem mainCalls_succ (turns : Nat) :
    mainCalls (turns + 2) = mainCalls (turns + 1) ++ [.deviceUpdate []] := by
  rw [mainCalls, mainCalls, List.replicate_succ', List.cons_append]

structure WaitsForKeys (labels : List SystemEvent) (world : SystemWorld) : Prop where
  unheard : world.system.Unheard
  calls : world.calls = mainCalls (labels.count .turn)
  state : world.system.state = if labels.count .turn = 0 then .uninitialized else .setup
  running : world.inStart = true → world.system.running = true
  returns : .returns ∉ labels

theorem WaitsForKeys.turn {labels : List SystemEvent} {world : SystemWorld}
    (hwaits : WaitsForKeys labels world) (hrunning : world.system.running = true) :
    WaitsForKeys (labels ++ [.turn])
      { world with
        system := world.system.update.2
        calls := world.calls ++ world.system.update.1 } := by
  have hunheard := hwaits.unheard
  have hreturns : .returns ∉ labels ++ [.turn] := by
    simpa using hwaits.returns
  have hcount : (labels ++ [SystemEvent.turn]).count .turn =
      labels.count SystemEvent.turn + 1 := by
    rw [List.count_append, List.count_singleton_self]
  cases hturns : labels.count .turn with
  | zero =>
      have hstate : world.system.state = .uninitialized := by
        rw [hwaits.state, hturns, if_pos rfl]
      rw [hunheard.update_uninitialized hstate]
      refine ⟨hunheard, ?_, ?_, fun _ => hrunning, hreturns⟩
      · rw [hcount, hwaits.calls, hturns]
        rfl
      · rw [hcount, if_neg (Nat.succ_ne_zero _)]
  | succ turns =>
      have hstate : world.system.state = .setup := by
        rw [hwaits.state, hturns, if_neg (Nat.succ_ne_zero _)]
      rw [hunheard.update_setup hstate]
      refine ⟨hunheard, ?_, ?_, fun _ => hrunning, hreturns⟩
      · rw [hcount, hwaits.calls, hturns, mainCalls_succ]
      · rw [hcount, if_neg (Nat.succ_ne_zero _)]
        exact hstate

theorem WaitsForKeys.step {labels : List SystemEvent} {world world' : SystemWorld}
    (hwaits : WaitsForKeys labels world) {event : SystemEvent} (hmain : event.InMain)
    (hstep : SystemStep world event world') : WaitsForKeys (labels ++ [event]) world' := by
  cases hstep with
  | start hidle =>
      refine ⟨hwaits.unheard, ?_, ?_, fun _ => rfl, ?_⟩
      · simpa [List.count_append] using hwaits.calls
      · simpa [List.count_append] using hwaits.state
      · simpa using hwaits.returns
  | turn hstart hrunning => exact hwaits.turn hrunning
  | returns hstart hrunning =>
      rw [hwaits.running hstart] at hrunning
      cases hrunning
  | stop => exact absurd rfl hmain.1
  | handleKey => exact absurd rfl hmain.2
  | change key =>
      refine ⟨hwaits.unheard, ?_, ?_, hwaits.running, ?_⟩
      · simpa [List.count_append] using hwaits.calls
      · simpa [List.count_append, System.changeKey] using hwaits.state
      · simpa using hwaits.returns

/-- However often and whenever keys change, the program initialises its device once and then
only polls it. It gets no further than `SetupState`, never updates the election and never
returns. -/
theorem main_waits_for_keys {keys : List Key} {running deviceRunning : Bool}
    {labels : List SystemEvent} {world : SystemWorld}
    (hrun : Trace SystemStep (.construct keys running deviceRunning) labels world)
    (hmain : ∀ event ∈ labels, event.InMain) :
    world.calls = mainCalls (labels.count .turn) ∧
      world.system.state = (if labels.count .turn = 0 then .uninitialized else .setup) ∧
        .returns ∉ labels ∧
          (world.inStart = true → ∃ next, SystemStep world .turn next) := by
  have hwaits : WaitsForKeys labels world := by
    induction hrun with
    | refl =>
        exact ⟨rfl, rfl, rfl, by simp [SystemWorld.construct], by simp⟩
    | tail hrun hstep ih =>
        exact (ih fun event hevent => hmain event (List.mem_append_left _ hevent)).step
          (hmain _ (by simp)) hstep
  exact ⟨hwaits.calls, hwaits.state, hwaits.returns,
    fun hstart => ⟨_, .turn world hstart (hwaits.running hstart)⟩⟩

theorem main_waits_for_keys_pressed :
    ∃ labels : List SystemEvent, ∃ world, .change 0 ∈ labels ∧ labels.count .turn = 3 ∧
      world.calls = mainCalls 3 ∧ world.system.state = .setup ∧ .returns ∉ labels ∧
        ∃ next, SystemStep world .turn next := by
  have hrun : Trace SystemStep (.construct [⟨false⟩] false false) []
    (.construct [⟨false⟩] false false) := .refl
  have hsetup := (hrun.tail (.start _ rfl)).tail (.turn _ rfl rfl)
  have hpressed := (hsetup.tail (.turn _ rfl rfl)).tail (.change _ 0)
  have hpolled := hpressed.tail (.turn _ rfl rfl)
  obtain ⟨hcalls, hstate, hreturns, hnext⟩ := main_waits_for_keys hpolled (by
    intro event hevent
    simp only [List.nil_append, List.cons_append, List.mem_cons, List.not_mem_nil,
      or_false] at hevent
    rcases hevent with rfl | rfl | rfl | rfl | rfl <;> exact ⟨by decide, by decide⟩)
  exact ⟨_, _, by simp, rfl, hcalls, hstate, hreturns, hnext rfl⟩

end VotingSystem.Embedded
