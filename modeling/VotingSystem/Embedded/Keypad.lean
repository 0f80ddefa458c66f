import Mathlib.Data.List.Basic

namespace VotingSystem.Embedded

/-! `Key` and `Keypad`. Nothing in them adds a key or sets `_changed`, so that the keys are
those of any keypad, and a change comes from outside. -/

structure Key where
  changed : Bool
  deriving DecidableEq

/-- `Key::Event`, which has no members. -/
structure Event
  deriving DecidableEq

namespace Key

def hasEvent (key : Key) : Bool := key.changed

/-- The pointer to the event, which is always null, and the key after the call. -/
def getEvent (key : Key) : Option Event × Key := (none, { key with changed := false })

end Key

/-- One call of `notify`, with the place of the key it is about. -/
structure Notification (Listener : Type) where
  listener : Listener
  key : Nat
  event : Option Event
  deriving DecidableEq

structure Keypad (Listener : Type) where
  keys : List Key
  listeners : List Listener

inductive KeypadCall (Listener : Type)
  | registerListener (listener : Listener)
  | change (key : Nat)
  | poll
  deriving DecidableEq

namespace Keypad

variable {Listener : Type} [DecidableEq Listener]

def construct (keys : List Key) : Keypad Listener where
  keys := keys
  listeners := []

def registerListener (keypad : Keypad Listener) (listener : Listener) : Keypad Listener :=
  if listener ∈ keypad.listeners then
    { keypad with listeners := keypad.listeners ++ [listener] }
  else keypad

def change (keypad : Keypad Listener) (key : Nat) : Keypad Listener :=
  { keypad with keys := keypad.keys.modify key fun key => { key with changed := true } }

/-- The first loop of `poll`. -/
def events (keypad : Keypad Listener) : List (Nat × Option Event) :=
  keypad.keys.zipIdx.filterMap fun (key, index) =>
    if key.hasEvent then some (index, key.getEvent.1) else none

/-- The loop has copies of the keys, so that what `getEvent` clears is lost. -/
def poll (keypad : Keypad Listener) : List (Notification Listener) × Keypad Listener :=
  (keypad.listeners.flatMap fun listener =>
    keypad.events.map fun (key, event) => ⟨listener, key, event⟩, keypad)

def call (keypad : Keypad Listener) : KeypadCall Listener → Keypad Listener
  | .registerListener listener => keypad.registerListener listener
  | .change key => keypad.change key
  | .poll => keypad.poll.2

/-- A keypad after a history of calls. -/
def after (keys : List Key) (history : List (KeypadCall Listener)) : Keypad Listener :=
  history.foldl call (construct keys)

/-- How often the next `poll` notifies a listener about a key. -/
def notifications (keypad : Keypad Listener) (listener : Listener) (key : Nat) : Nat :=
  keypad.poll.1.countP fun notification =>
    notification.listener = listener ∧ notification.key = key

end Keypad

section Delivery

variable {Listener : Type} [DecidableEq Listener]

/-- A key changed since the last `poll`. -/
def Changed (history : List (KeypadCall Listener)) (key : Nat) : Prop :=
  ∃ before since, history = before ++ .change key :: since ∧ .poll ∉ since

/-- It did so after a listener was registered. -/
def ChangedFor (history : List (KeypadCall Listener)) (listener : Listener) (key : Nat) :
    Prop :=
  ∃ before since, history = before ++ .change key :: since ∧ .poll ∉ since ∧
    .registerListener listener ∈ before

/-- Every registered listener is in the list once, and each `poll` notifies it once about
every key that changed since the one before and not at all about the others. -/
structure Delivers (keys : List Key) (history : List (KeypadCall Listener)) : Prop where
  nodup : (Keypad.after keys history).listeners.Nodup
  registered : ∀ listener, .registerListener listener ∈ history →
    listener ∈ (Keypad.after keys history).listeners
  delivered : ∀ earlier later, history = earlier ++ .poll :: later →
    ∀ listener, ∀ key < keys.length, ChangedFor earlier listener key →
      (Keypad.after keys earlier).notifications listener key = 1
  quiet : ∀ earlier later, history = earlier ++ .poll :: later →
    ∀ listener key, ¬ Changed earlier key →
      (Keypad.after keys earlier).notifications listener key = 0

namespace Keypad

/-- Only a listener that is in the list can be added to it. -/
theorem registerListener_nil {keypad : Keypad Listener} (hnil : keypad.listeners = [])
    (listener : Listener) : (keypad.registerListener listener).listeners = [] := by
  rw [registerListener, hnil, if_neg List.not_mem_nil]
  exact hnil

theorem call_nil {keypad : Keypad Listener} (hnil : keypad.listeners = [])
    (made : KeypadCall Listener) : (keypad.call made).listeners = [] := by
  cases made with
  | registerListener listener => exact registerListener_nil hnil listener
  | change key => exact hnil
  | poll => exact hnil

theorem foldl_call_nil {keypad : Keypad Listener} (hnil : keypad.listeners = [])
    (history : List (KeypadCall Listener)) : (history.foldl call keypad).listeners = [] := by
  induction history generalizing keypad with
  | nil => exact hnil
  | cons made history ih => exact ih (call_nil hnil made)

/-- The list of listeners stays empty. -/
theorem after_listeners (keys : List Key) (history : List (KeypadCall Listener)) :
    (after keys history).listeners = [] :=
  foldl_call_nil rfl history

theorem notifications_after (keys : List Key) (history : List (KeypadCall Listener))
    (listener : Listener) (key : Nat) :
    (after keys history).notifications listener key = 0 := by
  rw [notifications, poll, after_listeners]
  rfl

omit [DecidableEq Listener] in
theorem getElem?_change (keypad : Keypad Listener) (key place : Nat) :
    (keypad.change key).keys[place]? =
      if key = place then keypad.keys[place]?.map fun _ => ⟨true⟩ else keypad.keys[place]? := by
  rw [change, List.getElem?_modify]
  split
  · rfl
  · simp

theorem call_changed {keypad : Keypad Listener} {key : Nat}
    (hchanged : keypad.keys[key]? = some ⟨true⟩) (made : KeypadCall Listener) :
    (keypad.call made).keys[key]? = some ⟨true⟩ := by
  cases made with
  | registerListener listener =>
      rw [call, registerListener]
      split
      · exact hchanged
      · exact hchanged
  | change other =>
      rw [call, getElem?_change, hchanged]
      split
      · rfl
      · rfl
  | poll => exact hchanged

theorem foldl_call_changed {keypad : Keypad Listener} {key : Nat}
    (hchanged : keypad.keys[key]? = some ⟨true⟩) (history : List (KeypadCall Listener)) :
    (history.foldl call keypad).keys[key]? = some ⟨true⟩ := by
  induction history generalizing keypad with
  | nil => exact hchanged
  | cons made history ih => exact ih (call_changed hchanged made)

theorem call_length (keypad : Keypad Listener) (made : KeypadCall Listener) :
    (keypad.call made).keys.length = keypad.keys.length := by
  cases made with
  | registerListener listener =>
      rw [call, registerListener]
      split
      · rfl
      · rfl
  | change key => rw [call, change, List.length_modify]
  | poll => rfl

theorem foldl_call_length (keypad : Keypad Listener) (history : List (KeypadCall Listener)) :
    (history.foldl call keypad).keys.length = keypad.keys.length := by
  induction history generalizing keypad with
  | nil => rfl
  | cons made history ih => rw [List.foldl_cons, ih, call_length]

/-- A key that changed has an event at every later `poll`. -/
theorem exists_event_of_change {keys : List Key} {history : List (KeypadCall Listener)}
    {key : Nat} (hkey : key < keys.length) (hchange : .change key ∈ history) :
    ∃ event, (key, event) ∈ (after keys history).events := by
  obtain ⟨before, since, rfl⟩ := List.append_of_mem hchange
  have hlength : key < (after keys before).keys.length := by
    rw [after, foldl_call_length]
    exact hkey
  have hset : ((after keys before).change key).keys[key]? = some ⟨true⟩ := by
    rw [getElem?_change, if_pos rfl, List.getElem?_eq_getElem hlength, Option.map_some]
  have hchanged := foldl_call_changed hset since
  refine ⟨none, List.mem_filterMap.mpr ⟨(⟨true⟩, key), ?_, rfl⟩⟩
  rw [List.mem_zipIdx_iff_getElem?, after, List.foldl_append, List.foldl_cons]
  exact hchanged

end Keypad

/-- The keypad keeps what it promises to its listeners as long as there are none, and no
longer. -/
theorem delivers_iff_no_listener (keys : List Key) (history : List (KeypadCall Listener)) :
    Delivers keys history ↔ ∀ listener, .registerListener listener ∉ history := by
  constructor
  · intro hdelivers listener hregistered
    have hmem := hdelivers.registered listener hregistered
    rw [Keypad.after_listeners] at hmem
    cases hmem
  · intro hnone
    refine ⟨?_, ?_, ?_, ?_⟩
    · rw [Keypad.after_listeners]
      exact List.nodup_nil
    · intro listener hregistered
      exact absurd hregistered (hnone listener)
    · rintro earlier later hhistory listener key _ ⟨before, since, hearlier, _, hregistered⟩
      apply absurd _ (hnone listener)
      rw [hhistory, hearlier]
      simp [hregistered]
    · intro earlier later _ listener key _
      exact Keypad.notifications_after keys earlier listener key

/-- The listener that is registered first is not in the list. -/
theorem first_listener_not_registered :
    (Keypad.after [] [.registerListener 0]).listeners = ([] : List Nat) ∧
      ¬ Delivers [] [KeypadCall.registerListener 0] := by
  refine ⟨rfl, ?_⟩
  intro hdelivers
  have hmem := hdelivers.registered 0 (by simp)
  cases hmem

end Delivery

end VotingSystem.Embedded
