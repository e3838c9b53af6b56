import Mathlib.Algebra.GroupWithZero.Nat
import Mathlib.Data.Fintype.Basic
import Mathlib.Logic.Function.Basic

/-! The buttons of the ESP32 target. The interrupt handlers of all pins share one flag and one
index, and a call of `processButtonEvents` takes both, reads the pin and publishes the byte. -/

namespace OpenDisplay

section State

def maxButtons : Nat := 32

instance : NeZero maxButtons := ⟨by decide⟩

structure ButtonState where
  buttonId : UInt8 := 0
  pressCount : UInt8 := 0
  currentState : UInt8 := 0
  byteIndex : UInt8 := 0xFF
  pin : UInt8 := 0xFF
  inverted : Bool := false
  initialized : Bool := false

def ButtonState.pressed (btn : ButtonState) (pinState : Bool) : Bool :=
  if btn.inverted then !pinState else pinState

def logicalState (pressed : Bool) : UInt8 := if pressed then 1 else 0

/-- The byte that a button has in the advertised data. -/
def buttonData (id count state : UInt8) : UInt8 :=
  (id &&& (0x07 : UInt8)) ||| ((count &&& (0x0F : UInt8)) <<< 3) ||| ((state &&& (0x01 : UInt8)) <<< 7)

/-- Where a call of `processButtonEvents` is. -/
inductive ButtonPc where
  | idle
  | lock
  | readPin (i : Fin maxButtons)
  | storeState (i : Fin maxButtons) (state : UInt8)
  | loadCount (i : Fin maxButtons)
  | loadState (i : Fin maxButtons) (count : UInt8)
  | publish (i : Fin maxButtons) (data : UInt8)
deriving DecidableEq

/-- `pins` has the level of each button's pin, and `due` the buttons whose level has changed and
whose handler has not run since. `changed` and `presses` count what the pins did. -/
structure Buttons where
  buttonStates : Fin maxButtons → ButtonState
  buttonEventPending : Bool := false
  lastChangedButtonIndex : Nat := 0xFF
  dynamicreturndata : Fin 11 → UInt8 := fun _ => 0
  loop : ButtonPc := .idle
  pins : Fin maxButtons → Bool
  due : Fin maxButtons → Bool := fun _ => false
  changed : Fin maxButtons → Bool := fun _ => false
  presses : Fin maxButtons → Nat := fun _ => 0

/-- A button is pressed now. -/
def Buttons.pressed (s : Buttons) (i : Fin maxButtons) : Bool := (s.buttonStates i).pressed (s.pins i)

end State

section Init

structure BinaryInputs where
  instanceNumber : UInt8
  inputType : UInt8
  inputPins : List UInt8
  pinsUsed : UInt8
  invert : UInt8
  buttonDataByteIndex : UInt8

def odInputTypeButton : UInt8 := 1

/-- One pin of an instance. -/
def initButtonPin (touchInt : UInt8 → Bool) (input : BinaryInputs) (states : List ButtonState) (pinIdx : Nat) :
    List ButtonState :=
  let pin := input.inputPins.getD pinIdx 0xFF
  if input.pinsUsed ≠ 0 ∧ ¬ input.pinsUsed.toNat.testBit pinIdx then states
  else if pin = 0xFF then states
  else if touchInt pin then states
  else if states.length ≥ maxButtons then states
  else
    let buttonId := input.instanceNumber * 8 + UInt8.ofNat pinIdx
    states ++ [{
      buttonId := if buttonId > 7 then buttonId % 8 else buttonId
      byteIndex := input.buttonDataByteIndex
      pin := pin
      inverted := input.invert.toNat.testBit pinIdx
      initialized := true }]

def initButtonInput (touchInt : UInt8 → Bool) (states : List ButtonState) (input : BinaryInputs) :
    List ButtonState :=
  if input.inputType ≠ odInputTypeButton then states
  else if input.buttonDataByteIndex > 10 then states
  else (List.range 8).foldl (initButtonPin touchInt input) states

/-- The end of `initButtons`: the state of each button is that of its pin, and nothing is pending. -/
def settleButtons (states : Fin maxButtons → ButtonState) (gpio : UInt8 → Bool) : Buttons where
  buttonStates := fun i =>
    let btn := states i
    if btn.initialized then
      { btn with currentState := logicalState (btn.pressed (gpio btn.pin)), pressCount := 0 }
    else btn
  pins := fun i => gpio (states i).pin

def initButtons (touchInt : UInt8 → Bool) (inputs : List BinaryInputs) (gpio : UInt8 → Bool) : Buttons :=
  settleButtons (fun i => (inputs.foldl (initButtonInput touchInt) []).getD i {}) gpio

end Init

section Steps

def handleButtonISR (buttonIndex : Nat) (s : Buttons) : Buttons :=
  if h : buttonIndex < maxButtons then
    let i : Fin maxButtons := ⟨buttonIndex, h⟩
    let btn := s.buttonStates i
    if ¬ btn.initialized then s
    else
      let pressed := btn.pressed (s.pins i)
      let newState := logicalState pressed
      if newState ≠ btn.currentState then
        { s with
          buttonStates := Function.update s.buttonStates i { btn with
            currentState := newState
            pressCount := if pressed then (btn.pressCount + 1) &&& (0x0F : UInt8) else btn.pressCount }
          lastChangedButtonIndex := buttonIndex
          buttonEventPending := true }
      else s
  else s

/-- The level of a button's pin changes, once the handler has run for the change before. -/
def pinChange (i : Fin maxButtons) (s : Buttons) : Buttons :=
  if ¬ (s.buttonStates i).initialized ∨ s.due i then s
  else
    let s := { s with pins := Function.update s.pins i (!s.pins i) }
    { s with
      due := Function.update s.due i true
      changed := Function.update s.changed i true
      presses := if s.pressed i then Function.update s.presses i (s.presses i + 1) else s.presses }

/-- The handler of a pin runs for its change. -/
def buttonISR (i : Fin maxButtons) (s : Buttons) : Buttons :=
  if s.due i then handleButtonISR i { s with due := Function.update s.due i false } else s

/-- `processButtonEvents` begins. -/
def processButtonEvents (s : Buttons) : Buttons :=
  if s.loop ≠ .idle then s
  else if s.buttonEventPending then { s with loop := .lock } else s

/-- A step of `processButtonEvents`. No handler runs inside the locked section. -/
def buttonLoop (s : Buttons) : Buttons :=
  match s.loop with
  | .idle => s
  | .lock =>
    let changedButtonIndex := s.lastChangedButtonIndex
    { s with
      buttonEventPending := false
      lastChangedButtonIndex := 0xFF
      loop :=
        if h : changedButtonIndex < maxButtons then
          if (s.buttonStates ⟨changedButtonIndex, h⟩).initialized then .readPin ⟨changedButtonIndex, h⟩ else .idle
        else .idle }
  | .readPin i => { s with loop := .storeState i (logicalState (s.pressed i)) }
  | .storeState i state =>
    { s with
      buttonStates := Function.update s.buttonStates i { s.buttonStates i with currentState := state }
      loop := .loadCount i }
  | .loadCount i => { s with loop := .loadState i (s.buttonStates i).pressCount }
  | .loadState i count =>
    { s with loop := .publish i (buttonData (s.buttonStates i).buttonId count (s.buttonStates i).currentState) }
  | .publish i data =>
    { s with
      dynamicreturndata :=
        if h : (s.buttonStates i).byteIndex.toNat < 11 then
          Function.update s.dynamicreturndata ⟨(s.buttonStates i).byteIndex.toNat, h⟩ data
        else s.dynamicreturndata
      loop := .idle }

inductive ButtonAct where
  | change (i : Fin maxButtons)
  | isr (i : Fin maxButtons)
  | call
  | loop
deriving DecidableEq

def buttonStep (s : Buttons) : ButtonAct → Buttons
  | .change i => pinChange i s
  | .isr i => buttonISR i s
  | .call => processButtonEvents s
  | .loop => buttonLoop s

def buttonRun (s : Buttons) (acts : List ButtonAct) : Buttons := acts.foldl buttonStep s

end Steps

end OpenDisplay
