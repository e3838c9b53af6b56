import Mathlib.Data.List.GetD
import OpenDisplay.Button.Model
import OpenDisplay.Lib.Trace

/-! What reaches the advertised data. A change is not lost as long as the index is not taken by
another button, and the loop does not rewrite the state that the handlers filter by. -/

namespace OpenDisplay

open Traces

section Rules

variable {b : Fin maxButtons → ButtonState} {s : Buttons} {i j : Fin maxButtons}

/-- The buttons that are registered have identifiers of three bits, and each has a byte of its own. -/
structure ButtonsApart (b : Fin maxButtons → ButtonState) : Prop where
  buttonId : ∀ i, (b i).initialized → (b i).buttonId ≤ 7
  byteIndex : ∀ i, (b i).initialized → (b i).byteIndex ≤ 10
  distinct : ∀ i j, (b i).initialized → (b j).initialized → (b i).byteIndex = (b j).byteIndex → i = j

/-- No call is in progress, nothing is pending and every handler has run. -/
structure Buttons.Quiet (s : Buttons) : Prop where
  loop : s.loop = .idle
  pending : s.buttonEventPending = false
  due : ∀ i, s.due i = false

/-- The byte of a button. -/
def Buttons.byte (s : Buttons) (i : Fin maxButtons) : UInt8 :=
  if h : (s.buttonStates i).byteIndex.toNat < 11 then
    s.dynamicreturndata ⟨(s.buttonStates i).byteIndex.toNat, h⟩
  else 0

/-- The byte of every button that has changed shows its presses and its level. -/
def ButtonsShown (s : Buttons) : Prop :=
  s.Quiet → ∀ i, (s.buttonStates i).initialized → s.changed i →
    s.byte i = (s.buttonStates i).buttonId ||| (UInt8.ofNat (s.presses i % 16) <<< 3) |||
      (logicalState (s.pressed i) <<< 7)

/-- What the data of a button would be now. -/
def Buttons.data (s : Buttons) (i : Fin maxButtons) : UInt8 :=
  buttonData (s.buttonStates i).buttonId (s.buttonStates i).pressCount (s.buttonStates i).currentState

/-- The byte that a button has when the call that runs has ended. -/
def Buttons.settles (s : Buttons) (i : Fin maxButtons) : UInt8 :=
  match s.loop with
  | .idle | .lock => s.byte i
  | .readPin j | .storeState j _ | .loadCount j => if j = i then s.data i else s.byte i
  | .loadState j count =>
    if j = i then buttonData (s.buttonStates i).buttonId count (s.buttonStates i).currentState else s.byte i
  | .publish j data => if j = i then data else s.byte i

/-- The button needs no event: its byte is right when the call that runs has ended, or its own
handler has still to notice a change. -/
def Buttons.Safe (s : Buttons) (i : Fin maxButtons) : Prop :=
  s.settles i = s.data i ∨ (s.due i ∧ (s.buttonStates i).currentState ≠ logicalState (s.pressed i))

/-- A call stores the state that is there, or a release whose handler has still to run. -/
def StoreOk (s : Buttons) : ButtonPc → Prop
  | .storeState i state => state = (s.buttonStates i).currentState ∨ (state = logicalState false ∧ s.due i)
  | _ => True

/-- Besides, a handler that notices a change takes the index from no other button that needs it. -/
def ButtonStepOk (s : Buttons) : ButtonAct → Prop
  | .isr i => s.due i → (s.buttonStates i).currentState ≠ logicalState (s.pressed i) → s.buttonEventPending →
    ∀ j, s.lastChangedButtonIndex = Fin.val j → j = i ∨ s.Safe j
  | .loop => StoreOk s s.loop
  | _ => True

end Rules

section Frame

variable {b : Fin maxButtons → ButtonState} {s s' : Buttons} {i j : Fin maxButtons}

@[simp] theorem logicalState_ne (pressed : Bool) : logicalState (!pressed) ≠ logicalState pressed := by
  cases pressed <;> decide

theorem ButtonState.pressed_not (btn : ButtonState) (pinState : Bool) :
    btn.pressed (!pinState) = !btn.pressed pinState := by
  cases h : btn.inverted <;> simp [ButtonState.pressed, h]

theorem count_and (n : Nat) : UInt8.ofNat n &&& (0x0F : UInt8) = UInt8.ofNat (n % 16) := by
  apply UInt8.toNat_inj.mp
  rw [UInt8.toNat_and, UInt8.toNat_ofNat', UInt8.toNat_ofNat']
  have h := Nat.and_two_pow_sub_one_eq_mod (n % 2 ^ 8) 4
  simp only [UInt8.reduceToNat, Nat.reducePow, Nat.reduceSub] at h ⊢
  omega

theorem count_add_one (n : Nat) :
    (UInt8.ofNat (n % 16) + 1) &&& (0x0F : UInt8) = UInt8.ofNat ((n + 1) % 16) := by
  rw [show UInt8.ofNat (n % 16) + 1 = UInt8.ofNat (n % 16 + 1) from (UInt8.ofNat_add _ _).symm, count_and]
  congr 1
  omega

theorem buttonId_and {id : UInt8} (h : id ≤ 7) : id &&& (0x07 : UInt8) = id := by
  apply UInt8.toNat_inj.mp
  have hle : id.toNat ≤ 7 := UInt8.le_iff_toNat_le.mp h
  have hmod := Nat.and_two_pow_sub_one_eq_mod id.toNat 3
  rw [UInt8.toNat_and]
  simp only [UInt8.reduceToNat, Nat.reducePow, Nat.reduceSub] at hmod ⊢
  omega

theorem buttonData_eq {id : UInt8} (h : id ≤ 7) (n : Nat) (pressed : Bool) :
    buttonData id (UInt8.ofNat (n % 16)) (logicalState pressed) =
      id ||| (UInt8.ofNat (n % 16) <<< 3) ||| (logicalState pressed <<< 7) := by
  have hstate : logicalState pressed &&& (0x01 : UInt8) = logicalState pressed := by
    cases pressed <;> decide
  rw [buttonData, buttonId_and h, count_and, Nat.mod_mod, hstate]

/-- Nothing of a button but its count and its state changes. -/
structure SameButton (btn btn' : ButtonState) : Prop where
  buttonId : btn'.buttonId = btn.buttonId
  byteIndex : btn'.byteIndex = btn.byteIndex
  inverted : btn'.inverted = btn.inverted
  initialized : btn'.initialized = btn.initialized

theorem ButtonsApart.of (h : ButtonsApart b) {b' : Fin maxButtons → ButtonState}
    (hsame : ∀ i, SameButton (b i) (b' i)) : ButtonsApart b' where
  buttonId i hi := by
    rw [(hsame i).buttonId]
    exact h.buttonId i ((hsame i).initialized ▸ hi)
  byteIndex i hi := by
    rw [(hsame i).byteIndex]
    exact h.byteIndex i ((hsame i).initialized ▸ hi)
  distinct i j hi hj hij := by
    rw [(hsame i).byteIndex, (hsame j).byteIndex] at hij
    exact h.distinct i j ((hsame i).initialized ▸ hi) ((hsame j).initialized ▸ hj) hij

theorem sameButton_update {btn : ButtonState} (h : SameButton (b i) btn) (j : Fin maxButtons) :
    SameButton (b j) (Function.update b i btn j) := by
  by_cases hj : j = i
  · subst hj
    rw [Function.update_self]
    exact h
  · rw [Function.update_of_ne hj]
    exact ⟨rfl, rfl, rfl, rfl⟩

/-- A step that leaves a button, its pin and the published bytes alone. -/
structure Beside (s s' : Buttons) (j : Fin maxButtons) : Prop where
  button : s'.buttonStates j = s.buttonStates j
  pin : s'.pins j = s.pins j
  due : s'.due j = s.due j
  changed : s'.changed j = s.changed j
  presses : s'.presses j = s.presses j

theorem Beside.pressed (h : Beside s s' j) : s'.pressed j = s.pressed j := by
  simp only [Buttons.pressed, h.button, h.pin]

theorem Beside.safe (h : Beside s s' j) (hsettles : s'.settles j = s.settles j) : s'.Safe j ↔ s.Safe j := by
  simp only [Buttons.Safe, Buttons.data, hsettles, h.button, h.due, h.pressed]

theorem Beside.settles (h : Beside s s' j) (hloop : s'.loop = s.loop)
    (hbytes : s'.dynamicreturndata = s.dynamicreturndata) : s'.settles j = s.settles j := by
  simp only [Buttons.settles, Buttons.data, Buttons.byte, hloop, h.button, hbytes]

end Frame

section Invariant

variable {b : Fin maxButtons → ButtonState} {s s' : Buttons} {i j : Fin maxButtons}

/-- The button that a call is about. -/
def ButtonPc.button : ButtonPc → Option (Fin maxButtons)
  | .idle | .lock => none
  | .readPin i | .storeState i _ | .loadCount i | .loadState i _ | .publish i _ => some i

/-- What holds of one button: its count is that of the presses its handler has run for, its state is
that of its pin as far as the handler has run, and it has an event or needs none. -/
structure ButtonOk (s : Buttons) (i : Fin maxButtons) : Prop where
  count : ∃ n, (s.buttonStates i).pressCount = UInt8.ofNat (n % 16) ∧
    s.presses i = n + if s.due i ∧ s.pressed i then 1 else 0
  settled : s.due i = false → (s.buttonStates i).currentState = logicalState (s.pressed i)
  press : s.due i → s.pressed i → (s.buttonStates i).currentState = logicalState false
  shown : s.changed i → (s.buttonEventPending ∧ s.lastChangedButtonIndex = i.val) ∨ s.Safe i

structure ButtonsOk (s : Buttons) : Prop where
  apart : ButtonsApart s.buttonStates
  busy : ∀ i, s.loop.button = some i → (s.buttonStates i).initialized
  button : ∀ i, (s.buttonStates i).initialized → ButtonOk s i

/-- What a step does beside a button does not matter to it. -/
theorem ButtonOk.beside (h : ButtonOk s j) (hb : Beside s s' j)
    (hshown : (s.buttonEventPending ∧ s.lastChangedButtonIndex = j.val) ∨ s.Safe j →
      (s'.buttonEventPending ∧ s'.lastChangedButtonIndex = j.val) ∨ s'.Safe j) : ButtonOk s' j := by
  refine ⟨?_, ?_, ?_, ?_⟩
  · rw [hb.button, hb.presses, hb.due, hb.pressed]
    exact h.count
  · rw [hb.button, hb.due, hb.pressed]
    exact h.settled
  · rw [hb.button, hb.due, hb.pressed]
    exact h.press
  · rw [hb.changed]
    exact fun hc => hshown (h.shown hc)

/-- At rest the byte of a button is what the pins did. -/
theorem ButtonsOk.buttonsShown (h : ButtonsOk s) : ButtonsShown s := by
  intro hq i hinit hchanged
  obtain ⟨⟨n, hcount, hn⟩, hsettled, -, hshown⟩ := h.button i hinit
  have hdue := hq.due i
  simp only [hdue, Bool.false_eq_true, false_and, if_false, Nat.add_zero] at hn
  rcases hshown hchanged with ⟨hp, -⟩ | hsafe | ⟨hd, -⟩
  · rw [hq.pending] at hp
    cases hp
  · simp only [Buttons.settles, hq.loop] at hsafe
    rw [hsafe, Buttons.data, hcount, hn, hsettled hdue]
    exact buttonData_eq (h.apart.buttonId i hinit) n (s.pressed i)
  · rw [hdue] at hd
    cases hd

/-- A step of one button's pin or handler: the others keep their events, or need none. -/
theorem ButtonsOk.only (h : ButtonsOk s) (i : Fin maxButtons) (hloop : s'.loop = s.loop)
    (hbytes : s'.dynamicreturndata = s.dynamicreturndata)
    (hsame : ∀ j, SameButton (s.buttonStates j) (s'.buttonStates j)) (hbeside : ∀ j, j ≠ i → Beside s s' j)
    (hevent : ∀ j, j ≠ i → s.buttonEventPending → s.lastChangedButtonIndex = j.val →
      (s'.buttonEventPending ∧ s'.lastChangedButtonIndex = j.val) ∨ s.Safe j)
    (hi : (s.buttonStates i).initialized → ButtonOk s' i) : ButtonsOk s' := by
  have hinit : ∀ j, (s'.buttonStates j).initialized → (s.buttonStates j).initialized :=
    fun j hj => (hsame j).initialized ▸ hj
  refine ⟨h.apart.of hsame, fun j hj => ?_, fun j hj => ?_⟩
  · rw [(hsame j).initialized]
    exact h.busy j (hloop ▸ hj)
  · by_cases hji : j = i
    · subst hji
      exact hi (hinit j hj)
    · have hb := hbeside j hji
      have hsafe : s.Safe j → s'.Safe j := (hb.safe (hb.settles hloop hbytes)).mpr
      refine (h.button j (hinit j hj)).beside hb fun hs => ?_
      rcases hs with ⟨hp, hlast⟩ | hs
      · exact (hevent j hji hp hlast).imp_right hsafe
      · exact .inr (hsafe hs)

theorem ButtonsOk.pinChange (h : ButtonsOk s) (i : Fin maxButtons) : ButtonsOk (pinChange i s) := by
  unfold OpenDisplay.pinChange
  split_ifs with hskip
  · exact h
  · obtain ⟨-, hdue⟩ := not_or.mp hskip
    have hdue : s.due i = false := by simpa using hdue
    have hpress : ∀ p : Bool, (s.buttonStates i).pressed (Function.update s.pins i p i) =
        (s.buttonStates i).pressed p := fun p => by rw [Function.update_self]
    refine h.only i rfl rfl (fun _ => ⟨rfl, rfl, rfl, rfl⟩) (fun j hji => ?_)
      (fun j _ hp hlast => .inl ⟨hp, hlast⟩) fun hinit => ?_
    · refine ⟨rfl, Function.update_of_ne hji _ _, Function.update_of_ne hji _ _, Function.update_of_ne hji _ _, ?_⟩
      simp only
      split_ifs
      · exact Function.update_of_ne hji _ _
      · rfl
    · obtain ⟨⟨n, hcount, hn⟩, hsettled, -, -⟩ := h.button i hinit
      simp only [hdue, Bool.false_eq_true, false_and, if_false, Nat.add_zero] at hn
      -- the state is that of the level before
      have hnot : (s.buttonStates i).currentState = logicalState (!(s.buttonStates i).pressed (!s.pins i)) := by
        rw [hsettled hdue, ButtonState.pressed_not, Bool.not_not, Buttons.pressed]
      refine ⟨⟨n, hcount, ?_⟩, ?_, ?_, fun _ => .inr (.inr ⟨by simp only [Function.update_self], ?_⟩)⟩
      · simp only [Buttons.pressed, Function.update_self, true_and]
        split_ifs
        · rw [Function.update_self, hn]
        · exact hn
      · simp only [Function.update_self, Bool.true_eq_false, false_implies]
      · simp only [Buttons.pressed, hpress]
        intro _ hp
        rw [hnot, hp]
        rfl
      · simp only [Buttons.pressed, hpress, hnot]
        exact logicalState_ne _

/-- The handler of a button that is registered: it notices a change, or there is none. -/
theorem handleButtonISR_eq (hinit : (s.buttonStates i).initialized) :
    handleButtonISR i.val s =
      if (s.buttonStates i).currentState = logicalState (s.pressed i) then s
      else { s with
        buttonStates := Function.update s.buttonStates i { s.buttonStates i with
          currentState := logicalState (s.pressed i)
          pressCount :=
            if s.pressed i then ((s.buttonStates i).pressCount + 1) &&& (0x0F : UInt8)
            else (s.buttonStates i).pressCount }
        lastChangedButtonIndex := i.val
        buttonEventPending := true } := by
  unfold handleButtonISR
  rw [dif_pos i.isLt]
  simp only [Fin.eta]
  rw [if_neg (not_not.mpr hinit)]
  by_cases hsame : (s.buttonStates i).currentState = logicalState (s.pressed i)
  · rw [if_pos hsame]
    exact if_neg (not_not.mpr hsame.symm)
  · rw [if_neg hsame]
    exact if_pos (Ne.symm hsame)

theorem handleButtonISR_skip (hinit : ¬ (s.buttonStates i).initialized) : handleButtonISR i.val s = s := by
  unfold handleButtonISR
  rw [dif_pos i.isLt]
  exact if_pos hinit

theorem ButtonsOk.buttonISR (h : ButtonsOk s) {i : Fin maxButtons} (hok : ButtonStepOk s (.isr i)) :
    ButtonsOk (buttonISR i s) := by
  unfold OpenDisplay.buttonISR
  by_cases hdue : s.due i
  · rw [if_pos hdue]
    by_cases hinit : (s.buttonStates i).initialized
    · rw [handleButtonISR_eq (by exact hinit)]
      obtain ⟨⟨n, hcount, hn⟩, -, hpress, hshown⟩ := h.button i hinit
      by_cases hsame : (s.buttonStates i).currentState = logicalState (s.pressed i)
      · -- the loop has seen this release before
        rw [if_pos (by exact hsame)]
        have hup : ¬ s.pressed i := by
          intro hp
          have hfalse := hpress hdue hp
          rw [hsame, hp] at hfalse
          exact absurd hfalse (by decide)
        refine h.only i rfl rfl (fun _ => ⟨rfl, rfl, rfl, rfl⟩)
          (fun j hji => ⟨rfl, rfl, Function.update_of_ne hji _ _, rfl, rfl⟩)
          (fun j _ hp hlast => .inl ⟨hp, hlast⟩) fun _ => ?_
        refine ⟨⟨n, hcount, ?_⟩, fun _ => hsame, fun hd => ?_, fun hc => (hshown hc).imp_right fun hs => ?_⟩
        · simpa [hup] using hn
        · simp at hd
        · exact .inl (hs.resolve_right fun hs => hs.2 hsame)
      · rw [if_neg (by exact hsame)]
        refine h.only i rfl rfl (sameButton_update ⟨rfl, rfl, rfl, rfl⟩)
          (fun j hji => ⟨Function.update_of_ne hji _ _, rfl, Function.update_of_ne hji _ _, rfl, rfl⟩)
          (fun j hji hp hlast => .inr ((hok hdue hsame hp j hlast).resolve_left hji)) fun _ => ?_
        refine ⟨⟨if s.pressed i then n + 1 else n, ?_, ?_⟩, fun _ => ?_, fun hd => ?_, fun _ => .inl ⟨rfl, rfl⟩⟩
        · simp only [Function.update_self, hcount]
          by_cases hup : s.pressed i
          · rw [if_pos (by exact hup), if_pos hup]
            exact count_add_one n
          · rw [if_neg (by exact hup), if_neg hup]
        · simp only [Function.update_self, Bool.false_eq_true, false_and, if_false, Nat.add_zero]
          by_cases hup : s.pressed i
          · rw [hn, if_pos ⟨hdue, hup⟩, if_pos hup]
          · rw [hn, if_neg fun hd => hup hd.2, if_neg hup, Nat.add_zero]
        · simp only [Buttons.pressed, Function.update_self, ButtonState.pressed]
        · simp at hd
    · rw [handleButtonISR_skip (by exact hinit)]
      exact h.only i rfl rfl (fun _ => ⟨rfl, rfl, rfl, rfl⟩)
        (fun j hji => ⟨rfl, rfl, Function.update_of_ne hji _ _, rfl, rfl⟩)
        (fun j _ hp hlast => .inl ⟨hp, hlast⟩) fun hi => absurd hi hinit
  · rw [if_neg hdue]
    exact h

/-- The loop's own step, which leaves the buttons alone: no button's byte gets worse. -/
theorem ButtonsOk.moved (h : ButtonsOk s) (hb : ∀ j, Beside s s' j)
    (hbusy : ∀ j, s'.loop.button = some j → (s.buttonStates j).initialized)
    (hsettles : ∀ j, (s.buttonStates j).initialized → s'.settles j = s.settles j ∨ s'.settles j = s.data j)
    (hevent : ∀ j, (s.buttonStates j).initialized → s.buttonEventPending → s.lastChangedButtonIndex = j.val →
      (s'.buttonEventPending ∧ s'.lastChangedButtonIndex = j.val) ∨ s'.settles j = s.data j) : ButtonsOk s' := by
  have hsame : ∀ j, SameButton (s.buttonStates j) (s'.buttonStates j) := fun j => by
    rw [(hb j).button]
    exact ⟨rfl, rfl, rfl, rfl⟩
  have hdata : ∀ j, s'.data j = s.data j := fun j => by rw [Buttons.data, (hb j).button, Buttons.data]
  refine ⟨h.apart.of hsame, fun j hj => ?_, fun j hj => ?_⟩
  · rw [(hb j).button]
    exact hbusy j hj
  · rw [(hb j).button] at hj
    refine (h.button j hj).beside (hb j) fun hs => ?_
    rcases hs with ⟨hp, hlast⟩ | hs
    · exact (hevent j hj hp hlast).imp_right fun he => .inl (he.trans (hdata j).symm)
    · refine .inr ?_
      rcases hsettles j hj with he | he
      · exact ((hb j).safe he).mpr hs
      · exact .inl (he.trans (hdata j).symm)

theorem ButtonsOk.processButtonEvents (h : ButtonsOk s) : ButtonsOk (processButtonEvents s) := by
  unfold OpenDisplay.processButtonEvents
  by_cases hidle : s.loop = .idle
  · rw [if_neg (not_not.mpr hidle)]
    split_ifs with hp
    · refine h.moved (fun _ => ⟨rfl, rfl, rfl, rfl, rfl⟩) (fun j hj => by cases hj) (fun j _ => .inl ?_)
        fun j _ hp hlast => .inl ⟨hp, hlast⟩
      simp only [Buttons.settles, hidle, Buttons.byte]
    · exact h
  · rw [if_pos hidle]
    exact h

theorem Buttons.pressed_stored {state : UInt8} {loop : ButtonPc} :
    Buttons.pressed { s with
      buttonStates := Function.update s.buttonStates i { s.buttonStates i with currentState := state }
      loop := loop } j = s.pressed j := by
  by_cases hji : j = i
  · subst hji
    simp only [Buttons.pressed, Function.update_self, ButtonState.pressed]
  · simp only [Buttons.pressed, Function.update_of_ne hji]

/-- The store of the state that the pin read gave. -/
theorem ButtonsOk.stored (h : ButtonsOk s) {state : UInt8} (hpc : s.loop = .storeState i state)
    (hok : StoreOk s s.loop) :
    ButtonsOk { s with
      buttonStates := Function.update s.buttonStates i { s.buttonStates i with currentState := state }
      loop := .loadCount i } := by
  have hsame : ∀ j, SameButton (s.buttonStates j)
      (Function.update s.buttonStates i { s.buttonStates i with currentState := state } j) :=
    sameButton_update ⟨rfl, rfl, rfl, rfl⟩
  have hinit : ∀ {j}, (Function.update s.buttonStates i
      { s.buttonStates i with currentState := state } j).initialized → (s.buttonStates j).initialized :=
    fun {j} hj => (hsame j).initialized ▸ hj
  rw [hpc] at hok
  refine ⟨h.apart.of hsame, fun j hj => ?_, fun j hj => ?_⟩
  · exact (hsame j).initialized.trans (h.busy j (by rw [hpc]; exact hj))
  · by_cases hji : j = i
    · subst hji
      obtain ⟨⟨n, hcount, hn⟩, hsettled, hpress, -⟩ := h.button j (hinit hj)
      refine ⟨⟨n, ?_, ?_⟩, fun hd => ?_, fun hd hp => ?_, fun _ => .inr (.inl ?_)⟩
      · simp only [Function.update_self, hcount]
      · rw [Buttons.pressed_stored]
        exact hn
      · simp only [Buttons.pressed_stored, Function.update_self]
        rcases hok with hok | ⟨-, hdue⟩
        · exact hok.trans (hsettled hd)
        · exact absurd hdue (by rw [show s.due j = false from hd]; decide)
      · rw [Buttons.pressed_stored] at hp
        simp only [Function.update_self]
        rcases hok with hok | ⟨hok, -⟩
        · exact hok.trans (hpress hd hp)
        · exact hok
      · simp only [Buttons.settles, if_true]
    · have hb : Beside s { s with
          buttonStates := Function.update s.buttonStates i { s.buttonStates i with currentState := state }
          loop := .loadCount i } j := ⟨Function.update_of_ne hji _ _, rfl, rfl, rfl, rfl⟩
      refine (h.button j (hinit hj)).beside hb fun hs => hs.imp_right (hb.safe ?_).mpr
      simp only [Buttons.settles, hpc, Buttons.byte, if_neg (Ne.symm hji), Function.update_of_ne hji]

theorem Buttons.byte_publish {data : UInt8} {loop : ButtonPc} (hi : (s.buttonStates i).byteIndex ≤ 10) :
    Buttons.byte { s with
      dynamicreturndata :=
        if h : (s.buttonStates i).byteIndex.toNat < 11 then
          Function.update s.dynamicreturndata ⟨(s.buttonStates i).byteIndex.toNat, h⟩ data
        else s.dynamicreturndata
      loop := loop } j =
    if (s.buttonStates j).byteIndex = (s.buttonStates i).byteIndex then data else s.byte j := by
  have hlt : (s.buttonStates i).byteIndex.toNat < 11 := Nat.lt_succ_of_le (UInt8.le_iff_toNat_le.mp hi)
  simp only [Buttons.byte, dif_pos hlt]
  by_cases heq : (s.buttonStates j).byteIndex = (s.buttonStates i).byteIndex
  · rw [if_pos heq]
    simp only [heq, dif_pos hlt, Function.update_self]
  · rw [if_neg heq]
    split_ifs with hj
    · refine Function.update_of_ne (fun he => heq ?_) _ _
      exact UInt8.toNat_inj.mp (Fin.mk.inj he)
    · rfl

theorem ButtonsOk.buttonLoop (h : ButtonsOk s) (hok : ButtonStepOk s .loop) : ButtonsOk (buttonLoop s) := by
  have hbusy := h.busy
  unfold OpenDisplay.buttonLoop
  cases hpc : s.loop with
  | idle => exact h
  | lock =>
    refine h.moved (fun _ => ⟨rfl, rfl, rfl, rfl, rfl⟩) (fun j hj => ?_) (fun j _ => ?_) fun j hinit _ hlast => ?_
    · simp only at hj
      split_ifs at hj with hlt hinit
      · obtain rfl := Option.some.inj hj
        exact hinit
      · cases hj
      · cases hj
    · simp only [Buttons.settles, hpc]
      split_ifs with hlt hinit
      · simp only
        by_cases hij : (⟨s.lastChangedButtonIndex, hlt⟩ : Fin maxButtons) = j
        · exact .inr (if_pos hij)
        · exact .inl (if_neg hij)
      · exact .inl rfl
      · exact .inl rfl
    · refine .inr ?_
      have hlt : s.lastChangedButtonIndex < maxButtons := hlast ▸ j.isLt
      have hij : (⟨s.lastChangedButtonIndex, hlt⟩ : Fin maxButtons) = j := Fin.ext hlast
      simp only [Buttons.settles, dif_pos hlt, hij, hinit, if_true]
      rfl
  | readPin i =>
    rw [hpc] at hbusy
    refine h.moved (fun _ => ⟨rfl, rfl, rfl, rfl, rfl⟩) hbusy (fun j _ => .inl ?_)
      fun j _ hp hlast => .inl ⟨hp, hlast⟩
    simp only [Buttons.settles, hpc, Buttons.byte, Buttons.data]
  | storeState i state => exact h.stored hpc hok
  | loadCount i =>
    rw [hpc] at hbusy
    refine h.moved (fun _ => ⟨rfl, rfl, rfl, rfl, rfl⟩) hbusy (fun j _ => .inl ?_)
      fun j _ hp hlast => .inl ⟨hp, hlast⟩
    simp only [Buttons.settles, hpc]
    by_cases hij : i = j
    · subst hij
      rfl
    · rw [if_neg hij, if_neg hij]
      rfl
  | loadState i count =>
    rw [hpc] at hbusy
    refine h.moved (fun _ => ⟨rfl, rfl, rfl, rfl, rfl⟩) hbusy (fun j _ => .inl ?_)
      fun j _ hp hlast => .inl ⟨hp, hlast⟩
    simp only [Buttons.settles, hpc]
    by_cases hij : i = j
    · subst hij
      rfl
    · rw [if_neg hij, if_neg hij]
      rfl
  | publish i data =>
    rw [hpc] at hbusy
    have hi := hbusy i rfl
    refine h.moved (fun _ => ⟨rfl, rfl, rfl, rfl, rfl⟩) (fun j hj => by cases hj) (fun j hj => .inl ?_)
      fun j _ hp hlast => .inl ⟨hp, hlast⟩
    simp only [Buttons.settles, hpc, Buttons.byte_publish (h.apart.byteIndex i hi)]
    by_cases hij : i = j
    · subst hij
      rw [if_pos rfl, if_pos rfl]
    · rw [if_neg hij, if_neg fun he => hij (h.apart.distinct i j hi hj he.symm)]

theorem ButtonsOk.step (h : ButtonsOk s) {a : ButtonAct} (hok : ButtonStepOk s a) : ButtonsOk (buttonStep s a) := by
  cases a with
  | change i => exact h.pinChange i
  | isr i => exact h.buttonISR hok
  | call => exact h.processButtonEvents
  | loop => exact h.buttonLoop hok

theorem settleButtons_same (b : Fin maxButtons → ButtonState) (gpio : UInt8 → Bool) (j : Fin maxButtons) :
    SameButton (b j) ((settleButtons b gpio).buttonStates j) := by
  simp only [settleButtons]
  split_ifs
  · exact ⟨rfl, rfl, rfl, rfl⟩
  · exact ⟨rfl, rfl, rfl, rfl⟩

theorem ButtonsApart.settle (h : ButtonsApart b) (gpio : UInt8 → Bool) : ButtonsOk (settleButtons b gpio) := by
  have hsame := settleButtons_same b gpio
  refine ⟨h.of hsame, (fun j hj => by cases hj), fun j hj => ?_⟩
  have hinit : (b j).initialized := (hsame j).initialized ▸ hj
  have hbtn : (settleButtons b gpio).buttonStates j =
      { b j with currentState := logicalState ((b j).pressed (gpio (b j).pin)), pressCount := 0 } := if_pos hinit
  refine ⟨⟨0, by rw [hbtn]; rfl, by simp [settleButtons]⟩, fun _ => ?_, fun hd => ?_, fun hc => ?_⟩
  · rw [Buttons.pressed, hbtn]
    rfl
  · cases hd
  · cases hc

end Invariant

section Registered

/-- What `initButtons` registers: an identifier of three bits, and a byte index that it has checked. -/
def Registers (states : List ButtonState) : Prop := ∀ btn ∈ states, btn.buttonId ≤ 7 ∧ btn.byteIndex ≤ 10

theorem initButtonPin_registers {touchInt : UInt8 → Bool} {input : BinaryInputs} {states : List ButtonState}
    (hindex : input.buttonDataByteIndex ≤ 10) (h : Registers states) (pinIdx : Nat) :
    Registers (initButtonPin touchInt input states pinIdx) := by
  unfold initButtonPin
  simp only
  split_ifs with _ _ _ _ hid
  · exact h
  · exact h
  · exact h
  · exact h
  · intro btn hbtn
    rcases List.mem_append.mp hbtn with hbtn | hbtn
    · exact h btn hbtn
    · obtain rfl := List.mem_singleton.mp hbtn
      refine ⟨?_, hindex⟩
      rw [UInt8.le_iff_toNat_le, UInt8.toNat_mod]
      exact Nat.le_of_lt_succ (Nat.mod_lt _ (by decide))
  · intro btn hbtn
    rcases List.mem_append.mp hbtn with hbtn | hbtn
    · exact h btn hbtn
    · obtain rfl := List.mem_singleton.mp hbtn
      exact ⟨UInt8.not_lt.mp hid, hindex⟩

theorem initButtonInput_registers {touchInt : UInt8 → Bool} {input : BinaryInputs} {states : List ButtonState}
    (h : Registers states) : Registers (initButtonInput touchInt states input) := by
  unfold initButtonInput
  split_ifs with _ hindex
  · exact h
  · exact h
  · generalize List.range 8 = pins
    induction pins generalizing states with
    | nil => exact h
    | cons pinIdx pins ih => exact ih (initButtonPin_registers (UInt8.not_lt.mp hindex) h pinIdx)

/-- The identifiers and byte indices of the buttons of a configuration are in range. -/
theorem initButtons_registers (touchInt : UInt8 → Bool) (inputs : List BinaryInputs) :
    Registers (inputs.foldl (initButtonInput touchInt) []) := by
  suffices h : ∀ states, Registers states → Registers (inputs.foldl (initButtonInput touchInt) states) from
    h [] fun _ hbtn => absurd hbtn List.not_mem_nil
  induction inputs with
  | nil => exact fun _ h => h
  | cons input inputs ih => exact fun states h => ih _ (initButtonInput_registers h)

/-- Each button has a byte of its own. -/
def OwnBytes (b : Fin maxButtons → ButtonState) : Prop :=
  ∀ i j, (b i).initialized → (b j).initialized → (b i).byteIndex = (b j).byteIndex → i = j

/-- A configuration that gives each of its buttons a byte of its own registers them apart. -/
theorem initButtons_apart {touchInt : UInt8 → Bool} {inputs : List BinaryInputs} {gpio : UInt8 → Bool}
    (h : OwnBytes (initButtons touchInt inputs gpio).buttonStates) :
    ButtonsApart fun i => (inputs.foldl (initButtonInput touchInt) []).getD i.val {} := by
  generalize hb : (fun i : Fin maxButtons => (inputs.foldl (initButtonInput touchInt) []).getD i.val {}) = b
  have hreg : ∀ i, (b i).initialized → (b i).buttonId ≤ 7 ∧ (b i).byteIndex ≤ 10 := by
    intro i hi
    have hget : b i = (inputs.foldl (initButtonInput touchInt) []).getD i.val {} := (congrFun hb i).symm
    by_cases hlt : i.val < (inputs.foldl (initButtonInput touchInt) []).length
    · rw [hget, List.getD_eq_getElem _ _ hlt]
      exact initButtons_registers touchInt inputs _ (List.getElem_mem hlt)
    · rw [hget, List.getD_eq_default _ _ (Nat.le_of_not_lt hlt)] at hi
      cases hi
  have hinit : initButtons touchInt inputs gpio = settleButtons b gpio := by rw [← hb, initButtons]
  have hsame := settleButtons_same b gpio
  refine ⟨fun i hi => (hreg i hi).1, fun i hi => (hreg i hi).2, fun i j hi hj heq => ?_⟩
  rw [hinit] at h
  refine h i j ((hsame i).initialized.trans hi) ((hsame j).initialized.trans hj) ?_
  rw [(hsame i).byteIndex, (hsame j).byteIndex, heq]

end Registered

section Runs

instance (s : Buttons) : (pc : ButtonPc) → Decidable (StoreOk s pc)
  | .storeState i state => inferInstanceAs (Decidable (state = (s.buttonStates i).currentState ∨ _))
  | .idle | .lock | .readPin _ | .loadCount _ | .loadState _ _ | .publish _ _ => inferInstanceAs (Decidable True)

instance (s : Buttons) (i : Fin maxButtons) : Decidable (s.Safe i) := inferInstanceAs (Decidable (_ ∨ _))

instance (s : Buttons) : (a : ButtonAct) → Decidable (ButtonStepOk s a)
  | .isr i => inferInstanceAs (Decidable (s.due i → _ → s.buttonEventPending → ∀ j, _ = Fin.val j → j = i ∨ s.Safe j))
  | .loop => inferInstanceAs (Decidable (StoreOk s s.loop))
  | .change _ | .call => inferInstanceAs (Decidable True)

/-- Every button that has changed is shown at rest, as long as no handler takes the index from a
button that needs it and no call rewrites the state that a handler filters by. -/
theorem processButtonEvents_shown (gpio : UInt8 → Bool) (acts : List ButtonAct) :
    (∀ b : Fin maxButtons → ButtonState, ButtonsApart b → Each buttonStep ButtonStepOk (settleButtons b gpio) acts →
      ButtonsShown (buttonRun (settleButtons b gpio) acts)) ∧
    ∀ touchInt inputs, OwnBytes (initButtons touchInt inputs gpio).buttonStates →
      Each buttonStep ButtonStepOk (initButtons touchInt inputs gpio) acts →
        ButtonsShown (buttonRun (initButtons touchInt inputs gpio) acts) := by
  have hshown : ∀ b : Fin maxButtons → ButtonState, ButtonsApart b →
      Each buttonStep ButtonStepOk (settleButtons b gpio) acts →
        ButtonsShown (buttonRun (settleButtons b gpio) acts) := by
    intro b hb h
    have hok : ButtonsOk (buttonRun (settleButtons b gpio) acts) :=
      h.keeps (fun s a hs ha => hs.step ha) (hb.settle gpio)
    exact hok.buttonsShown
  exact ⟨hshown, fun touchInt inputs hown => hshown _ (initButtons_apart hown)⟩

/-- Two buttons, active high and low, with a byte each. -/
def twoButtons (i : Fin maxButtons) : ButtonState :=
  if i.val = 0 then { buttonId := 1, byteIndex := 0, pin := 4, initialized := true }
  else if i.val = 1 then { buttonId := 2, byteIndex := 1, pin := 5, inverted := true, initialized := true }
  else {}

theorem twoButtons_apart : ButtonsApart twoButtons := ⟨by decide, by decide, by decide⟩

/-- Two buttons of two instances, active high and low. -/
def twoInputs : List BinaryInputs :=
  [⟨0, odInputTypeButton, [0xFF, 4], 0, 0, 0⟩, ⟨0, odInputTypeButton, [0xFF, 0xFF, 5], 0, 4, 1⟩]

/-- The first button is pressed and shown, then the second one. -/
def twoPresses : List ButtonAct :=
  [.change 0, .isr 0, .call, .loop, .loop, .loop, .loop, .loop, .loop,
    .change 1, .isr 1, .call, .loop, .loop, .loop, .loop, .loop, .loop]

theorem processButtonEvents_shown_two :
    ButtonsShown (buttonRun (settleButtons twoButtons fun pin => pin = 5) twoPresses) ∧
      ButtonsShown (buttonRun (initButtons (fun _ => false) twoInputs fun pin => pin = 5) twoPresses) :=
  ⟨(processButtonEvents_shown _ twoPresses).1 twoButtons twoButtons_apart (by decide),
    (processButtonEvents_shown _ twoPresses).2 (fun _ => false) twoInputs (by unfold OwnBytes; decide) (by decide)⟩

/-- Two buttons are pressed between two calls, and the first one is never shown. A call that reads
the pin between a press and its handler makes the handler drop the press. -/
theorem processButtonEvents_lost : ButtonsApart twoButtons ∧
    ¬ ButtonsShown (buttonRun (settleButtons twoButtons fun pin => pin = 5) [.change 0, .isr 0, .change 1, .isr 1,
      .call, .loop, .loop, .loop, .loop, .loop, .loop]) ∧
    ¬ ButtonsShown (buttonRun (settleButtons twoButtons fun pin => pin = 5) [.change 0, .isr 0, .call, .loop,
      .change 0, .isr 0, .change 0, .loop, .loop, .loop, .loop, .loop, .isr 0,
      .call, .loop, .loop, .loop, .loop, .loop, .loop]) := by
  refine ⟨twoButtons_apart, ?_, ?_⟩
  · intro h
    have hshown := h ⟨by decide, by decide, by decide⟩ 0 (by decide) (by decide)
    exact absurd hshown (by decide)
  · intro h
    have hshown := h ⟨by decide, by decide, by decide⟩ 0 (by decide) (by decide)
    exact absurd hshown (by decide)

end Runs

end OpenDisplay
