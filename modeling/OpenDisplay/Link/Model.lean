import Mathlib.Data.List.FinRange
import Mathlib.Logic.Function.Basic
import Mathlib.Data.Fintype.Basic

/-! Who owns the link. The stack's host task and the loop task share the owner word, the
instance table and the event flags without a lock, and a step is one load, one store or
one exchange of one of the two tasks. -/

namespace OpenDisplay

section Words

/-- One BLE connection over its whole life. The stack uses handles again, and no two
connections share an epoch. -/
structure LinkId where
  handle : Nat
  epoch : Nat
deriving DecidableEq

inductive LinkWord where
  | unowned
  | ble (id : LinkId)
  | lan (epoch : Nat)
  | terminal
deriving DecidableEq

/-- What the two tasks do that the other one or a client can tell. -/
inductive LinkEvent where
  | claim (id : LinkWord) (won : Bool)
  | release (id : LinkWord) (won : Bool)
  | terminal
  | check (id : LinkId)
  | enqueue (handle : Nat) (tag : LinkId)
  | dispatch (tag : LinkId)
  | record (owner : LinkWord)
  | refuse (target : LinkId) (hit : Option LinkId)
  | cleanup (recorded owner : LinkWord) (present : Bool)
deriving DecidableEq

end Words

section Tasks

variable (n : Nat)

/-- Where a callback of the host task is. -/
inductive HostPc where
  | idle
  | publish (id : LinkId) (i : Nat)
  | clearDecided (id : LinkId) (i : Fin n)
  | claim (id : LinkId)
  | findDecided (handle : Nat) (word : Option LinkId) (i : Nat)
  | storeDecided (word : Option LinkId) (i : Fin n)
  | connected
  | findRetired (handle : Nat) (i : Nat)
  | retireDecided (handle : Nat) (i : Fin n)
  | retireWord (handle : Nat) (i : Fin n)
  | disconnected
  | findWriter (handle : Nat) (i : Nat)
  | loadWriter (handle : Nat) (i : Fin n)
  | checkWriter (handle : Nat) (id : LinkId)
  | push (handle : Nat) (id : LinkId)
deriving DecidableEq

/-- What the loop task asks `instanceLive` for. -/
inductive LiveFor where
  | connectWork (owner : LinkWord)
  | departure
  | cleanup (recorded : LinkWord)
  | refusal (i : Nat)
  | drop
  | dropAgain
  | wait
deriving DecidableEq

/-- Where the loop task is. -/
inductive LoopPc where
  | idle
  | takeConnected
  | eventsOwner
  | takeDisconnected
  | eventsToken
  | requestCleanup
  | cleanupOwner (recorded : LinkWord)
  | cleanupToken (recorded : LinkWord)
  | cleanupLan (recorded : LinkWord) (epoch : Nat)
  | refusalWord (i : Nat)
  | refusalDecided (i : Fin n) (w : LinkId)
  | refusalOwner (i : Fin n) (w : LinkId)
  | refuse (i : Nat) (w : LinkId)
  | live (id : LinkId) (i : Nat) (k : LiveFor)
  | liveLoad (id : LinkId) (i : Fin n) (k : LiveFor)
  | rxDiscard (drained : Nat)
  | rxCheck (tag : LinkId) (drained : Nat)
  | dispatch (tag : LinkId) (drained : Nat)
  | lanOwner
  | lanEpoch
  | lanClaim (epoch : Nat)
  | abortOwner (dropLink : Bool)
  | abort (dropLink : Bool) (owner : LinkWord)
  | drop (id : LinkId)
  | wait (id : LinkId)
  | release (owner : LinkWord)
  | markTerminal
deriving DecidableEq

/-- The shared words, the loop task's own ones, and where both tasks are. `links` are the
handles in use, `published` and `attempted` the connections that have been put into the
table and that have tried their claim, and `log` is what was done. -/
structure Link where
  word : Fin n → Option LinkId := fun _ => none
  decided : Fin n → Option LinkId := fun _ => none
  owner : LinkWord := .unowned
  epoch : Nat := 0
  connectedEvent : Bool := false
  disconnectedEvent : Bool := false
  rxq : List LinkId := []
  cleanupPending : Bool := false
  cleanupForOwner : LinkWord := .unowned
  connectWorkDoneFor : LinkWord := .unowned
  host : HostPc n := .idle
  loop : LoopPc n := .idle
  links : List Nat := []
  published : List LinkId := []
  attempted : List LinkId := []
  log : List LinkEvent := []

end Tasks

variable {n : Nat}

def Link.note (s : Link n) (e : LinkEvent) : Link n := { s with log := s.log ++ [e] }

/-- One compare-and-swap, which wins against the unowned word only. -/
def linkClaim (id : LinkWord) (s : Link n) : Link n :=
  let won : Bool := s.owner = .unowned
  Link.note { s with owner := if won then id else s.owner } (.claim id won)

/-- One compare-and-swap of the whole identity. -/
def linkRelease (id : LinkWord) (s : Link n) : Link n :=
  if id = .unowned ∨ id = .terminal then s
  else
    let won : Bool := s.owner = id
    Link.note { s with owner := if won then .unowned else s.owner } (.release id won)

def linkMarkTerminal (s : Link n) : Link n := Link.note { s with owner := .terminal } .terminal

inductive Scan (n : Nat) where
  | found (i : Fin n)
  | next
  | done

/-- One step of `instanceIndexOf`: the load of entry `i`. -/
def instanceIndexOf (s : Link n) (handle i : Nat) : Scan n :=
  if h : i < n then
    match s.word ⟨i, h⟩ with
    | some w => if w.handle = handle then .found ⟨i, h⟩ else .next
    | none => .next
  else .done

/-- The instance that the table has for a handle. -/
def instanceOf (s : Link n) (handle : Nat) : Option LinkId :=
  (List.finRange n).findSome? fun i => (s.word i).filter fun w => w.handle = handle

section Host

inductive HostCall where
  | connect (handle : Nat)
  | disconnect (handle : Nat)
  | write (handle : Nat)

/-- A callback begins when the one before it has returned. The stack has a handle for one
connection at a time, and the epoch of a connection is new. -/
def hostCall (c : HostCall) (s : Link n) : Link n :=
  if s.host ≠ .idle then s
  else
    match c with
    | .connect handle =>
      if handle ∈ s.links then s
      else { s with
        epoch := s.epoch + 1, links := handle :: s.links, host := .publish ⟨handle, s.epoch + 1⟩ 0 }
    | .disconnect handle =>
      if handle ∉ s.links then s
      else { s with links := s.links.filter (· ≠ handle), host := .findRetired handle 0 }
    | .write handle => if handle ∉ s.links then s else { s with host := .findWriter handle 0 }

/-- `stored` is whether the receive queue takes a frame. -/
def hostStep (stored : Bool) (s : Link n) : Link n :=
  match s.host with
  | .idle => s
  | .publish id i =>
    if h : i < n then
      if s.word ⟨i, h⟩ = none then
        { s with
          word := Function.update s.word ⟨i, h⟩ (some id), published := id :: s.published
          host := .clearDecided id ⟨i, h⟩ }
      else { s with host := .publish id (i + 1) }
    -- the table is full, and the connection is left without a word and without a claim
    else { s with host := .findDecided id.handle none 0 }
  | .clearDecided id i => { s with decided := Function.update s.decided i none, host := .claim id }
  | .claim id =>
    { linkClaim (.ble id) s with attempted := id :: s.attempted, host := .findDecided id.handle (some id) 0 }
  | .findDecided handle word i =>
    match instanceIndexOf s handle i with
    | .found j => { s with host := .storeDecided word j }
    | .next => { s with host := .findDecided handle word (i + 1) }
    | .done => { s with host := .connected }
  | .storeDecided word i => { s with decided := Function.update s.decided i word, host := .connected }
  | .connected => { s with connectedEvent := true, host := .idle }
  | .findRetired handle i =>
    match instanceIndexOf s handle i with
    | .found j => { s with host := .retireDecided handle j }
    | .next => { s with host := .findRetired handle (i + 1) }
    | .done => { s with host := .disconnected }
  | .retireDecided handle i =>
    { s with decided := Function.update s.decided i none, host := .retireWord handle i }
  | .retireWord _ i => { s with word := Function.update s.word i none, host := .disconnected }
  | .disconnected => { s with disconnectedEvent := true, host := .idle }
  | .findWriter handle i =>
    match instanceIndexOf s handle i with
    | .found j => { s with host := .loadWriter handle j }
    | .next => { s with host := .findWriter handle (i + 1) }
    | .done => { s with host := .idle }
  | .loadWriter handle i =>
    match s.word i with
    | some id => { s with host := .checkWriter handle id }
    | none => { s with host := .idle }
  | .checkWriter handle id =>
    if s.owner = .ble id then { s with host := .push handle id }.note (.check id) else { s with host := .idle }
  | .push handle id =>
    if stored then { s with rxq := s.rxq ++ [id], host := .idle }.note (.enqueue handle id)
    else { s with host := .idle }

end Host

section Loop

inductive LoopCall where
  | events
  | disconnectCleanup (refreshInProgress : Bool)
  | contenderRefusal
  | rx
  | lanAccept
  | lanDisconnect
  | abort (dropLink : Bool)
  | markTerminal

def loopCall (c : LoopCall) (s : Link n) : Link n :=
  if s.loop ≠ .idle then s
  else
    match c with
    | .events => { s with loop := .takeConnected }
    | .disconnectCleanup refreshInProgress =>
      if ¬ s.cleanupPending ∨ refreshInProgress then s
      else { s with
        cleanupPending := false, cleanupForOwner := .unowned
        loop := if s.cleanupForOwner = .unowned then .idle else .cleanupOwner s.cleanupForOwner }
    | .contenderRefusal => { s with loop := .refusalWord 0 }
    | .rx => { s with loop := .rxDiscard 0 }
    | .lanAccept => { s with loop := .lanOwner }
    | .lanDisconnect => { s with loop := .requestCleanup }
    | .abort dropLink => { s with loop := .abortOwner dropLink }
    | .markTerminal => { s with loop := .markTerminal }

/-- What follows `instanceLive`. -/
def liveResult (s : Link n) (id : LinkId) (k : LiveFor) (isLive : Bool) : Link n :=
  match k with
  | .connectWork owner =>
    if isLive then { s with connectWorkDoneFor := owner, loop := .takeDisconnected }
    else { s with loop := .takeDisconnected }
  | .departure => if isLive then { s with loop := .idle } else { s with loop := .requestCleanup }
  | .cleanup recorded =>
    if isLive then { s with loop := .idle }
    else
      { s with loop := .abort false (.ble id) }.note (.cleanup recorded (.ble id) (∃ i, s.word i = some id))
  | .refusal i => if isLive then { s with loop := .refuse i id } else { s with loop := .refusalWord (i + 1) }
  | .drop => if isLive then { s with loop := .live id 0 .dropAgain } else { s with loop := .release (.ble id) }
  | .dropAgain => if isLive then { s with loop := .drop id } else { s with loop := .wait id }
  | .wait => if isLive then { s with loop := .wait id } else { s with loop := .release (.ble id) }

/-- `odRxqSlots` bounds a drain of the receive queue. -/
def odRxqSlots : Nat := 34

/-- `b` is what the step meets: whether the LAN client is still connected, whether a frame is
consumed, whether the wait for a link has run out. -/
def loopStep (b : Bool) (s : Link n) : Link n :=
  match s.loop with
  | .idle => s
  | .takeConnected => { s with connectedEvent := false, loop := .eventsOwner }
  | .eventsOwner =>
    match s.owner with
    | .ble id =>
      if s.owner ≠ s.connectWorkDoneFor then { s with loop := .live id 0 (.connectWork (.ble id)) }
      else { s with loop := .takeDisconnected }
    | _ => { s with loop := .takeDisconnected }
  | .takeDisconnected =>
    if s.disconnectedEvent then { s with disconnectedEvent := false, loop := .eventsToken }
    else { s with loop := .idle }
  | .eventsToken =>
    match s.owner with
    | .ble id => { s with loop := .live id 0 .departure }
    | _ => { s with loop := .idle }
  | .requestCleanup =>
    { s with cleanupForOwner := s.owner, cleanupPending := true, loop := .idle }.note (.record s.owner)
  | .cleanupOwner recorded =>
    if s.owner ≠ recorded then { s with loop := .idle } else { s with loop := .cleanupToken recorded }
  | .cleanupToken recorded =>
    match s.owner with
    | .ble id => { s with loop := .live id 0 (.cleanup recorded) }
    | .lan epoch => { s with loop := .cleanupLan recorded epoch }
    | owner => { s with loop := .abort false owner }.note (.cleanup recorded owner false)
  | .cleanupLan recorded epoch =>
    if b then { s with loop := .idle }
    else { s with loop := .abort false (.lan epoch) }.note (.cleanup recorded (.lan epoch) b)
  | .refusalWord i =>
    if h : i < n then
      match s.word ⟨i, h⟩ with
      | none => { s with loop := .refusalWord (i + 1) }
      | some w => { s with loop := .refusalDecided ⟨i, h⟩ w }
    else { s with loop := .idle }
  | .refusalDecided i w =>
    if s.decided i ≠ some w then { s with loop := .refusalWord (i + 1) } else { s with loop := .refusalOwner i w }
  | .refusalOwner i w =>
    if s.owner = .ble w then { s with loop := .refusalWord (i + 1) } else { s with loop := .live w 0 (.refusal i) }
  | .refuse i w =>
    -- the stack is given the handle alone
    { s with loop := .refusalWord (i + 1) }.note (.refuse w (instanceOf s w.handle))
  | .live id i k =>
    match instanceIndexOf s id.handle i with
    | .found j => { s with loop := .liveLoad id j k }
    | .next => { s with loop := .live id (i + 1) k }
    | .done => liveResult s id k false
  | .liveLoad id i k => liveResult s id k (s.word i = some id)
  | .rxDiscard drained =>
    if drained ≥ odRxqSlots then { s with loop := .idle }
    else
      match s.rxq with
      | [] => { s with loop := .idle }
      | tag :: rest =>
        if s.owner = .ble tag then { s with loop := .rxCheck tag drained }
        else { s with rxq := rest, loop := .rxDiscard drained }
  | .rxCheck tag drained =>
    if s.owner = .ble tag then { s with loop := .dispatch tag drained } else { s with loop := .rxDiscard drained }
  | .dispatch tag drained =>
    let s := s.note (.dispatch tag)
    if b then { s with rxq := s.rxq.tail, loop := .rxDiscard (drained + 1) } else { s with loop := .idle }
  | .lanOwner => if s.owner ≠ .unowned then { s with loop := .idle } else { s with loop := .lanEpoch }
  | .lanEpoch => { s with epoch := s.epoch + 1, loop := .lanClaim (s.epoch + 1) }
  | .lanClaim epoch => { linkClaim (.lan epoch) s with loop := .idle }
  | .abortOwner dropLink => { s with loop := .abort dropLink s.owner }
  | .abort dropLink owner =>
    { s with
      rxq := []
      loop := match dropLink, owner with
        | true, .ble id => .live id 0 .drop
        | _, _ => .release owner }
  | .drop id => { s with loop := .wait id }
  | .wait id => if b then { s with loop := .release (.ble id) } else { s with loop := .live id 0 .wait }
  | .release owner => { linkRelease owner s with loop := .idle }
  | .markTerminal => { linkMarkTerminal s with loop := .abort false s.owner }

end Loop

section Runs

inductive LinkAct where
  | hostCall (c : HostCall)
  | host (stored : Bool)
  | loopCall (c : LoopCall)
  | loop (b : Bool)

/-- One step of one of the tasks. -/
def linkStep (s : Link n) : LinkAct → Link n
  | .hostCall c => hostCall c s
  | .host stored => hostStep stored s
  | .loopCall c => loopCall c s
  | .loop b => loopStep b s

def linkRun (acts : List LinkAct) (s : Link n) : Link n := acts.foldl linkStep s

end Runs

end OpenDisplay
