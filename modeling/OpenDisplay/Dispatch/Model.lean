import OpenDisplay.Dispatch.Nfc
import OpenDisplay.Xfer.Step

/-! The command path: a frame is checked, room for its replies is reserved, it passes
the gate, and its handler runs. -/

namespace OpenDisplay

def cmdReboot : UInt16 := 0x000f
def cmdConfigRead : UInt16 := 0x0040
def cmdConfigWrite : UInt16 := 0x0041
def cmdConfigChunk : UInt16 := 0x0042
def cmdFirmwareVersion : UInt16 := 0x0043
def cmdReadMsd : UInt16 := 0x0044
def cmdConfigClear : UInt16 := 0x0045
def cmdAuthenticate : UInt16 := 0x0050
def cmdEnterDfu : UInt16 := 0x0051
def cmdPowerOff : UInt16 := 0x0052
def cmdDeepSleep : UInt16 := 0x0053
def cmdDirectWriteStart : UInt16 := 0x0070
def cmdDirectWriteData : UInt16 := 0x0071
def cmdDirectWriteEnd : UInt16 := 0x0072
def cmdLedActivate : UInt16 := 0x0073
def cmdLedStop : UInt16 := 0x0075
def cmdPartialWriteStart : UInt16 := 0x0076
def cmdBuzzer : UInt16 := 0x0077
def cmdPipeWriteStart : UInt16 := 0x0080
def cmdPipeWriteData : UInt16 := 0x0081
def cmdPipeWriteEnd : UInt16 := 0x0082
def cmdNfcEndpoint : UInt16 := 0x0083

def odDispatchMaxBle : Nat := 244
def odDispatchMaxLan : Nat := 4094
def respConfigRead : UInt8 := 0x40
def maxResponseDataSize : Nat := 100

inductive FrameOutcome where
  | accepted | handlerNack | authControl | authEstablished | discovery | authRequired
  | cryptoFailed | cryptoDropped | rejectedFrame | unknownOpcode | staleTag | deferred
deriving DecidableEq

/-- What a target is built with. The profile decides whether it has PIPE and partial
transfers. -/
structure Build where
  profile : Profile
  capNfc : Bool

def Build.capPipe (b : Build) : Bool := b.profile ≠ .silabs

def Build.capPartial (b : Build) : Bool := b.profile ≠ .silabs

/-- The handlers that opcodes are routed to, those of the target first. -/
inductive Hook where
  | reboot | configRead | configWrite | configChunk | readMsd | configClear | enterDfu
  | powerOff | deepSleep | ledActivate | ledStop | buzzer
  | directStart | data | finish | partialStart | pipeStart | pipeData | pipeEnd | nfcFrame
deriving DecidableEq

structure Row where
  cmd : UInt16
  hook : Hook
  budget : UInt8

def odDispatchOpcodeRows (b : Build) : List Row :=
  [⟨cmdReboot, .reboot, 1⟩, ⟨cmdConfigRead, .configRead, 1⟩, ⟨cmdConfigWrite, .configWrite, 1⟩,
    ⟨cmdConfigChunk, .configChunk, 1⟩, ⟨cmdReadMsd, .readMsd, 1⟩, ⟨cmdConfigClear, .configClear, 1⟩,
    ⟨cmdEnterDfu, .enterDfu, 1⟩, ⟨cmdPowerOff, .powerOff, 1⟩, ⟨cmdDeepSleep, .deepSleep, 1⟩,
    ⟨cmdDirectWriteStart, .directStart, 1⟩, ⟨cmdDirectWriteData, .data, 2⟩, ⟨cmdDirectWriteEnd, .finish, 2⟩,
    ⟨cmdLedActivate, .ledActivate, 1⟩, ⟨cmdLedStop, .ledStop, 1⟩,
    ⟨cmdPartialWriteStart, .partialStart, 1⟩, ⟨cmdBuzzer, .buzzer, 1⟩, ⟨cmdPipeWriteStart, .pipeStart, 1⟩,
    ⟨cmdPipeWriteData, .pipeData, if b.capPipe then 3 else 1⟩,
    ⟨cmdPipeWriteEnd, .pipeEnd, if b.capPipe then 3 else 1⟩, ⟨cmdNfcEndpoint, .nfcFrame, 1⟩]

/-- The row that an opcode is routed by. -/
def Build.row (b : Build) (cmd : UInt16) : Option Row := (odDispatchOpcodeRows b).find? (·.cmd = cmd)

def odDispatchBudget (b : Build) (cmd : UInt16) : UInt8 :=
  match b.row cmd with
  | some row => row.budget
  | none => 1

structure ConfigRead where
  active : Bool := false
  rp : Reply := {}
  res : Token := {}
  blob : Bytes := []
  offset : Nat := 0
  chunk : UInt16 := 0

/-- The handler of a configuration read: what it does before it starts the read, the
blob, empty if it could not be loaded, and what it does afterwards. -/
structure ReadRun where
  first : List TargetAct
  blob : Bytes
  env : ReplyEnv
  last : List TargetAct
  result : CmdResult

/-- Everything that one frame may ask of the target. Hooks and replies of a transfer
may answer by all that has happened. `barrierResets` says whether the target resets the
core when a refresh barrier is given up, as `od_xfer_app_barrier_abort` of BG22 does, and
`sleeps` whether a handler of the target ends in such a reset, as that of deep sleep does
on ESP32. -/
structure DispatchEnv where
  live : Bool
  mutatesConfig : UInt16 → Bool
  allowUnauthenticated : UInt16 → Bool
  sec : Option SecurityConfig
  deviceId : DeviceId
  aliveMs : UInt32
  gateMs : UInt32
  hal : Hal
  answer : ReplyEnv
  app : App
  hooks : List Event → List HookAct
  replyEnv : List Event → ReplyEnv
  nfc : NfcApp
  read : Ctx → Bytes → ReadRun
  handler : Hook → Ctx → Bytes → List TargetAct × CmdResult
  firmwareVersion : Ctx → Bytes → List TargetAct × CmdResult
  barrierResets : Bool := false
  sleeps : Hook → Ctx → Bytes → Bool := fun _ _ _ => false

/-- The machines whose state outlives a frame. -/
structure Machines where
  dev : Dev
  nfc : Nfc := {}
  read : ConfigRead := {}

structure Core (slots : Nat) extends Machines where
  session : Session
  q : Txq slots

section ConfigReads

variable {slots : Nat} [NeZero slots]

/-- The next chunk of a read, on the token at hand. -/
def emitChunk (c : ConfigRead) (env : ReplyEnv) (k : Desk slots) : TxqStatus × ConfigRead × Desk slots :=
  let header := [respAck, respConfigRead, c.chunk.toUInt8, (c.chunk >>> 8).toUInt8] ++
    if c.chunk = 0 then [UInt8.ofNat c.blob.length, UInt8.ofNat (c.blob.length / 256)] else []
  let take := min (c.blob.length - c.offset) (maxResponseDataSize - header.length)
  match k.reply c.rp (header ++ (c.blob.drop c.offset).take take) env with
  | (.ok, k) =>
    (.ok,
      { c with
        offset := c.offset + take, chunk := c.chunk + 1
        active := if c.blob.length ≤ c.offset + take then false else c.active }, k)
  | (status, k) => (status, c, k)

/-- The token is handed over: the reader keeps what is left of it. -/
def odConfigReadStart (rp : Reply) (blob : Bytes) (env : ReplyEnv) (c : ConfigRead) (k : Desk slots) :
    TxqStatus × ConfigRead × Desk slots :=
  if c.active then (.invariant, c, k)
  else
    let c : ConfigRead := { rp := rp }
    if blob = [] then
      let (status, k) := k.replyPlain rp [respNack, respConfigRead, 0x00, 0x00] env
      (status, c, k)
    else
      let given := { k.token with remaining := 0 }
      match emitChunk { c with blob := blob, active := true, res := k.token } env k with
      | (.ok, c, k) => (.ok, { c with res := k.token }, { k with token := given })
      | (status, c, k) =>
        (status, { c with res := k.release.token, active := false }, { k.release with token := given })

def odConfigReadCancel (c : ConfigRead) (q : Txq slots) : ConfigRead × Txq slots :=
  if ¬ c.active then (c, q)
  else
    let (q, res) := odTxqRelease q c.res
    ({ c with res := res, active := false, blob := [] }, q)

def odConfigReadPump (env : ReplyEnv) (core : Core slots) : TxqStatus × Core slots :=
  if ¬ core.read.active then (.ok, core)
  else
    match odTxqReserve core.q 1 {} with
    | (.ok, q, token) =>
      let (status, c, k) := emitChunk core.read env { session := core.session, q := q, token := token }
      let k := k.release
      let (c, q) := if status ≠ .ok ∧ status ≠ .full then odConfigReadCancel c k.q else (c, k.q)
      (status, { core with read := c, session := k.session, q := q })
    | (status, q, _) => (status, { core with q := q })

end ConfigReads

/-- What a reset of the core leaves of the machines. The queue is reset after the read is
cancelled, so it does not matter what the reader gives back. -/
def Machines.reset {slots : Nat} (m : Machines) (q : Txq slots) : Machines :=
  { dev := odXferReset m.dev, nfc := odNfcReset m.nfc, read := (odConfigReadCancel m.read q).1 }

section Transfers

variable {slots : Nat} [NeZero slots] (env : DispatchEnv)

/-- What an event of a transfer does at the desk. -/
def Desk.event (k : Desk slots) (pre : List Event) (e : Event) : Desk slots :=
  let k := k.hooks (env.hooks pre)
  match e with
  | .reply rp frame _ => (k.reply rp frame (env.replyEnv pre)).2
  | .replyPlain rp frame => (k.replyPlain rp frame (env.replyEnv pre)).2
  | .barrierAbort _ => if env.barrierResets then k.reset else k
  | _ => k

def Desk.replay (k : Desk slots) : List Event → List Event → Desk slots
  | _, [] => k
  | pre, e :: es => Desk.replay (k.event env pre e) (pre ++ [e]) es

/-- The target's hooks, with the replies answered by the desk. -/
def DispatchEnv.bound (k : Desk slots) (base : List Event) : App :=
  { env.app with
    reply := fun es rp frame =>
      (((k.replay env base (es.drop base.length)).hooks (env.hooks es)).reply rp frame (env.replyEnv es)).1 }

/-- A handler of the transfer machine at the desk. -/
def atDesk (run : App → Dev → CmdResult × Dev) (m : Machines) (k : Desk slots) :
    CmdResult × Machines × Desk slots :=
  let (result, dev) := run (env.bound k m.dev.events) m.dev
  (result, { m with dev := dev }, k.replay env m.dev.events (dev.events.drop m.dev.events.length))

end Transfers

section Routing

variable {slots : Nat} [NeZero slots] (b : Build) (env : DispatchEnv) (ctx : Ctx) (body : Bytes)

def unsupportedStart (opcode error : UInt8) (d : Dev) : CmdResult × Dev :=
  (.nack, odXferReplyError ctx [respNack, opcode, error, 0] d)

def targetHandler (run : List TargetAct × CmdResult) (m : Machines) (k : Desk slots) :
    CmdResult × Machines × Desk slots :=
  (run.2, m, k.acts ctx.rp run.1)

def configReadHandler (run : ReadRun) (m : Machines) (k : Desk slots) : CmdResult × Machines × Desk slots :=
  let (_, read, k) := odConfigReadStart ctx.rp run.blob run.env m.read (k.acts ctx.rp run.first)
  (run.result, { m with read := read }, k.acts ctx.rp run.last)

def Hook.handle (hook : Hook) (m : Machines) (k : Desk slots) : CmdResult × Machines × Desk slots :=
  match hook with
  | .directStart => atDesk env (fun app => odXferDirectStart app ctx body) m k
  | .data => atDesk env (fun app => odXferData app ctx body) m k
  | .finish => atDesk env (fun app => odXferEnd app ctx body) m k
  | .partialStart =>
    if b.capPartial then atDesk env (fun app => odXferPartialStart app ctx body) m k
    else atDesk env (fun _ => unsupportedStart ctx respPartialWriteStart errPartialUnsupported) m k
  | .pipeStart =>
    if b.capPipe then atDesk env (fun app => odPipeStart app ctx body) m k
    else atDesk env (fun _ => unsupportedStart ctx respPipeStart 0x04) m k
  | .pipeData =>
    if b.capPipe then atDesk env (fun app => odPipeData app ctx body) m k else (.unknown, m, k)
  | .pipeEnd =>
    if b.capPipe then atDesk env (fun app => odPipeEnd app ctx body) m k else (.unknown, m, k)
  | .nfcFrame =>
    let (result, nfc, k) := odNfcFrame env.nfc ctx b.capNfc body m.nfc k
    (result, { m with nfc := nfc }, k)
  | .configRead => configReadHandler ctx (env.read ctx body) m k
  | hook =>
    let (result, m, k) := targetHandler ctx (env.handler hook ctx body) m k
    (result, m, if env.sleeps hook ctx body then k.reset else k)

/-- A handler, and what a reset under it does to the machines: a reset is the last thing
that a handler does. -/
def Hook.run (hook : Hook) (m : Machines) (k : Desk slots) : CmdResult × Machines × Desk slots :=
  let (result, m, k') := hook.handle b env ctx body m k
  (result, if k'.resets = k.resets then m else m.reset k'.q, k')

def dispatchPlain (cmd : UInt16) (m : Machines) (k : Desk slots) : CmdResult × Machines × Desk slots :=
  match b.row cmd with
  | some row => row.hook.run b env ctx body m k
  | none => (.unknown, m, k)

def outcomeOf : CmdResult → FrameOutcome
  | .ok => .accepted
  | .nack => .handlerNack
  | .authRejected => .authRequired
  | .unknown => .unknownOpcode

end Routing

section Gate

variable {slots : Nat} [NeZero slots] (env : DispatchEnv) (rp : Reply)

def queueStatus (cmd : UInt16) (status : UInt8) (k : Desk slots) : Desk slots :=
  (k.replyPlain rp [respAck, cmd.toUInt8, status] env.answer).2

/-- The request that a frame with this body makes. -/
def gateRequest (body : Bytes) : AuthCall :=
  { sec := env.sec, deviceId := some env.deviceId, body := some body, nowMs := env.gateMs
    rspCap := some odSessionReplyMax, hal := env.hal }

def odGateAuthenticate (body : Bytes) (k : Desk slots) : FrameOutcome × Desk slots :=
  let out := odSessionAuthenticate k.session (gateRequest env body)
  let k := { k with session := out.session }
  match out.result with
  | .challenge => (.authControl, (k.replyPlain rp out.rsp env.answer).2)
  | .established => (.authEstablished, (k.replyPlain rp out.rsp env.answer).2)
  | .rejected | .rateLimited | .notConfigured | .malformed | .expired | .cryptoError =>
    (.authControl, (k.replyPlain rp out.rsp env.answer).2)
  | .noRoom | .badArgument => (.authControl, queueStatus env rp cmdAuthenticate authStatusError k)

/-- The call that opens the envelope of a frame. -/
def gateOpen (cmd : UInt16) (envelope : Bytes) (scratchCap : Nat) : OpenCall :=
  { cmd := cmd, envelope := some envelope, outCap := some scratchCap, nowMs := env.gateMs, hal := env.hal }

def odGateOpen (cmd : UInt16) (envelope : Bytes) (scratch : Option Nat) (k : Desk slots) :
    FrameOutcome × Bytes × Desk slots :=
  match scratch with
  | none => (.cryptoFailed, [], queueStatus env rp cmd respNack k)
  | some scratchCap =>
    if scratchCap < odSessionPlainMax then (.cryptoFailed, [], queueStatus env rp cmd respNack k)
    else
      let out := odSessionOpen k.session (gateOpen env cmd envelope scratchCap)
      let k := { k with session := out.session }
      match out.result with
      | .ok => (.accepted, out.out, k)
      | .noSession => (.authRequired, [], queueStatus env rp cmd respAuthRequired k)
      | .replay =>
        if cmd = cmdPipeWriteData ∧ (out.nonceReason = .replay ∨ out.nonceReason = .outOfWindow) then
          (.cryptoDropped, [], k)
        else (.cryptoFailed, [], queueStatus env rp cmd respNack k)
      | .wrongSession | .badTag | .badLength | .short | .tooLong | .cryptoError =>
        (.cryptoFailed, [], queueStatus env rp cmd respNack k)
      | .noRoom => (.cryptoFailed, [], queueStatus env rp cmd respNack k)

end Gate

section Dispatch

variable {slots : Nat} [NeZero slots] (b : Build) (env : DispatchEnv)

/-- The handler that a frame was routed to, with what it was given. -/
structure Invocation where
  cmd : UInt16
  ctx : Ctx
  body : Bytes

/-- `entered` has the desk as it was when the gate or a handler was called, `invoked`
the handler that the frame was routed to, and `resets` how often the core was reset
meanwhile, for the proofs. -/
structure DispatchResult (slots : Nat) where
  outcome : FrameOutcome
  core : Core slots
  entered : List (Desk slots) := []
  invoked : Option Invocation := none
  resets : Nat := 0

def originCeiling : Origin → Nat
  | .ble => odDispatchMaxBle
  | _ => odDispatchMaxLan

/-- Liveness is asked first, so that the target is asked only when there is no session. -/
def unauthenticatedExempt (cmd : UInt16) (k : Desk slots) : Bool × Desk slots :=
  let (alive, session) := odSessionAlive k.session env.aliveMs
  (!alive && env.allowUnauthenticated cmd, { k with session := session })

def refuseOversize (rp : Reply) (cmd : UInt16) (core : Core slots) : Core slots :=
  match odTxqReserve core.q 1 {} with
  | (.ok, q, token) =>
    let (_, k) := Desk.replyPlain rp [respNack, cmd.toUInt8, 0xfe] env.answer
      { session := core.session, q := q, token := token }
    { core with session := k.release.session, q := k.release.q }
  | (_, q, _) => { core with q := q }

/-- The frame is done with: what is left of the token goes back. -/
def finishFrame (outcome : FrameOutcome) (m : Machines) (k : Desk slots) (entered : List (Desk slots))
    (invoked : Option Invocation) : DispatchResult slots :=
  { outcome := outcome, core := { m with session := k.release.session, q := k.release.q }, entered := entered
    invoked := invoked, resets := k.resets }

def runHandler (ctx : Ctx) (cmd : UInt16) (body : Bytes) (m : Machines) (k : Desk slots)
    (entered : List (Desk slots)) : DispatchResult slots :=
  let (result, m, k') := dispatchPlain b env ctx body cmd m k
  finishFrame (outcomeOf result) m k' (entered ++ [k])
    (if (b.row cmd).isSome then some { cmd := cmd, ctx := ctx, body := body } else none)

/-- A frame for which room is reserved. -/
def dispatchReserved (rp : Reply) (wireLen : UInt16) (cmd : UInt16) (body : Bytes) (m : Machines)
    (k : Desk slots) : DispatchResult slots :=
  if cmd = cmdAuthenticate then
    let (outcome, k') := odGateAuthenticate env rp body k
    finishFrame outcome m k' [k] none
  else if cmd = cmdFirmwareVersion then
    let ctx : Ctx := { rp := rp, wireLen := wireLen, wasProtected := false }
    let (result, m, k') := targetHandler ctx (env.firmwareVersion ctx body) m k
    finishFrame (if result = .ok then .discovery else outcomeOf result) m k' [k] none
  else if rp.origin ≠ .lanTls ∧ odSessionSecurityEnabled env.sec then
    match unauthenticatedExempt env cmd k with
    | (true, k) => runHandler b env { rp := rp, wireLen := wireLen, wasProtected := false } cmd body m k []
    | (false, k) =>
      match odGateOpen env rp cmd body (some odSessionPlainMax) k with
      | (.accepted, body, k') =>
        runHandler b env { rp := rp, wireLen := wireLen, wasProtected := true } cmd body m k' [k]
      | (outcome, _, k') => finishFrame outcome m k' [k] none
  else runHandler b env { rp := rp, wireLen := wireLen, wasProtected := false } cmd body m k []

def odDispatchFrame (rp : Option Reply) (frame : Span) (core : Core slots) : DispatchResult slots :=
  match rp, frame with
  | some rp, some frame =>
    if frame.length < 2 then { outcome := .rejectedFrame, core := core }
    else
      let cmd := readBe16 frame
      if originCeiling rp.origin < frame.length then
        { outcome := .rejectedFrame, core := refuseOversize env rp cmd core }
      else if ¬ env.live then { outcome := .staleTag, core := core }
      else if core.read.active ∧ (cmd = cmdConfigRead ∨ env.mutatesConfig cmd) then
        { outcome := .deferred, core := core }
      else
        match odTxqReserve core.q (odDispatchBudget b cmd) {} with
        | (.ok, q, token) =>
          dispatchReserved b env rp (UInt16.ofNat frame.length) cmd (frame.drop 2) core.toMachines
            { session := core.session, q := q, token := token }
        | (_, q, _) => { outcome := .deferred, core := { core with q := q } }
  | _, _ => { outcome := .rejectedFrame, core := core }

end Dispatch

section Runs

variable {slots : Nat} [NeZero slots]

def odCoreReset (core : Core slots) : Core slots :=
  { core.toMachines.reset core.q with
    session := odSessionClear core.session, q := odTxqReset (odConfigReadCancel core.read core.q).2 }

/-- What happens to the device from outside: a frame, a teardown, a pass of the
configuration reader, or what the target does of its own accord. -/
inductive CoreAct where
  | frame (env : DispatchEnv) (rp : Option Reply) (frame : Span)
  | reset
  | pump (env : ReplyEnv)
  | hook (a : HookAct)

def Core.hook (core : Core slots) (a : HookAct) : Core slots :=
  let k := Desk.hook { session := core.session, q := core.q, token := {} } a
  { core with session := k.session, q := k.q }

def Core.step (b : Build) (core : Core slots) : CoreAct → Core slots
  | .frame env rp frame => (odDispatchFrame b env rp frame core).core
  | .reset => odCoreReset core
  | .pump env => (odConfigReadPump env core).2
  | .hook a => core.hook a

def Core.boot (slots : Nat) [NeZero slots] (slot : UInt8) (etag : UInt32) : Core slots :=
  { dev := Dev.boot etag, session := odSessionInit slot, q := Txq.init slots }

/-- One step of a run, and the core it found. -/
structure CoreEntry (slots : Nat) where
  before : Core slots
  act : CoreAct

/-- The steps of a run from a core on. -/
def coreEntries (b : Build) : Core slots → List CoreAct → List (CoreEntry slots)
  | _, [] => []
  | core, a :: acts => ⟨core, a⟩ :: coreEntries b (core.step b a) acts

end Runs

section Rules

variable {slots : Nat} [NeZero slots] {I : Desk slots → Prop} {k k' : Desk slots} {env : DispatchEnv}

theorem HandlerRule.event (rule : HandlerRule I) (h : I k) (pre : List Event) (e : Event) : I (k.event env pre e) := by
  have hhooks := rule.hooks h (env.hooks pre)
  cases e with
  | reply rp frame status => exact rule.reply hhooks rp frame _
  | replyPlain rp frame => exact rule.replyPlain hhooks rp frame _
  | barrierAbort owner =>
    unfold Desk.event
    dsimp only
    split_ifs
    · exact rule.reset hhooks
    · exact hhooks
  | _ => exact hhooks

theorem HandlerRule.replay (rule : HandlerRule I) (h : I k) (pre es : List Event) : I (k.replay env pre es) := by
  induction es generalizing k pre with
  | nil => exact h
  | cons e es ih => exact ih (rule.event h pre e) _

theorem DeskRule.once {app : NfcApp} {ctx : Ctx} (rule : DeskRule I) (h : I k) (ho : RepliesOnce app ctx k k') :
    I k' := by
  cases ho with
  | reply acts frame => exact rule.reply (rule.hooks h acts) _ _ _
  | replyPlain acts frame => exact rule.replyPlain (rule.hooks h acts) _ _ _

theorem DeskRule.chunk (rule : DeskRule I) (h : I k) (c : ConfigRead) (renv : ReplyEnv) :
    I (emitChunk c renv k).2.2 := by
  unfold emitChunk
  dsimp only
  split
  · next k' hk =>
    obtain rfl := congrArg Prod.snd hk
    exact rule.reply h _ _ _
  · next status k' _ hk =>
    obtain rfl := congrArg Prod.snd hk
    exact rule.reply h _ _ _

/-- A handler keeps what its acts keep, and leaves the reader alone, unless it starts
a read: a read takes the token over. -/
theorem HandlerRule.handle (rule : HandlerRule I) (h : I k) (env : DispatchEnv) (b : Build) (ctx : Ctx)
    (body : Bytes) {hook : Hook} (hread : hook ≠ .configRead) (m : Machines) :
    I (hook.handle b env ctx body m k).2.2 ∧ (hook.handle b env ctx body m k).2.1.read = m.read := by
  have hdesk : ∀ run, I (atDesk env run m k).2.2 ∧ (atDesk env run m k).2.1.read = m.read :=
    fun run => ⟨rule.replay h _ _, rfl⟩
  have htarget := rule.acts h ctx.rp (env.handler hook ctx body).1
  have hsleep : I (if env.sleeps hook ctx body then (k.acts ctx.rp (env.handler hook ctx body).1).reset
      else k.acts ctx.rp (env.handler hook ctx body).1) := by
    split_ifs
    · exact rule.reset htarget
    · exact htarget
  cases hook with
  | directStart => exact hdesk _
  | data => exact hdesk _
  | finish => exact hdesk _
  | partialStart =>
    unfold Hook.handle
    dsimp only
    split_ifs <;> exact hdesk _
  | pipeStart =>
    unfold Hook.handle
    dsimp only
    split_ifs <;> exact hdesk _
  | pipeData =>
    unfold Hook.handle
    dsimp only
    split_ifs
    · exact hdesk _
    · exact ⟨h, rfl⟩
  | pipeEnd =>
    unfold Hook.handle
    dsimp only
    split_ifs
    · exact hdesk _
    · exact ⟨h, rfl⟩
  | nfcFrame =>
    unfold Hook.handle
    dsimp only
    cases b.capNfc with
    | false => exact ⟨h, rfl⟩
    | true => exact ⟨rule.once h (odNfcFrame_once env.nfc ctx body m.nfc k), rfl⟩
  | configRead => exact absurd rfl hread
  | _ => exact ⟨hsleep, rfl⟩

/-- The reader is the one it was, or its read is over and it holds no unit. -/
def ConfigRead.Spared (c c' : ConfigRead) : Prop := c' = c ∨ c'.active = false ∧ c'.res.remaining = 0

omit [NeZero slots] in
theorem odConfigReadCancel_spared (c : ConfigRead) (q : Txq slots) : c.Spared (odConfigReadCancel c q).1 := by
  unfold odConfigReadCancel
  split_ifs
  · exact .inr ⟨rfl, odTxqRelease_remaining q c.res⟩
  · exact .inl rfl

theorem HandlerRule.run (rule : HandlerRule I) (h : I k) (b : Build) (ctx : Ctx) (body : Bytes) {hook : Hook}
    (hread : hook ≠ .configRead) (m : Machines) :
    I (hook.run b env ctx body m k).2.2 ∧ m.read.Spared (hook.run b env ctx body m k).2.1.read := by
  obtain ⟨hkept, hsame⟩ := rule.handle h env b ctx body hread m
  refine ⟨hkept, ?_⟩
  unfold Hook.run
  dsimp only
  split_ifs
  · exact .inl hsame
  · rw [← hsame]
    exact odConfigReadCancel_spared _ _

end Rules

end OpenDisplay
