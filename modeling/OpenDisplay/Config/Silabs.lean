import OpenDisplay.Config.Asm
import OpenDisplay.Config.BgNvs
import OpenDisplay.Dispatch.Model

/-! The configuration commands of the smallest target. One object is the assembler of a write in
several frames, the workspace of a record, the buffer of a load and the blob of a read. -/

namespace OpenDisplay

open Memories Durable

namespace Silabs

section Model

variable {μ : Type} (n : Nvm3 μ) (b : OdConfigStoreBuild)

/-- The object is at address 0, its bytes come after four words, and behind it is the frame that is
being handled. -/
def bufferAt : Nat := 16

def frameAt : Nat := bufferAt + b.maxSize.toNat

/-- The object as the assembler. -/
def opendisplayConfigAssembler (mem : Memory UInt8) : ConfigAsm b.maxSize.toNat where
  active := mem 0 ≠ 0
  totalSize := readLe32 (load mem 4 4)
  received := readLe32 (load mem 8 4)
  chunks := readLe32 (load mem 12 4)
  buffer := Vector.ofFn fun i => mem (bufferAt + i)

def setAssembler (s : ConfigAsm b.maxSize.toNat) (mem : Memory UInt8) : Memory UInt8 :=
  let mem := store mem 0 [if s.active then 1 else 0]
  let mem := store mem 4 (writeLe32 s.totalSize)
  let mem := store mem 8 (writeLe32 s.received)
  let mem := store mem 12 (writeLe32 s.chunks)
  store mem bufferAt s.buffer.toList

/-- `sent` and `ledger` are for the proofs: what the frames of the last transfer have spelled, and
what was done to the record. -/
structure Config (μ : Type) where
  mem : Memory UInt8
  nvs : μ
  sent : Nat × Bytes := (0, [])
  ledger : List (Durable.Deed (Option Bytes)) := []

def odConfigAsmResetHere (c : Config μ) : Config μ :=
  { c with mem := setAssembler b (odConfigAsmReset (opendisplayConfigAssembler b c.mem)) c.mem }

def initConfigStorage (c : Config μ) : Bool × Config μ :=
  let (rc, nvs) := (BgNvs.port n).odConfigStoreInit c.nvs
  (rc = .ok, { c with nvs })

/-- What an answer of a save says of the record for a payload. -/
def saveDeeds (payload : Bytes) : OdConfigStoreResult → List (Durable.Deed (Option Bytes))
  | .ok => [.put (some (storeRecord payload))]
  | .io => [.tried {some (storeRecord payload)}]
  | _ => []

/-- The header goes over the words of the assembler, which is reset after the write. -/
def saveConfig (data : Nat) (len : UInt32) (payload : Bytes) (c : Config μ) : Bool × Config μ :=
  if len > b.maxSize then (false, c)
  else
    let (ready, c) := initConfigStorage n c
    if !ready then (false, c)
    else
      let (rc, mem, nvs) := odConfigStoreSave (BgNvs.port n).odHalNvs b c.nvs c.mem (some 0) b.maxRecord (some data) len
      (rc = .ok, odConfigAsmResetHere b { c with mem, nvs, ledger := c.ledger ++ saveDeeds payload rc })

/-- A load into the object. -/
def loadConfig (c : Config μ) : Option UInt32 × Config μ :=
  let ((rc, mem, len), nvs) := (BgNvs.port n).odConfigStoreLoad b c.nvs c.mem (some bufferAt) (some b.maxSize)
  (if rc = .ok then len else none, { c with mem, nvs })

def loadGlobalConfig (c : Config μ) : Config μ :=
  let (ready, c) := initConfigStorage n c
  if !ready then c else (loadConfig n b c).2

def persistConfig (data : Nat) (len : UInt32) (payload : Bytes) (c : Config μ) : Config μ :=
  let (saved, c) := saveConfig n b data len payload c
  if !saved then c else loadGlobalConfig n b c

/-- A frame for the assembler. -/
def assemble (call : AsmCall) (c : Config μ) : Option AsmResult × Config μ :=
  let (r, s) := asmStep call (opendisplayConfigAssembler b c.mem)
  (r, { c with mem := setAssembler b s c.mem, sent := gather c.sent (call, r) })

/-- The transfer is complete: the bytes in the object are saved. -/
def persistAssembled (c : Config μ) : Config μ :=
  persistConfig n b bufferAt (opendisplayConfigAssembler b c.mem).received c.sent.2 c

def odCmdAppConfigWrite (body : Bytes) (c : Config μ) : Config μ :=
  let (r, c) := assemble b (.start body) { c with mem := store c.mem (frameAt b) body }
  match r with
  | some .single => persistConfig n b (frameAt b) (UInt32.ofNat body.length) body c
  | some .complete => persistAssembled n b c
  | _ => c

def odCmdAppConfigChunk (body : Bytes) (c : Config μ) : Config μ :=
  let (r, c) := assemble b (.chunk body) c
  match r with
  | some .complete => persistAssembled n b c
  | _ => c

def odCmdAppConfigClear (c : Config μ) : Config μ :=
  let (rc, nvs) := (BgNvs.port n).odConfigStoreClear c.nvs
  if rc ≠ .ok then { c with nvs, ledger := c.ledger ++ [.tried {none}] }
  else loadGlobalConfig n b (odConfigAsmResetHere b { c with nvs, ledger := c.ledger ++ [.put none] })

/-- The blob of a read, which stays in the object; none while a transfer is there. -/
def odCmdAppConfigRead (c : Config μ) : Bytes × Config μ :=
  if (opendisplayConfigAssembler b c.mem).active then ([], c)
  else
    let (ready, c) := initConfigStorage n c
    if !ready then ([], c)
    else
      match loadConfig n b c with
      | (none, c) => ([], c)
      | (some len, c) => (load c.mem bufferAt len.toNat, c)

def odCmdMutatesConfig (cmd : UInt16) : Bool := cmd = cmdConfigWrite ∨ cmd = cmdConfigChunk ∨ cmd = cmdConfigClear

/-- What the handler that a frame was routed to does to the configuration. -/
def odCmdApp (inv : Invocation) (c : Config μ) : Config μ :=
  if inv.cmd = cmdConfigWrite then odCmdAppConfigWrite n b inv.body c
  else if inv.cmd = cmdConfigChunk then odCmdAppConfigChunk n b inv.body c
  else if inv.cmd = cmdConfigClear then odCmdAppConfigClear n b c
  else if inv.cmd = cmdConfigRead then (odCmdAppConfigRead n b c).2
  else c

end Model

section Runs

variable {μ : Type} (n : Nvm3 μ) (b : OdConfigStoreBuild) (bld : Build) {slots : Nat} [NeZero slots]

structure Device (slots : Nat) (μ : Type) where
  core : Core slots
  config : Config μ

/-- What this target answers the dispatcher; the rest of `env` is arbitrary. -/
def targetEnv (env : DispatchEnv) (c : Config μ) : DispatchEnv :=
  { env with
    mutatesConfig := odCmdMutatesConfig
    allowUnauthenticated := fun _ => false
    read := fun ctx body => { env.read ctx body with first := [], blob := (odCmdAppConfigRead n b c).1 } }

/-- A reset of the core under the frame comes with one of the assembler. -/
def dispatchWrite (env : DispatchEnv) (rp : Reply) (frame : Bytes) (s : Device slots μ) : Device slots μ :=
  let r := odDispatchFrame bld (targetEnv n b env s.config) (some rp) (some frame) s.core
  let config := r.invoked.elim s.config (odCmdApp n b · s.config)
  { core := r.core, config := if r.resets = 0 then config else odConfigAsmResetHere b config }

/-- The memory is cleared, and the configuration is loaded. -/
def powerUp (slot : UInt8) (etag : UInt32) (nvs : μ) (ledger : List (Durable.Deed (Option Bytes))) : Device slots μ :=
  { core := Core.boot slots slot etag, config := loadGlobalConfig n b { mem := fun _ => 0, nvs, ledger } }

/-- What happens to the device: a frame, a reset of the transport, a pass of the reader, what the
target does of its own accord, and a power cycle. -/
inductive Act where
  | frame (env : DispatchEnv) (rp : Reply) (frame : Bytes)
  | resetTransport
  | pump (env : ReplyEnv)
  | hook (a : HookAct)
  | powerCycle (slot : UInt8) (etag : UInt32)

def step (s : Device slots μ) : Act → Device slots μ
  | .frame env rp frame => dispatchWrite n b bld env rp frame s
  | .resetTransport => { core := odCoreReset s.core, config := odConfigAsmResetHere b s.config }
  | .pump env => { s with core := (odConfigReadPump env s.core).2 }
  | .hook a => { s with core := s.core.hook a }
  | .powerCycle slot etag => powerUp n b slot etag ((BgNvs.port n).reset s.config.nvs) s.config.ledger

def run (s : Device slots μ) (acts : List Act) : Device slots μ := acts.foldl (step n b bld) s

end Runs

end Silabs

end OpenDisplay
