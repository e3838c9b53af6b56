import OpenDisplay.Lib.Loop
import OpenDisplay.Wire

/-! The walk over a stored configuration: packets of known sizes between a header and a
checksum, handed one by one to a callback. -/

namespace OpenDisplay

open Loops

/-- The body size of each kind of packet, or 0 for an id that is not known. -/
def odConfigTlvBodySize (packetId : UInt8) : Nat :=
  match packetId with
  | 0x01 => 22
  | 0x02 => 22
  | 0x04 => 30
  | 0x20 => 46
  | 0x21 => 22
  | 0x23 => 30
  | 0x24 => 30
  | 0x25 => 30
  | 0x26 => 160
  | 0x27 => 64
  | 0x28 => 32
  | 0x29 => 32
  | 0x2a => 32
  | 0x2b => 32
  | 0x2c => 288
  | _ => 0

def odCfgTlvHeaderLen : Nat := 3
def odCfgTlvCrcLen : Nat := 2

inductive TlvResult where
  | ok | tooShort | truncated | rejected
deriving DecidableEq

/-- A part of a buffer: where it starts and how long it is. -/
structure OdSpan where
  p : Nat
  n : Nat
deriving DecidableEq

namespace OdSpan

def split (s : OdSpan) (n : Nat) : Option (OdSpan × OdSpan) :=
  if n ≤ s.n then some (⟨s.p, n⟩, ⟨s.p + n, s.n - n⟩) else none

def take (s : OdSpan) (n : Nat) : OdSpan := ⟨s.p, if n < s.n then n else s.n⟩

def drop (s : OdSpan) (n : Nat) : OdSpan := if n < s.n then ⟨s.p + n, s.n - n⟩ else ⟨s.p + s.n, 0⟩

def bytes (mem : Bytes) (s : OdSpan) : Bytes := (mem.drop s.p).take s.n

end OdSpan

section Model

variable {σ : Type}

/-- The walk under way: what is left, the callback's context, the packets it was given, and
the parts of the buffer that were read as packets. -/
structure TlvWalk (σ : Type) where
  rest : OdSpan
  ctx : σ
  unknownId : UInt8 := 0
  packets : List (UInt8 × Bytes) := []
  touched : List OdSpan := []

def tlvPass (blob : Bytes) (fn : σ → UInt8 → Bytes → Bool × σ) (w : TlvWalk σ) :
    Iter (TlvWalk σ) (TlvResult × TlvWalk σ) :=
  match w.rest.split 2 with
  | none => .stop (.ok, w)
  | some (hdr, rest) =>
    let packetId := byteAt blob (hdr.p + 1)
    let w := { w with rest := rest, touched := w.touched ++ [OdSpan.mk (hdr.p + 1) 1] }
    let bodySize := odConfigTlvBodySize packetId
    if bodySize = 0 then .stop (.ok, { w with unknownId := packetId })
    else
      match w.rest.split bodySize with
      | none => .stop (.truncated, w)
      | some (body, rest) =>
        let (accepted, ctx) := fn w.ctx packetId (body.bytes blob)
        let w := { w with
          rest := rest, ctx := ctx, packets := w.packets ++ [(packetId, body.bytes blob)]
          touched := w.touched ++ [body] }
        if ¬ accepted then .stop (.rejected, w) else .next w

theorem OdSpan.split_some {s a b : OdSpan} {n : Nat} (h : s.split n = some (a, b)) :
    n ≤ s.n ∧ a = ⟨s.p, n⟩ ∧ b = ⟨s.p + n, s.n - n⟩ := by
  unfold OdSpan.split at h
  split_ifs at h with hle
  obtain ⟨rfl, rfl⟩ := Prod.mk.inj (Option.some.inj h)
  exact ⟨hle, rfl, rfl⟩

theorem tlvPass_dec (blob : Bytes) (fn : σ → UInt8 → Bytes → Bool × σ) (w w' : TlvWalk σ)
    (h : tlvPass blob fn w = .next w') : w'.rest.n < w.rest.n := by
  unfold tlvPass at h
  split at h
  · cases h
  · next hdr rest hhdr =>
    obtain ⟨hle, -, rfl⟩ := OdSpan.split_some hhdr
    dsimp only at h
    split at h
    · cases h
    · split at h
      · cases h
      · next body rest hbody =>
        obtain ⟨-, -, rfl⟩ := OdSpan.split_some hbody
        split at h
        · cases h
        · obtain rfl := Iter.next.inj h
          dsimp only
          omega

/-- The version is read into `version` if the blob is long enough to have one. -/
def odConfigTlvWalk (blob : Bytes) (fn : σ → UInt8 → Bytes → Bool × σ) (ctx : σ) :
    TlvResult × Option UInt8 × TlvWalk σ :=
  if blob.length < odCfgTlvHeaderLen + odCfgTlvCrcLen then (.tooShort, none, { rest := ⟨0, blob.length⟩, ctx := ctx })
  else
    let version := byteAt blob 2
    let rest := OdSpan.drop ⟨0, blob.length⟩ odCfgTlvHeaderLen
    let rest := rest.take (rest.n - odCfgTlvCrcLen)
    let (result, w) := loop (tlvPass blob fn) (fun w => w.rest.n) (tlvPass_dec blob fn) { rest := rest, ctx := ctx }
    (result, some version, w)

end Model

section Grammar

variable {σ : Type}

structure TlvPacket where
  reserved : UInt8
  id : UInt8
  body : Bytes

def TlvPacket.bytes (p : TlvPacket) : Bytes := p.reserved :: p.id :: p.body

/-- The packet has a known id and a body of the size that goes with it. -/
def TlvPacket.Sized (p : TlvPacket) : Prop := odConfigTlvBodySize p.id ≠ 0 ∧ p.body.length = odConfigTlvBodySize p.id

def tlvBytes (ps : List TlvPacket) : Bytes := ps.flatMap TlvPacket.bytes

/-- What the callback is given. -/
def TlvPacket.given (p : TlvPacket) : UInt8 × Bytes := (p.id, p.body)

/-- The callback accepts these packets one after another. -/
inductive Takes (fn : σ → UInt8 → Bytes → Bool × σ) : σ → List TlvPacket → σ → Prop where
  | nil {ctx : σ} : Takes fn ctx [] ctx
  | cons {ctx ctx' ctx'' : σ} {p : TlvPacket} {ps : List TlvPacket} : fn ctx p.id p.body = (true, ctx') →
      Takes fn ctx' ps ctx'' → Takes fn ctx (p :: ps) ctx''

/-- How a walk can end, on the bytes that are left: the result, the unknown id, the packet
that was refused, and the context. -/
inductive TlvEnd (fn : σ → UInt8 → Bytes → Bool × σ) (ctx : σ) :
    Bytes → TlvResult → UInt8 → List (UInt8 × Bytes) → σ → Prop where
  | exhausted {tail : Bytes} : tail.length < 2 → TlvEnd fn ctx tail .ok 0 [] ctx
  | unknown {reserved id : UInt8} {tail : Bytes} : odConfigTlvBodySize id = 0 →
      TlvEnd fn ctx (reserved :: id :: tail) .ok id [] ctx
  | truncated {reserved id : UInt8} {tail : Bytes} : odConfigTlvBodySize id ≠ 0 →
      tail.length < odConfigTlvBodySize id → TlvEnd fn ctx (reserved :: id :: tail) .truncated 0 [] ctx
  | refused {p : TlvPacket} {tail : Bytes} {ctx' : σ} : p.Sized → fn ctx p.id p.body = (false, ctx') →
      TlvEnd fn ctx (p.bytes ++ tail) .rejected 0 [p.given] ctx'

/-- The packets that the callback accepts, and what comes after them. -/
structure TlvParse (fn : σ → UInt8 → Bytes → Bool × σ) (ctx : σ) (bytes : Bytes) (result : TlvResult)
    (unknownId : UInt8) (given : List (UInt8 × Bytes)) (ctx' : σ) (ps : List TlvPacket) (tail : Bytes) (mid : σ)
    (last : List (UInt8 × Bytes)) : Prop where
  bytes : bytes = tlvBytes ps ++ tail
  sized : ∀ p ∈ ps, p.Sized
  takes : Takes fn ctx ps mid
  ends : TlvEnd fn mid tail result unknownId last ctx'
  given : given = ps.map TlvPacket.given ++ last

end Grammar

section Walk

variable {σ : Type} {blob : Bytes} {fn : σ → UInt8 → Bytes → Bool × σ}

theorem OdSpan.bytes_length {s : OdSpan} (h : s.p + s.n ≤ blob.length) : (s.bytes blob).length = s.n := by
  rw [OdSpan.bytes, List.length_take, List.length_drop]
  omega

theorem OdSpan.split_bytes {s : OdSpan} (front : Bytes) {tail : Bytes} (h : s.p + s.n ≤ blob.length)
    (hb : s.bytes blob = front ++ tail) :
    s.split front.length = some (⟨s.p, front.length⟩, ⟨s.p + front.length, s.n - front.length⟩) ∧
      OdSpan.bytes blob ⟨s.p, front.length⟩ = front ∧
      OdSpan.bytes blob ⟨s.p + front.length, s.n - front.length⟩ = tail := by
  have hlen := congrArg List.length hb
  rw [OdSpan.bytes_length h, List.length_append] at hlen
  refine ⟨if_pos (by omega), ?_, ?_⟩
  · have htake := congrArg (List.take front.length) hb
    rwa [OdSpan.bytes, List.take_take, Nat.min_eq_left (by omega), List.take_left] at htake
  · have hdrop := congrArg (List.drop front.length) hb
    rwa [OdSpan.bytes, List.drop_take, List.drop_drop, List.drop_left] at hdrop

theorem OdSpan.split_none {s : OdSpan} {n : Nat} (h : s.p + s.n ≤ blob.length) (hn : (s.bytes blob).length < n) :
    s.split n = none := by
  rw [OdSpan.bytes_length h] at hn
  exact if_neg (by omega)

theorem OdSpan.split_header {s : OdSpan} {reserved id : UInt8} {tail : Bytes} (h : s.p + s.n ≤ blob.length)
    (hb : s.bytes blob = reserved :: id :: tail) :
    s.split 2 = some (⟨s.p, 2⟩, ⟨s.p + 2, s.n - 2⟩) ∧ byteAt blob (s.p + 1) = id ∧
      OdSpan.bytes blob ⟨s.p + 2, s.n - 2⟩ = tail ∧ s.p + 2 + (s.n - 2) ≤ blob.length := by
  obtain ⟨hsplit, hfront, htail⟩ := OdSpan.split_bytes [reserved, id] h hb
  have hlen := congrArg List.length hb
  rw [OdSpan.bytes_length h, List.length_cons, List.length_cons] at hlen
  refine ⟨hsplit, ?_, htail, by omega⟩
  have hget := congrArg (fun bs : Bytes => bs.getD 1 0) hfront
  simpa [OdSpan.bytes, byteAt] using hget

/-- The walk after a packet has been handed over. -/
def TlvWalk.after (w : TlvWalk σ) (p : TlvPacket) (ctx : σ) : TlvWalk σ :=
  { w with
    rest := ⟨w.rest.p + 2 + p.body.length, w.rest.n - 2 - p.body.length⟩, ctx := ctx
    packets := w.packets ++ [p.given]
    touched := w.touched ++ [OdSpan.mk (w.rest.p + 1) 1] ++ [OdSpan.mk (w.rest.p + 2) p.body.length] }

theorem tlvPass_packet (fn : σ → UInt8 → Bytes → Bool × σ) {w : TlvWalk σ} {p : TlvPacket} {tail : Bytes}
    (hin : w.rest.p + w.rest.n ≤ blob.length) (hb : w.rest.bytes blob = p.bytes ++ tail) (hp : p.Sized) :
    tlvPass blob fn w =
      (if ¬ (fn w.ctx p.id p.body).1 then .stop (.rejected, w.after p (fn w.ctx p.id p.body).2)
      else .next (w.after p (fn w.ctx p.id p.body).2)) ∧
    (w.after p (fn w.ctx p.id p.body).2).rest.bytes blob = tail ∧
    (w.after p (fn w.ctx p.id p.body).2).rest.p + (w.after p (fn w.ctx p.id p.body).2).rest.n ≤ blob.length := by
  obtain ⟨hsplit, hid, htail, hin'⟩ := OdSpan.split_header hin hb
  obtain ⟨hsplit', hbody, htail'⟩ := OdSpan.split_bytes p.body hin' htail
  have hle := (OdSpan.split_some hsplit').1
  refine ⟨?_, htail', ?_⟩
  · rw [tlvPass, hsplit]
    dsimp only
    rw [hid, if_neg hp.1, ← hp.2, hsplit']
    dsimp only
    rw [hbody]
    rfl
  · show w.rest.p + 2 + p.body.length + (w.rest.n - 2 - p.body.length) ≤ blob.length
    dsimp only at hle
    omega

theorem tlvPass_end {w : TlvWalk σ} {result : TlvResult} {unknownId : UInt8} {last : List (UInt8 × Bytes)} {ctx' : σ}
    (hin : w.rest.p + w.rest.n ≤ blob.length) (hzero : w.unknownId = 0)
    (he : TlvEnd fn w.ctx (w.rest.bytes blob) result unknownId last ctx') :
    ∃ w', tlvPass blob fn w = .stop (result, w') ∧ w'.unknownId = unknownId ∧ w'.packets = w.packets ++ last ∧
      w'.ctx = ctx' := by
  generalize hb : w.rest.bytes blob = bytes at he
  cases he with
  | exhausted hlen =>
    rw [← hb] at hlen
    refine ⟨w, ?_, hzero, (List.append_nil _).symm, rfl⟩
    rw [tlvPass, OdSpan.split_none hin hlen]
  | unknown hid =>
    obtain ⟨hsplit, hbyte, -, -⟩ := OdSpan.split_header hin hb
    rw [tlvPass, hsplit]
    dsimp only
    rw [hbyte, if_pos hid]
    exact ⟨_, rfl, rfl, (List.append_nil _).symm, rfl⟩
  | truncated hid hlen =>
    obtain ⟨hsplit, hbyte, htail, hin'⟩ := OdSpan.split_header hin hb
    rw [tlvPass, hsplit]
    dsimp only
    rw [hbyte, if_neg hid, OdSpan.split_none hin' (by rw [htail]; exact hlen)]
    exact ⟨_, rfl, hzero, (List.append_nil _).symm, rfl⟩
  | @refused p tail _ hp hfn =>
    have hpass := (tlvPass_packet fn hin hb hp).1
    rw [hfn, if_pos (by simp)] at hpass
    exact ⟨_, hpass, hzero, rfl, rfl⟩

theorem loop_parse {w : TlvWalk σ} {result : TlvResult} {unknownId : UInt8} {given : List (UInt8 × Bytes)}
    {ctx' mid : σ}
    {ps : List TlvPacket} {tail : Bytes} {last : List (UInt8 × Bytes)} (hin : w.rest.p + w.rest.n ≤ blob.length)
    (hzero : w.unknownId = 0)
    (h : TlvParse fn w.ctx (w.rest.bytes blob) result unknownId given ctx' ps tail mid last) :
    ∃ w', loop (tlvPass blob fn) (fun w => w.rest.n) (tlvPass_dec blob fn) w = (result, w') ∧
      w'.unknownId = unknownId ∧ w'.packets = w.packets ++ given ∧ w'.ctx = ctx' := by
  obtain ⟨hbytes, hsized, htakes, hends, rfl⟩ := h
  induction ps generalizing w with
  | nil =>
    cases htakes
    have hrest : w.rest.bytes blob = tail := hbytes
    rw [← hrest] at hends
    obtain ⟨w', hpass, hunknown, hpackets, hctx⟩ := tlvPass_end hin hzero hends
    exact ⟨w', loop_stop hpass, hunknown, hpackets, hctx⟩
  | cons p ps ih =>
    cases htakes with
    | cons hfn htakes =>
      have hb : w.rest.bytes blob = p.bytes ++ (tlvBytes ps ++ tail) := by
        rw [hbytes, ← List.append_assoc]
        rfl
      obtain ⟨hpass, hrest, hin'⟩ := tlvPass_packet fn hin hb (hsized p List.mem_cons_self)
      rw [hfn] at hpass hrest hin'
      rw [if_neg (by simp)] at hpass
      obtain ⟨w', hloop, hunknown, hpackets, hctx⟩ := ih (w := w.after p _) hin' hzero hrest
        (fun q hq => hsized q (List.mem_cons_of_mem _ hq)) htakes
      refine ⟨w', by rw [loop_next hpass]; exact hloop, hunknown, ?_, hctx⟩
      rw [hpackets]
      simp [TlvWalk.after]

theorem exists_parse (fn : σ → UInt8 → Bytes → Bool × σ) (ctx : σ) (bytes : Bytes) :
    ∃ result unknownId given ctx' ps tail mid last,
      TlvParse fn ctx bytes result unknownId given ctx' ps tail mid last := by
  induction hn : bytes.length using Nat.strongRecOn generalizing bytes ctx with
  | ind n ih =>
    match bytes with
    | [] => exact ⟨_, _, _, _, [], _, _, _, rfl, nofun, .nil, .exhausted (by decide), rfl⟩
    | [b] => exact ⟨_, _, _, _, [], _, _, _, rfl, nofun, .nil, .exhausted (Nat.lt_succ_self 1), rfl⟩
    | reserved :: id :: rest =>
      by_cases hid : odConfigTlvBodySize id = 0
      · exact ⟨_, _, _, _, [], _, _, _, rfl, nofun, .nil, .unknown hid, rfl⟩
      by_cases hfit : rest.length < odConfigTlvBodySize id
      · exact ⟨_, _, _, _, [], _, _, _, rfl, nofun, .nil, .truncated hid hfit, rfl⟩
      obtain ⟨p, tail, hp, hbytes⟩ :
          ∃ (p : TlvPacket) (tail : Bytes), p.Sized ∧ reserved :: id :: rest = p.bytes ++ tail := by
        refine ⟨⟨reserved, id, rest.take (odConfigTlvBodySize id)⟩, rest.drop (odConfigTlvBodySize id), ⟨hid, ?_⟩, ?_⟩
        · show (rest.take (odConfigTlvBodySize id)).length = odConfigTlvBodySize id
          rw [List.length_take]
          omega
        · show _ = reserved :: id :: (rest.take _ ++ rest.drop _)
          rw [List.take_append_drop]
      rcases hfn : fn ctx p.id p.body with ⟨accepted, ctx'⟩
      cases accepted with
      | false => exact ⟨_, _, _, _, [], _, _, _, hbytes, nofun, .nil, .refused hp hfn, rfl⟩
      | true =>
        have hlen := congrArg List.length hbytes
        rw [hn, List.length_append, TlvPacket.bytes, List.length_cons, List.length_cons] at hlen
        obtain ⟨result, unknownId, given, ctx'', ps, tail', mid, last, hparse⟩ :=
          ih tail.length (by omega) ctx' tail rfl
        refine ⟨result, unknownId, p.given :: given, ctx'', p :: ps, tail', mid, last, ?_, ?_, .cons hfn hparse.takes,
          hparse.ends, ?_⟩
        · rw [hbytes, hparse.bytes, ← List.append_assoc]
          rfl
        · intro q hq
          rcases List.mem_cons.mp hq with rfl | hq
          · exact hp
          · exact hparse.sized q hq
        · rw [hparse.given]
          rfl

/-- The parts of the buffer that are read as packets lie in `[lo, hi)`. -/
structure Confined (lo hi : Nat) (w : TlvWalk σ) : Prop where
  rest : lo ≤ w.rest.p ∧ w.rest.p + w.rest.n ≤ hi
  touched : ∀ s ∈ w.touched, lo ≤ s.p ∧ s.p + s.n ≤ hi

theorem Confined.touch {lo hi : Nat} {w : TlvWalk σ} (h : Confined lo hi w) (s : OdSpan)
    (hs : lo ≤ s.p ∧ s.p + s.n ≤ hi) : ∀ t ∈ w.touched ++ [s], lo ≤ t.p ∧ t.p + t.n ≤ hi := by
  intro t ht
  rcases List.mem_append.mp ht with ht | ht
  · exact h.touched t ht
  · rw [List.mem_singleton.mp ht]
    exact hs

theorem tlvPass_confined {lo hi : Nat} {w : TlvWalk σ} (h : Confined lo hi w) :
    (∀ r w', tlvPass blob fn w = .stop (r, w') → Confined lo hi w') ∧
      ∀ w', tlvPass blob fn w = .next w' → Confined lo hi w' := by
  obtain ⟨hlo, hhi⟩ := h.rest
  unfold tlvPass
  split
  · refine ⟨fun r w' heq => ?_, nofun⟩
    obtain ⟨-, rfl⟩ := Prod.mk.inj (Iter.stop.inj heq)
    exact h
  · next hdr rest hhdr =>
    obtain ⟨hle, rfl, rfl⟩ := OdSpan.split_some hhdr
    dsimp only
    have htouch := h.touch ⟨w.rest.p + 1, 1⟩ (by dsimp only; omega)
    have hheader : Confined lo hi { w with
        rest := ⟨w.rest.p + 2, w.rest.n - 2⟩, touched := w.touched ++ [OdSpan.mk (w.rest.p + 1) 1] } :=
      ⟨by dsimp only; omega, htouch⟩
    split
    · refine ⟨fun r w' heq => ?_, nofun⟩
      obtain ⟨-, rfl⟩ := Prod.mk.inj (Iter.stop.inj heq)
      exact ⟨hheader.rest, hheader.touched⟩
    · split
      · refine ⟨fun r w' heq => ?_, nofun⟩
        obtain ⟨-, rfl⟩ := Prod.mk.inj (Iter.stop.inj heq)
        exact hheader
      · next body rest hbody =>
        obtain ⟨hle', rfl, rfl⟩ := OdSpan.split_some hbody
        dsimp only at hle' ⊢
        have hbody := hheader.touch ⟨w.rest.p + 2, odConfigTlvBodySize (byteAt blob (w.rest.p + 1))⟩
          (by dsimp only; omega)
        split
        · refine ⟨fun r w' heq => ?_, nofun⟩
          obtain ⟨-, rfl⟩ := Prod.mk.inj (Iter.stop.inj heq)
          exact ⟨by dsimp only; omega, hbody⟩
        · refine ⟨nofun, fun w' heq => ?_⟩
          obtain rfl := Iter.next.inj heq
          exact ⟨by dsimp only; omega, hbody⟩

theorem loop_confined {lo hi : Nat} {w : TlvWalk σ} (h : Confined lo hi w) :
    Confined lo hi (loop (tlvPass blob fn) (fun w => w.rest.n) (tlvPass_dec blob fn) w).2 := by
  refine loop_rule (P := fun (w : TlvWalk σ) (out : TlvResult × TlvWalk σ) => Confined lo hi w → Confined lo hi out.2)
    ?_ ?_ w h
  · rintro w ⟨r, w'⟩ hstop hw
    exact (tlvPass_confined hw).1 r w' hstop
  · intro w w' out hnext hout hw
    exact hout ((tlvPass_confined hw).2 w' hnext)

end Walk

section Result

variable {σ : Type}

/-- The bytes between the header and the checksum. -/
def tlvRegion (blob : Bytes) : Bytes :=
  (blob.drop odCfgTlvHeaderLen).take (blob.length - odCfgTlvHeaderLen - odCfgTlvCrcLen)

theorem odConfigTlvWalk_short {fn : σ → UInt8 → Bytes → Bool × σ} {ctx : σ} {blob : Bytes}
    (h : blob.length < odCfgTlvHeaderLen + odCfgTlvCrcLen) :
    odConfigTlvWalk blob fn ctx = (.tooShort, none, { rest := ⟨0, blob.length⟩, ctx := ctx }) := by
  rw [odConfigTlvWalk, if_pos h]

theorem odConfigTlvWalk_long (fn : σ → UInt8 → Bytes → Bool × σ) (ctx : σ) {blob : Bytes}
    (h : odCfgTlvHeaderLen + odCfgTlvCrcLen ≤ blob.length) :
    odConfigTlvWalk blob fn ctx =
      let out := loop (tlvPass blob fn) (fun w => w.rest.n) (tlvPass_dec blob fn)
        { rest := ⟨odCfgTlvHeaderLen, blob.length - odCfgTlvHeaderLen - odCfgTlvCrcLen⟩, ctx := ctx }
      (out.1, some (byteAt blob 2), out.2) := by
  have hdrop :
      OdSpan.drop ⟨0, blob.length⟩ odCfgTlvHeaderLen = ⟨odCfgTlvHeaderLen, blob.length - odCfgTlvHeaderLen⟩ := by
    rw [OdSpan.drop, if_pos (by simp only [odCfgTlvHeaderLen, odCfgTlvCrcLen] at h ⊢; omega), Nat.zero_add]
  have htake : OdSpan.take ⟨odCfgTlvHeaderLen, blob.length - odCfgTlvHeaderLen⟩
      (blob.length - odCfgTlvHeaderLen - odCfgTlvCrcLen) =
      ⟨odCfgTlvHeaderLen, blob.length - odCfgTlvHeaderLen - odCfgTlvCrcLen⟩ := by
    rw [OdSpan.take, if_pos (by simp only [odCfgTlvHeaderLen, odCfgTlvCrcLen] at h ⊢; omega)]
  rw [odConfigTlvWalk, if_neg (by omega), hdrop]
  dsimp only
  rw [htake]

/-- What the grammar says is what the walk reports. -/
theorem odConfigTlvWalk_parse {fn : σ → UInt8 → Bytes → Bool × σ} {ctx : σ} {blob : Bytes}
    (h : odCfgTlvHeaderLen + odCfgTlvCrcLen ≤ blob.length) {result : TlvResult} {unknownId : UInt8}
    {given : List (UInt8 × Bytes)} {ctx' mid : σ} {ps : List TlvPacket} {tail : Bytes} {last : List (UInt8 × Bytes)}
    (hparse : TlvParse fn ctx (tlvRegion blob) result unknownId given ctx' ps tail mid last) :
    (odConfigTlvWalk blob fn ctx).1 = result ∧ (odConfigTlvWalk blob fn ctx).2.2.unknownId = unknownId ∧
      (odConfigTlvWalk blob fn ctx).2.2.packets = given ∧ (odConfigTlvWalk blob fn ctx).2.2.ctx = ctx' := by
  obtain ⟨w', hloop, hunknown, hpackets, hctx⟩ := loop_parse
    (w := { rest := ⟨odCfgTlvHeaderLen, blob.length - odCfgTlvHeaderLen - odCfgTlvCrcLen⟩, ctx := ctx })
    (by simp only [odCfgTlvHeaderLen, odCfgTlvCrcLen] at h ⊢; omega) rfl hparse
  rw [odConfigTlvWalk_long fn ctx h, hloop]
  exact ⟨rfl, hunknown, hpackets, hctx⟩

theorem odConfigTlvWalk_encoded {fn : σ → UInt8 → Bytes → Bool × σ} {ctx ctx' : σ} (header crc : Bytes)
    {ps : List TlvPacket}
    (hheader : header.length = odCfgTlvHeaderLen) (hcrc : crc.length = odCfgTlvCrcLen) (hsized : ∀ p ∈ ps, p.Sized)
    (htakes : Takes fn ctx ps ctx') :
    (odConfigTlvWalk (header ++ tlvBytes ps ++ crc) fn ctx).1 = .ok ∧
      (odConfigTlvWalk (header ++ tlvBytes ps ++ crc) fn ctx).2.2.unknownId = 0 ∧
      (odConfigTlvWalk (header ++ tlvBytes ps ++ crc) fn ctx).2.2.packets = ps.map TlvPacket.given ∧
      (odConfigTlvWalk (header ++ tlvBytes ps ++ crc) fn ctx).2.2.ctx = ctx' := by
  have hregion : tlvRegion (header ++ tlvBytes ps ++ crc) = tlvBytes ps := by
    have hcount : (header ++ tlvBytes ps ++ crc).length - odCfgTlvHeaderLen - odCfgTlvCrcLen =
        (tlvBytes ps).length := by
      rw [List.length_append, List.length_append, hheader, hcrc]
      omega
    rw [tlvRegion, hcount, List.append_assoc, ← hheader, List.drop_left, List.take_left]
  have hparse : TlvParse fn ctx (tlvRegion (header ++ tlvBytes ps ++ crc)) .ok 0 (ps.map TlvPacket.given) ctx' ps []
      ctx' [] :=
    ⟨by rw [hregion, List.append_nil], hsized, htakes, .exhausted (Nat.zero_lt_succ 1), (List.append_nil _).symm⟩
  refine odConfigTlvWalk_parse ?_ hparse
  rw [List.length_append, List.length_append, hheader, hcrc]
  omega

/-- The walk reads packets only between the header and the checksum. It is too short for a
walk exactly when it has no room for these two. Otherwise, what it reports is exactly what the
grammar says about the bytes between, packet by packet; and a list of packets of known ids and
right sizes comes back as it was encoded. -/
theorem odConfigTlvWalk_grammar (fn : σ → UInt8 → Bytes → Bool × σ) (ctx : σ) :
    (∀ blob : Bytes,
      (∀ s ∈ (odConfigTlvWalk blob fn ctx).2.2.touched, odCfgTlvHeaderLen ≤ s.p ∧
        s.p + s.n + odCfgTlvCrcLen ≤ blob.length) ∧
      ((odConfigTlvWalk blob fn ctx).1 = .tooShort ↔ blob.length < odCfgTlvHeaderLen + odCfgTlvCrcLen) ∧
      ((odConfigTlvWalk blob fn ctx).1 = .tooShort → (odConfigTlvWalk blob fn ctx).2.2.packets = []) ∧
      (odCfgTlvHeaderLen + odCfgTlvCrcLen ≤ blob.length → ∀ result unknownId given ctx',
        ((odConfigTlvWalk blob fn ctx).1 = result ∧ (odConfigTlvWalk blob fn ctx).2.2.unknownId = unknownId ∧
          (odConfigTlvWalk blob fn ctx).2.2.packets = given ∧ (odConfigTlvWalk blob fn ctx).2.2.ctx = ctx') ↔
        ∃ ps tail mid last, TlvParse fn ctx (tlvRegion blob) result unknownId given ctx' ps tail mid last)) ∧
    (∀ (header crc : Bytes) (ps : List TlvPacket) (ctx' : σ), header.length = odCfgTlvHeaderLen →
      crc.length = odCfgTlvCrcLen → (∀ p ∈ ps, p.Sized) → Takes fn ctx ps ctx' →
      let walk := odConfigTlvWalk (header ++ tlvBytes ps ++ crc) fn ctx
      walk.1 = .ok ∧ walk.2.2.unknownId = 0 ∧ walk.2.2.packets = ps.map TlvPacket.given ∧ walk.2.2.ctx = ctx') := by
  refine ⟨fun blob => ?_, ?_⟩
  · by_cases hlen : blob.length < odCfgTlvHeaderLen + odCfgTlvCrcLen
    · rw [odConfigTlvWalk_short hlen]
      exact ⟨nofun, ⟨fun _ => hlen, fun _ => rfl⟩, fun _ => rfl, fun hle => absurd hle (by omega)⟩
    rw [Nat.not_lt] at hlen
    obtain ⟨result, unknownId, given, ctx', ps, tail, mid, last, hparse⟩ := exists_parse fn ctx (tlvRegion blob)
    have hwalk := odConfigTlvWalk_parse hlen hparse
    have hshort : result ≠ .tooShort := by
      have hends := hparse.ends
      rintro rfl
      cases hends
    refine ⟨?_, ⟨fun h => absurd (hwalk.1.symm.trans h) hshort, fun h => absurd h (by omega)⟩,
      fun h => absurd (hwalk.1.symm.trans h) hshort, fun _ result' unknownId' given' ctx'' => ⟨?_, ?_⟩⟩
    · rw [odConfigTlvWalk_long fn ctx hlen]
      intro s hs
      have hstart : Confined odCfgTlvHeaderLen (blob.length - odCfgTlvCrcLen)
          ({ rest := ⟨odCfgTlvHeaderLen, blob.length - odCfgTlvHeaderLen - odCfgTlvCrcLen⟩, ctx := ctx } : TlvWalk σ) :=
        ⟨by simp only [odCfgTlvHeaderLen, odCfgTlvCrcLen] at hlen ⊢; omega, nofun⟩
      have hconfined := (loop_confined hstart).touched s hs
      omega
    · rintro ⟨rfl, rfl, rfl, rfl⟩
      obtain ⟨hresult, hunknown, hpackets, hctx⟩ := hwalk
      rw [hresult, hunknown, hpackets, hctx]
      exact ⟨ps, tail, mid, last, hparse⟩
    · rintro ⟨ps', tail', mid', last', hparse'⟩
      exact odConfigTlvWalk_parse hlen hparse'
  · exact fun header crc ps ctx' hheader hcrc hsized htakes =>
      odConfigTlvWalk_encoded header crc hheader hcrc hsized htakes

/-- One packet between a header and a checksum, and a blob without room for them. -/
theorem odConfigTlvWalk_grammar_one_packet :
    (odConfigTlvWalk ([0, 0, 1] ++ tlvBytes [⟨0, 0x01, List.replicate 22 5⟩] ++ [0xab, 0xcd])
        (fun (n : Nat) _ _ => (true, n + 1)) 0).2.2.packets = [(0x01, List.replicate 22 5)] ∧
      (odConfigTlvWalk [0, 0, 1, 0xab] (fun (n : Nat) _ _ => (true, n + 1)) 0).1 = .tooShort := by
  obtain ⟨hblobs, hencoded⟩ := odConfigTlvWalk_grammar (fun (n : Nat) _ _ => (true, n + 1)) 0
  have hone := hencoded [0, 0, 1] [0xab, 0xcd] [⟨0, 0x01, List.replicate 22 5⟩] 1 rfl rfl ?_ (.cons rfl .nil)
  · exact ⟨hone.2.2.1, (hblobs [0, 0, 1, 0xab]).2.1.mpr (by decide)⟩
  · intro p hp
    rw [List.mem_singleton.mp hp]
    exact ⟨by decide, List.length_replicate⟩

end Result

end OpenDisplay
