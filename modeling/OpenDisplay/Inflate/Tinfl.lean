import OpenDisplay.Inflate.App
import OpenDisplay.Lib.Decoder

/-! The engine of the ESP32 builds: an adapter around the decoder in the chip's ROM, which
is a parameter here. The decoder writes into a ring that is its history too; the adapter
hands over from there what was decoded, and lets the decoder go on only when all of it has
been handed over. -/

namespace OpenDisplay

open Loops Memories Decoders

/-- The ring of a build with a window of nine bits. -/
def tinflDictSize : Nat := 4096

/-- The statuses of the decoder that are errors. -/
inductive TinflFailure where
  | cannotMakeProgress | badParam | adler32Mismatch | failed
deriving DecidableEq

abbrev TinflDecoder (σ : Type) := Decoder tinflDictSize σ UInt8 UInt8 TinflFailure

section Header

/-- The bytes of a header as they come. -/
structure ZlibHeaderSeen where
  cmf : UInt8 := 0
  seen : UInt8 := 0
  validated : Bool := false

def zlibHeaderLoop (h : ZlibHeaderSeen) : Bytes → Option ZlibHeader × ZlibHeaderSeen
  | [] => (none, h)
  | byte :: rest =>
    if h.seen = 0 then zlibHeaderLoop { h with cmf := byte, seen := 1 } rest
    else
      let rc := odZlibHeaderCheck h.cmf byte
      (some rc, { h with seen := 2, validated := if rc = .ok then true else h.validated })

/-- What is known of the header with these bytes: nothing yet before both are there. -/
def odZlibHeaderObserve (h : ZlibHeaderSeen) (input : Bytes) : Option ZlibHeader × ZlibHeaderSeen :=
  if h.validated then (some .ok, h) else zlibHeaderLoop h input

/-- What is kept of a header that was observed in these bytes and not refused. -/
def HeaderOk (h : ZlibHeaderSeen) : Bytes → Prop
  | [] => h = {}
  | [cmf] => h = { cmf := cmf, seen := 1 }
  | cmf :: flg :: _ => h.validated = true ∧ odZlibHeaderCheck cmf flg = .ok

/-- What the first bytes of a stream say of its header. -/
def headerVerdict : Bytes → Option ZlibHeader
  | cmf :: flg :: _ => some (odZlibHeaderCheck cmf flg)
  | _ => none

theorem odZlibHeaderObserve_verdict {h : ZlibHeaderSeen} {xs : Bytes} (hok : HeaderOk h xs) (input : Bytes) :
    (odZlibHeaderObserve h input).1 = headerVerdict (xs ++ input) ∧
      (headerVerdict (xs ++ input) = none ∨ headerVerdict (xs ++ input) = some .ok →
        HeaderOk (odZlibHeaderObserve h input).2 (xs ++ input)) := by
  match xs, input, hok with
  | [], [], hok | [], [_], hok | [_], [], hok =>
    obtain rfl := hok
    exact ⟨rfl, fun _ => rfl⟩
  | [], cmf :: flg :: rest, hok | [cmf], flg :: rest, hok =>
    obtain rfl := hok
    refine ⟨rfl, fun hverdict => ?_⟩
    have hcheck := Option.some.inj (hverdict.resolve_left nofun)
    exact ⟨if_pos hcheck, hcheck⟩
  | cmf :: flg :: rest, input, ⟨hvalidated, hcheck⟩ =>
    have hobserve : odZlibHeaderObserve h input = (some .ok, h) := if_pos hvalidated
    rw [hobserve]
    exact ⟨congrArg some hcheck.symm, fun _ => ⟨hvalidated, hcheck⟩⟩

end Header

/-- The state of the adapter; `dictOfs` is where the decoder goes on, and the bytes from
`deliverOfs` on are those that are decoded and not handed over. -/
structure Tinfl (σ : Type) where
  decomp : σ
  dict : Memory UInt8 := fun _ => 0
  dictOfs : Fin tinflDictSize := ⟨0, by decide⟩
  deliverOfs : Nat := 0
  pending : Nat := 0
  input : Bytes := []
  moreInput : Bool := false
  expected : UInt32 := 0
  produced : UInt32 := 0
  done : Bool := false
  initialized : Bool := false
  error : Option String := none
  header : ZlibHeaderSeen := {}

section Model

variable {σ : Type} (d : TinflDecoder σ)

/-- The ring is not cleared. -/
def odInflateTinflReset (expectedOutputSize : UInt32) (s : Tinfl σ) : Tinfl σ :=
  { decomp := d.init, dict := s.dict, moreInput := true, expected := expectedOutputSize, initialized := true }

/-- The rest of a push, with what was observed of the header. -/
def tinflObserved (input : Bytes) (final : Bool) (s : Tinfl σ) :
    Option ZlibHeader × ZlibHeaderSeen → ZlibStatus × Tinfl σ
  | (some .bad, h) => (.error, { s with header := h, error := some "invalid zlib header" })
  | (some .windowTooBig, h) =>
    (.error, { s with header := h, error := some "zlib stream window exceeds firmware limit" })
  | (_, h) => (.needsInput, { s with header := h, input := input, moreInput := !final })

def odInflateTinflPush (input : Bytes) (final : Bool) (s : Tinfl σ) : ZlibStatus × Tinfl σ :=
  if s.initialized = false then (.error, { s with error := some "tinfl stream not initialized" })
  else if s.error ≠ none then (.error, s)
  else if s.input ≠ [] then (.error, { s with error := some "previous input not fully consumed" })
  else if s.done then
    if input ≠ [] then (.error, { s with error := some "input after end of zlib stream" }) else (.done, s)
  else tinflObserved input final s (odZlibHeaderObserve s.header input)

/-- What is decoded and not handed over. -/
def Tinfl.undelivered (s : Tinfl σ) : Bytes := load s.dict s.deliverOfs s.pending

/-- As much of what is decoded as the buffer has room for goes there. -/
def tinflDeliver (capacity : Nat) (w : Bytes × Tinfl σ) : Bytes × Tinfl σ :=
  let n := min w.2.pending (capacity - w.1.length)
  (w.1 ++ load w.2.dict w.2.deliverOfs n,
    { w.2 with deliverOfs := w.2.deliverOfs + n, pending := w.2.pending - n })

/-- The next burst of output, up to the end of the ring. -/
def tinflCall (s : Tinfl σ) : Result σ UInt8 TinflFailure :=
  d.call s.decomp s.input s.dict s.dictOfs (tinflDictSize - s.dictOfs) s.moreInput

def Tinfl.took (s : Tinfl σ) (r : Result σ UInt8 TinflFailure) : Tinfl σ :=
  { s with
    decomp := r.state
    dict := store s.dict s.dictOfs r.out
    deliverOfs := s.dictOfs
    input := s.input.drop r.consumed
    produced := s.produced + UInt32.ofNat r.out.length
    pending := r.out.length
    dictOfs := ⟨(s.dictOfs + r.out.length) % tinflDictSize, Nat.mod_lt _ (by decide)⟩ }

def tinflFailure : TinflFailure → String
  | .adler32Mismatch => "tinfl adler32 mismatch"
  | .badParam => "tinfl bad param"
  | .cannotMakeProgress | .failed => "tinfl inflate failed"

abbrev TinflIter (σ : Type) := Iter (Bytes × Tinfl σ) (ZlibStatus × Bytes × Tinfl σ)

def tinflStatus (status : Status TinflFailure) (w : Bytes × Tinfl σ) : TinflIter σ :=
  match status with
  | .failed reason => .stop (.error, w.1, { w.2 with error := some (tinflFailure reason) })
  | .done => .next (w.1, { w.2 with done := true })
  | .needsMoreInput => if w.2.pending = 0 then .stop (.needsInput, w) else .next w
  | .hasMoreOutput => .next w

def tinflDecode (w : Bytes × Tinfl σ) : TinflIter σ :=
  tinflStatus (tinflCall d w.2).status (w.1, w.2.took (tinflCall d w.2))

/-- The rest of a pass, with nothing left to hand over. -/
def tinflDrained (capacity : Nat) (w : Bytes × Tinfl σ) : TinflIter σ :=
  if w.2.done then
    if w.2.expected ≠ 0 ∧ w.2.produced ≠ w.2.expected then
      .stop (.error, w.1, { w.2 with error := some "tinfl decompressed output size mismatch" })
    else .stop (.done, w)
  else if w.1.length = capacity then .stop (.outputReady, w)
  else tinflDecode d w

def tinflPass (capacity : Nat) (w : Bytes × Tinfl σ) : TinflIter σ :=
  if 0 < w.2.pending then
    if capacity - w.1.length = 0 then .stop (.outputReady, w)
    else
      let w := tinflDeliver capacity w
      if 0 < w.2.pending then .stop (.outputReady, w) else tinflDrained d capacity w
  else tinflDrained d capacity w

/-- The room in the buffer, and whether there is anything to put into it. -/
def tinflWork (capacity : Nat) (w : Bytes × Tinfl σ) : Nat :=
  2 * (capacity - w.1.length) + if w.2.pending = 0 ∧ w.2.done = false then 1 else 0

variable {d} {capacity : Nat} {w w' : Bytes × Tinfl σ}

theorem tinflDecode_next (h : tinflDecode d w = .next w') :
    w'.1 = w.1 ∧ ¬ (w'.2.pending = 0 ∧ w'.2.done = false) := by
  unfold tinflDecode at h
  cases hstatus : (tinflCall d w.2).status with
  | failed reason => rw [hstatus] at h; cases h
  | done =>
    rw [hstatus] at h
    cases h
    exact ⟨rfl, fun hidle => Bool.noConfusion hidle.2⟩
  | needsMoreInput =>
    rw [hstatus] at h
    unfold tinflStatus at h
    dsimp only at h
    split_ifs at h with hpending
    cases h
    exact ⟨rfl, fun hidle => hpending hidle.1⟩
  | hasMoreOutput =>
    rw [hstatus] at h
    cases h
    have hfills := d.fills (Nat.sub_pos_of_lt w.2.dictOfs.isLt) hstatus
    exact ⟨rfl, fun hidle => hfills (List.length_eq_zero_iff.mp hidle.1)⟩

theorem tinflDrained_next (h : tinflDrained d capacity w = .next w') :
    w.2.done = false ∧ w.1.length ≠ capacity ∧ tinflDecode d w = .next w' := by
  unfold tinflDrained at h
  split_ifs at h with hdone hsize hroom
  exact ⟨Bool.not_eq_true _ ▸ hdone, hroom, h⟩

theorem tinflDeliver_length (capacity : Nat) (w : Bytes × Tinfl σ) :
    (tinflDeliver capacity w).1.length = w.1.length + min w.2.pending (capacity - w.1.length) := by
  rw [tinflDeliver, List.length_append, load_length]

theorem tinflPass_dec (capacity : Nat) (w w' : Bytes × Tinfl σ) (h : tinflPass d capacity w = .next w') :
    tinflWork capacity w' < tinflWork capacity w := by
  unfold tinflPass at h
  split_ifs at h with hpending hroom
  · dsimp only at h
    split_ifs at h
    obtain ⟨-, -, hdecode⟩ := tinflDrained_next h
    obtain ⟨hout, hbusy⟩ := tinflDecode_next hdecode
    have hlen := tinflDeliver_length capacity w
    rw [tinflWork, tinflWork, hout, hlen, if_neg hbusy]
    omega
  · obtain ⟨hdone, -, hdecode⟩ := tinflDrained_next h
    obtain ⟨hout, hbusy⟩ := tinflDecode_next hdecode
    rw [tinflWork, tinflWork, hout, if_neg hbusy, if_pos ⟨by omega, hdone⟩]
    omega

variable (d) in
def odInflateTinflPoll (capacity : Nat) (s : Tinfl σ) : ZlibStatus × Bytes × Tinfl σ :=
  if s.initialized = false then (.error, [], { s with error := some "tinfl stream not initialized" })
  else if s.error ≠ none then (.error, [], s)
  else loop (tinflPass d capacity) (tinflWork capacity) (tinflPass_dec capacity) ([], s)

def inflateTinflError (s : Tinfl σ) : String := s.error.getD ""

theorem tinflDeliver_none (h : min w.2.pending (capacity - w.1.length) = 0) : tinflDeliver capacity w = w := by
  unfold tinflDeliver
  rw [h]
  exact Prod.ext (List.append_nil _) rfl

/-- A pass hands over first: until the buffer is full, or until nothing is left. -/
theorem tinflPass_cases (d : TinflDecoder σ) (capacity : Nat) (w : Bytes × Tinfl σ) :
    (0 < (tinflDeliver capacity w).2.pending ∧ capacity ≤ (tinflDeliver capacity w).1.length ∧
        tinflPass d capacity w = .stop (.outputReady, tinflDeliver capacity w)) ∨
      (tinflDeliver capacity w).2.pending = 0 ∧
        tinflPass d capacity w = tinflDrained d capacity (tinflDeliver capacity w) := by
  have hlen := tinflDeliver_length capacity w
  have hleft : (tinflDeliver capacity w).2.pending = w.2.pending - min w.2.pending (capacity - w.1.length) := rfl
  unfold tinflPass
  by_cases hpending : 0 < w.2.pending
  · rw [if_pos hpending]
    by_cases hroom : capacity - w.1.length = 0
    · have hsame : tinflDeliver capacity w = w := tinflDeliver_none (by omega)
      rw [if_pos hroom, hsame]
      exact .inl ⟨hpending, by omega, rfl⟩
    · rw [if_neg hroom]
      dsimp only
      by_cases hsome : 0 < (tinflDeliver capacity w).2.pending
      · rw [if_pos hsome]
        exact .inl ⟨hsome, by omega, rfl⟩
      · rw [if_neg hsome]
        exact .inr ⟨by omega, rfl⟩
  · have hsame : tinflDeliver capacity w = w := tinflDeliver_none (by omega)
    rw [if_neg hpending, hsame]
    exact .inr ⟨by omega, rfl⟩

/-- Handing over moves bytes from the ring to the buffer, in order. -/
theorem tinflDeliver_bytes (capacity : Nat) (w : Bytes × Tinfl σ) :
    (tinflDeliver capacity w).1 ++ (tinflDeliver capacity w).2.undelivered = w.1 ++ w.2.undelivered := by
  have hsum : w.2.pending = min w.2.pending (capacity - w.1.length) +
      (w.2.pending - min w.2.pending (capacity - w.1.length)) := by omega
  show w.1 ++ load w.2.dict w.2.deliverOfs (min w.2.pending (capacity - w.1.length)) ++
    load w.2.dict (w.2.deliverOfs + min w.2.pending (capacity - w.1.length))
      (w.2.pending - min w.2.pending (capacity - w.1.length)) = w.1 ++ load w.2.dict w.2.deliverOfs w.2.pending
  rw [List.append_assoc, ← load_add, ← hsum]

theorem Tinfl.undelivered_nil {s : Tinfl σ} (h : s.pending = 0) : s.undelivered = [] := by
  rw [Tinfl.undelivered, h]
  rfl

theorem Tinfl.took_undelivered (s : Tinfl σ) (r : Result σ UInt8 TinflFailure) : (s.took r).undelivered = r.out :=
  load_store_self

theorem tinflDrained_ready (h : tinflDrained d capacity w = .stop (.outputReady, w')) :
    w' = w ∧ w.1.length = capacity := by
  unfold tinflDrained tinflDecode at h
  split_ifs at h with hdone hsize hroom
  · cases h
  · cases h
  · cases h
    exact ⟨rfl, hroom⟩
  · cases hstatus : (tinflCall d w.2).status with
    | needsMoreInput =>
      rw [hstatus] at h
      unfold tinflStatus at h
      dsimp only at h
      split_ifs at h
      cases h
    | failed reason | done | hasMoreOutput => rw [hstatus] at h; cases h

/-- A poll returns with output only when the buffer is full. -/
theorem odInflateTinflPoll_full {s t : Tinfl σ} {out : Bytes}
    (h : odInflateTinflPoll d capacity s = (.outputReady, out, t)) : capacity ≤ out.length := by
  unfold odInflateTinflPoll at h
  split_ifs at h
  · cases h
  · cases h
  · have hloop := loop_rule (f := tinflPass d capacity) (d := tinflPass_dec capacity)
      (P := fun _ r => r.1 = .outputReady → capacity ≤ r.2.1.length) ?_ (fun _ _ _ _ ih => ih) ([], s)
    · rw [h] at hloop
      exact hloop rfl
    · rintro w ⟨status, w'⟩ hstop rfl
      rcases tinflPass_cases d capacity w with ⟨-, hfull, hpass⟩ | ⟨-, hpass⟩
      · rw [hpass] at hstop
        cases hstop
        exact hfull
      · rw [hpass] at hstop
        obtain ⟨rfl, hfull⟩ := tinflDrained_ready hstop
        exact hfull.ge

variable (d) in
/-- The engine of the builds with the decoder in ROM. -/
def tinflApp : InflateApp (Tinfl σ) where
  reset := odInflateTinflReset d
  push := odInflateTinflPush
  poll := odInflateTinflPoll d
  error := inflateTinflError
  outputCount s := s.produced
  ready hc h := List.ne_nil_of_length_pos (hc.trans_le (odInflateTinflPoll_full h))

end Model

end OpenDisplay
