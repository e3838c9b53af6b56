import OpenDisplay.Lib.Trace
import OpenDisplay.Lan.Model

/-! The frames of a LAN session are those of its byte stream. What a session has received
and consumed is read off the log, and the buffer is what lies between the two. -/

namespace OpenDisplay

open Loops Traces

section Stream

/-- The payloads that a byte stream spells, up to the first length that is not allowed or
the first frame that is not whole. -/
def lanFrames (bs : Bytes) : List Bytes :=
  if h : 0 < (readLe16 bs).toNat ∧ (readLe16 bs).toNat ≤ odLanMaxPayload ∧ 2 + (readLe16 bs).toNat ≤ bs.length then
    (bs.drop 2).take (readLe16 bs).toNat :: lanFrames (bs.drop (2 + (readLe16 bs).toNat))
  else []
termination_by bs.length
decreasing_by
  simp only [List.length_drop]
  omega

def lanValues (buf : List LanByte) : Bytes := buf.map LanByte.value

/-- What a session has received, and the frames of it that were consumed. -/
structure LanSession where
  received : List LanByte := []
  frames : List (List LanByte) := []

def LanSession.after (s : LanSession) : LanEvent → LanSession
  | .opened _ | .closed _ => {}
  | .read bs => { s with received := s.received ++ bs }
  | .rxFull => s
  | .offer _ _ wire outcome => if odFrameConsumesRx outcome then { s with frames := s.frames ++ [wire] } else s

def lanSession (log : List LanEvent) : LanSession := log.foldl LanSession.after {}

/-- The bytes of the session that were received and not consumed. -/
def lanUnconsumed (log : List LanEvent) : List LanByte :=
  (lanSession log).received.drop (lanSession log).frames.flatten.length

@[simp] theorem lanSession_concat (log : List LanEvent) (e : LanEvent) :
    lanSession (log ++ [e]) = (lanSession log).after e := by
  simp [lanSession]

theorem readLe16_append {a : Bytes} (b : Bytes) (h : 2 ≤ a.length) : readLe16 (a ++ b) = readLe16 a := by
  match a, h with
  | x :: y :: rest, _ => rfl

theorem lanFrameLen_append {a : List LanByte} (b : List LanByte) (h : 2 ≤ a.length) :
    lanFrameLen (a ++ b) = lanFrameLen a := by
  simp only [lanFrameLen, List.map_append]
  rw [readLe16_append _ (by simpa using h)]

theorem lanHeadFrame_length {buf : List LanByte} (h : LanFrameReady buf) :
    (lanHeadFrame buf).length = 2 + lanFrameLen buf := by
  have := h.2.2
  simp [lanHeadFrame]
  omega

theorem lanHeadFrame_len {buf : List LanByte} (h : LanFrameReady buf) :
    lanFrameLen (lanHeadFrame buf) = lanFrameLen buf := by
  have hlen := lanHeadFrame_length h
  have hsplit : lanHeadFrame buf ++ buf.drop (2 + lanFrameLen buf) = buf := List.take_append_drop _ _
  rw [← lanFrameLen_append (buf.drop (2 + lanFrameLen buf)) (by omega), hsplit]

/-- A frame on the wire: its prefix gives the length of the rest, and that length is allowed. -/
def LanWire (wire : List LanByte) : Prop :=
  0 < lanFrameLen wire ∧ lanFrameLen wire ≤ odLanMaxPayload ∧ wire.length = 2 + lanFrameLen wire

def lanPayload (wire : List LanByte) : Bytes := lanValues (wire.drop 2)

theorem lanHeadFrame_wire {buf : List LanByte} (h : LanFrameReady buf) : LanWire (lanHeadFrame buf) := by
  have hlen := lanHeadFrame_length h
  have hval := lanHeadFrame_len h
  exact ⟨hval ▸ h.1, hval ▸ h.2.1, by omega⟩

theorem lanFrames_wire {wire : List LanByte} (h : LanWire wire) (rest : Bytes) :
    lanFrames (lanValues wire ++ rest) = lanPayload wire :: lanFrames rest := by
  obtain ⟨hpos, hmax, hlen⟩ := h
  have hle : (readLe16 (lanValues wire ++ rest)).toNat = lanFrameLen wire := by
    rw [readLe16_append _ (by simp only [lanValues, List.length_map]; omega)]
    rfl
  have hvlen : (lanValues wire).length = 2 + lanFrameLen wire := by simpa [lanValues] using hlen
  rw [lanFrames, dif_pos ⟨by omega, by omega, by rw [List.length_append]; omega⟩, hle]
  congr 1
  · rw [List.drop_append_of_le_length (by omega), List.take_append_of_le_length (by simp; omega)]
    rw [List.take_of_length_le (by simp; omega)]
    simp [lanPayload, lanValues]
  · rw [← hvlen, List.drop_left]

theorem lanFrames_flatten {wires : List (List LanByte)} (h : ∀ w ∈ wires, LanWire w) (rest : Bytes) :
    lanFrames (lanValues wires.flatten ++ rest) = wires.map lanPayload ++ lanFrames rest := by
  induction wires with
  | nil => simp [lanValues]
  | cons w ws ih =>
    have htail := ih fun v hv => h v (by simp [hv])
    calc lanFrames (lanValues (w :: ws).flatten ++ rest)
        = lanFrames (lanValues w ++ (lanValues ws.flatten ++ rest)) := by simp [lanValues]
      _ = lanPayload w :: lanFrames (lanValues ws.flatten ++ rest) := lanFrames_wire (h w (by simp)) _
      _ = _ := by rw [htail]; rfl

end Stream

section Rules

/-- What the log may go on with, given the bytes that are unconsumed. -/
def LanRule (pre : List LanEvent) (e : LanEvent) : Prop :=
  (e = .closed .invalidLength ↔ LanBadLength (lanUnconsumed pre)) ∧
    match e with
    | .opened _ | .closed _ => True
    | .rxFull => False
    | .read bs => ¬ LanFrameReady (lanUnconsumed pre) ∧ (lanUnconsumed pre).length + bs.length ≤ odLanRxBufferSize
    | .offer _ _ wire _ => LanFrameReady (lanUnconsumed pre) ∧ wire = lanHeadFrame (lanUnconsumed pre)

/-- A session is its consumed frames and then what is unconsumed. -/
structure LanSplit (log : List LanEvent) : Prop where
  split : (lanSession log).received = (lanSession log).frames.flatten ++ lanUnconsumed log
  wires : ∀ w ∈ (lanSession log).frames, LanWire w
  size : (lanUnconsumed log).length ≤ odLanRxBufferSize

theorem lanUnconsumed_of_split {log : List LanEvent} {rest : List LanByte}
    (h : (lanSession log).received = (lanSession log).frames.flatten ++ rest) : lanUnconsumed log = rest := by
  rw [lanUnconsumed, h, List.drop_left]

variable {pre log : List LanEvent} {bs : List LanByte} {c : Option LanSocket} {o : Origin} {out : FrameOutcome}

theorem LanSplit.fresh {e : LanEvent} (h : (lanSession pre).after e = {}) :
    LanSplit (pre ++ [e]) ∧ lanUnconsumed (pre ++ [e]) = [] := by
  have hnil : lanUnconsumed (pre ++ [e]) = [] := by simp [lanUnconsumed, h]
  exact ⟨⟨by simp [h, hnil], by simp [h], by simp [hnil]⟩, hnil⟩

theorem LanSplit.read (h : LanSplit pre) (hs : (lanUnconsumed pre).length + bs.length ≤ odLanRxBufferSize) :
    LanSplit (pre ++ [.read bs]) ∧ lanUnconsumed (pre ++ [.read bs]) = lanUnconsumed pre ++ bs := by
  have hsplit : (lanSession (pre ++ [.read bs])).received =
      (lanSession (pre ++ [.read bs])).frames.flatten ++ (lanUnconsumed pre ++ bs) := by
    simp only [lanSession_concat, LanSession.after]
    rw [← List.append_assoc, ← h.split]
  have hrest := lanUnconsumed_of_split hsplit
  refine ⟨⟨by rw [hrest]; exact hsplit, ?_, ?_⟩, hrest⟩
  · simpa [LanSession.after] using h.wires
  · rw [hrest, List.length_append]
    exact hs

theorem LanSplit.deferred (h : LanSplit pre) (c : Option LanSocket) (o : Origin) (wire : List LanByte) :
    LanSplit (pre ++ [.offer c o wire .deferred]) ∧
      lanUnconsumed (pre ++ [.offer c o wire .deferred]) = lanUnconsumed pre := by
  have hsame : lanSession (pre ++ [.offer c o wire .deferred]) = lanSession pre := by
    simp [LanSession.after, odFrameConsumesRx]
  have hrest : lanUnconsumed (pre ++ [.offer c o wire .deferred]) = lanUnconsumed pre := by
    rw [lanUnconsumed, hsame, lanUnconsumed]
  exact ⟨⟨by rw [hsame, hrest]; exact h.split, by rw [hsame]; exact h.wires, by rw [hrest]; exact h.size⟩, hrest⟩

theorem LanSplit.consumed (h : LanSplit pre) (hr : LanFrameReady (lanUnconsumed pre)) (hout : out ≠ .deferred) :
    LanSplit (pre ++ [.offer c o (lanHeadFrame (lanUnconsumed pre)) out]) ∧
      lanUnconsumed (pre ++ [.offer c o (lanHeadFrame (lanUnconsumed pre)) out]) =
        (lanUnconsumed pre).drop (2 + lanFrameLen (lanUnconsumed pre)) := by
  have hafter : lanSession (pre ++ [.offer c o (lanHeadFrame (lanUnconsumed pre)) out]) =
      { lanSession pre with frames := (lanSession pre).frames ++ [lanHeadFrame (lanUnconsumed pre)] } := by
    simp [LanSession.after, odFrameConsumesRx, hout]
  have hsplit : (lanSession pre).received =
      ((lanSession pre).frames ++ [lanHeadFrame (lanUnconsumed pre)]).flatten ++
        (lanUnconsumed pre).drop (2 + lanFrameLen (lanUnconsumed pre)) := by
    have hjoin : lanHeadFrame (lanUnconsumed pre) ++ (lanUnconsumed pre).drop (2 + lanFrameLen (lanUnconsumed pre)) =
        lanUnconsumed pre := List.take_append_drop _ _
    rw [List.flatten_concat, List.append_assoc, hjoin]
    exact h.split
  have hrest : lanUnconsumed (pre ++ [.offer c o (lanHeadFrame (lanUnconsumed pre)) out]) = _ :=
    lanUnconsumed_of_split (by rw [hafter]; exact hsplit)
  refine ⟨⟨by rw [hrest, hafter]; exact hsplit, ?_, ?_⟩, hrest⟩
  · intro w hw
    rw [hafter] at hw
    rcases List.mem_append.mp hw with hw | hw
    · exact h.wires w hw
    · rw [List.mem_singleton.mp hw]
      exact lanHeadFrame_wire hr
  · have := h.size
    rw [hrest, List.length_drop]
    omega

theorem LanSplit.step {e : LanEvent} (h : LanSplit pre) (hr : LanRule pre e) : LanSplit (pre ++ [e]) := by
  cases e with
  | opened k => exact (LanSplit.fresh rfl).1
  | closed why => exact (LanSplit.fresh rfl).1
  | rxFull => exact hr.2.elim
  | read bs => exact (h.read hr.2.2).1
  | offer c o wire out =>
    obtain ⟨-, hready, rfl⟩ := hr
    by_cases hout : out = .deferred
    · subst hout
      exact (h.deferred _ _ _).1
    · exact (h.consumed hready hout).1

theorem lanSplit_of_rules (h : Always LanRule log) : LanSplit log := by
  induction log using List.reverseRecOn with
  | nil => exact ⟨rfl, by simp [lanSession], by simp [lanUnconsumed, lanSession]⟩
  | append_singleton pre e ih =>
    obtain ⟨hpre, he⟩ := always_concat.mp h
    exact (ih hpre).step he

/-- The consumed frames are the first frames of whatever stream the received bytes begin. -/
theorem LanSplit.frames_first (h : LanSplit log) (rest : Bytes) :
    (lanSession log).frames.map lanPayload <+: lanFrames (lanValues (lanSession log).received ++ rest) := by
  have hval : lanValues (lanSession log).received ++ rest =
      lanValues (lanSession log).frames.flatten ++ (lanValues (lanUnconsumed log) ++ rest) := by
    rw [← List.append_assoc, h.split]
    simp [lanValues]
  rw [hval, lanFrames_flatten h.wires]
  exact List.prefix_append _ _

end Rules

section Buffer

/-- The buffer is what is unconsumed, and only an open session has one. -/
structure LanCore (s : Lan) : Prop where
  rules : Always LanRule s.log
  buf : lanUnconsumed s.log = s.buf
  idle : s.wifiServerConnected = false → s.buf = []

/-- Between two steps the parser has done what it can: a whole frame is there only if it was
just deferred. -/
structure LanSettled (s : Lan) : Prop extends LanCore s where
  good : ¬ LanBadLength s.buf
  waits : LanFrameReady s.buf → ∃ pre c o, s.log = pre ++ [.offer c o (lanHeadFrame s.buf) .deferred]

theorem lanFrameBuffered_iff {buf : List LanByte} (h : ¬ LanBadLength buf) :
    lanFrameBuffered buf = true ↔ LanFrameReady buf := by
  by_cases hshort : buf.length < 2
  · have : ¬ LanFrameReady buf := fun hr => by have := hr.2.2; omega
    simp [lanFrameBuffered, hshort, this]
  · simp only [LanBadLength, not_and, not_or] at h
    obtain ⟨hpos, hmax⟩ := h (by omega)
    simp only [lanFrameBuffered, hshort, if_false, decide_eq_true_eq, LanFrameReady]
    omega

theorem LanSettled.of_closed {s : Lan} {why : LanClose} (h : LanCore s)
    (hw : why = .invalidLength ↔ LanBadLength s.buf) : LanSettled (dropSession why s) := by
  have hlog : (dropSession why s).log = s.log ++ [.closed why] := rfl
  have hbuf : (dropSession why s).buf = [] := rfl
  refine ⟨⟨?_, ?_, fun _ => hbuf⟩, ?_, ?_⟩
  · rw [hlog, always_concat]
    refine ⟨h.rules, ?_, trivial⟩
    rw [h.buf, ← hw]
    exact ⟨fun he => by injection he, fun he => by rw [he]⟩
  · rw [hlog, (LanSplit.fresh rfl).2, hbuf]
  · simp [hbuf, LanBadLength]
  · intro hr
    have := hr.2.2
    simp [hbuf] at this

theorem LanCore.offered {s : Lan} {a : LanAnswer} (h : LanCore s) (hr : LanFrameReady s.buf) :
    Always LanRule (lanDispatch a (lanHeadFrame s.buf) s).log := by
  have hgood : ¬ LanBadLength s.buf := fun hb => by have := hb.2; have := hr.1; have := hr.2.1; omega
  rw [lanDispatch_log, always_concat]
  exact ⟨h.rules, by simp [h.buf, hgood], by rw [h.buf]; exact ⟨hr, rfl⟩⟩

theorem LanCore.consumed {s : Lan} {a : LanAnswer} (h : LanCore s) (hr : LanFrameReady s.buf)
    (ha : a.outcome ≠ .deferred) :
    LanCore { lanDispatch a (lanHeadFrame s.buf) s with buf := s.buf.drop (2 + lanFrameLen s.buf) } := by
  have hrest := (lanSplit_of_rules h.rules).consumed (c := s.client) (o := lanOrigin s) (by rw [h.buf]; exact hr) ha
  refine ⟨h.offered hr, ?_, ?_⟩
  · show lanUnconsumed (lanDispatch a (lanHeadFrame s.buf) s).log = s.buf.drop (2 + lanFrameLen s.buf)
    rw [lanDispatch_log]
    simpa only [h.buf] using hrest.2
  · intro hc
    have hnil := h.idle (by simpa using hc)
    simp [hnil]

theorem LanCore.kept {s : Lan} {a : LanAnswer} (h : LanCore s) (hr : LanFrameReady s.buf)
    (ha : a.outcome = .deferred) : LanSettled (lanDispatch a (lanHeadFrame s.buf) s) := by
  have hrest := (lanSplit_of_rules h.rules).deferred s.client (lanOrigin s) (lanHeadFrame s.buf)
  refine ⟨⟨h.offered hr, ?_, ?_⟩, ?_, ?_⟩
  · rw [lanDispatch_log, ha, lanDispatch_buf, hrest.2, h.buf]
  · simpa using h.idle
  · rw [lanDispatch_buf]
    exact fun hb => by have := hb.2; have := hr.1; have := hr.2.1; omega
  · intro _
    exact ⟨s.log, s.client, lanOrigin s, by rw [lanDispatch_log, lanDispatch_buf, ha]⟩

variable {p : LanPass}

theorem parseFrames_settled (w : LanParse) (h : LanCore w.lan) : LanSettled (parseFrames p w).2.lan := by
  refine loop_rule (d := parsePass_dec p)
    (P := fun (w : LanParse) (r : Bool × LanParse) => LanCore w.lan → LanSettled r.2.lan) ?_ ?_ w h
  · intro w r hstop hcore
    obtain ⟨rfl, hgood, hready⟩ | ⟨hbad, rfl⟩ | ⟨hready, ha, rfl⟩ := parsePass_stop hstop
    · exact ⟨hcore, hgood, fun hr => (hready hr).elim⟩
    · exact .of_closed hcore (by simp [hbad])
    · exact hcore.kept hready ha
  · intro w w' r hnext ih hcore
    obtain ⟨hready, ha, rfl⟩ := parsePass_next hnext
    exact ih (hcore.consumed hready ha)

theorem LanSettled.congr {s t : Lan} (h : LanSettled s) (hl : t.log = s.log) (hb : t.buf = s.buf)
    (hc : t.wifiServerConnected = s.wifiServerConnected) : LanSettled t := by
  obtain ⟨⟨hrules, hbuf, hidle⟩, hgood, hwaits⟩ := h
  exact ⟨⟨by rwa [hl], by rwa [hl, hb], by rwa [hb, hc]⟩, by rwa [hb], by rwa [hl, hb]⟩

theorem LanSettled.closed {s : Lan} {why : LanClose} (h : LanSettled s) (hw : why ≠ .invalidLength) :
    LanSettled (dropSession why s) :=
  .of_closed h.toLanCore (by simp [hw, h.good])

theorem LanSettled.opened {s t : Lan} {k : LanSocket} (h : LanSettled s) (hl : t.log = s.log ++ [.opened k])
    (hb : t.buf = []) : LanSettled t := by
  refine ⟨⟨?_, ?_, fun _ => hb⟩, ?_, ?_⟩
  · rw [hl, always_concat]
    exact ⟨h.rules, by simp [h.buf, h.good], trivial⟩
  · rw [hl, (LanSplit.fresh rfl).2, hb]
  · simp [hb, LanBadLength]
  · intro hr
    have := hr.2.2
    simp [hb] at this

/-- The bytes that the log says were read. -/
def lanReadTotal (log : List LanEvent) : Nat :=
  (log.map fun | .read bs => bs.length | _ => 0).sum

@[simp] theorem lanReadTotal_append (a b : List LanEvent) :
    lanReadTotal (a ++ b) = lanReadTotal a + lanReadTotal b := by
  simp [lanReadTotal]

theorem LanSettled.append {s : Lan} {source : ByteSource} {bs : Bytes} (h : LanSettled s)
    (hr : ¬ LanFrameReady s.buf) (hs : s.buf.length + bs.length ≤ odLanRxBufferSize)
    (hc : s.wifiServerConnected = true) : LanCore (lanAppend source bs s) := by
  have hread : (lanUnconsumed s.log).length + (bs.map fun v => (⟨v, source⟩ : LanByte)).length ≤ odLanRxBufferSize := by
    rw [h.buf, List.length_map]
    exact hs
  refine ⟨?_, ?_, ?_⟩
  · show Always LanRule (s.log ++ [.read _])
    rw [always_concat]
    exact ⟨h.rules, by simp [h.buf, h.good], by rw [h.buf]; exact hr, hread⟩
  · show lanUnconsumed (s.log ++ [.read _]) = _
    rw [((lanSplit_of_rules h.rules).read hread).2, h.buf]
    rfl
  · intro hc'
    exact absurd (hc.symm.trans hc') (by simp)

theorem LanSettled.roundRead {d : LanDrain} {g : LanGot} {s : Lan} (h : LanSettled d.lan)
    (hc : d.lan.wifiServerConnected = true) (hr : lanRoundRead p d = (g, s)) :
    (s = d.lan ∧ ∀ n, g = .got n → n = 0) ∨
      (LanCore s ∧ ∃ n, g = .got n ∧ 0 < n ∧ n ≤ odLanRxBufferSize ∧
        ∃ more, s.log = d.lan.log ++ more ∧ lanReadTotal more = n) := by
  unfold lanRoundRead at hr
  by_cases hready : LanFrameReady d.lan.buf
  · rw [if_pos ((lanFrameBuffered_iff h.good).mpr hready)] at hr
    obtain ⟨rfl, rfl⟩ := Prod.mk.inj hr
    exact .inl ⟨rfl, by simp⟩
  · rw [if_neg (by rw [lanFrameBuffered_iff h.good]; exact hready)] at hr
    obtain hsame | ⟨hfull, -, -⟩ | ⟨bs, hne, hfit, rfl, rfl⟩ := lanReadIntoBuffer_cases hr
    · exact .inl hsame
    · -- neither bad nor ready, the buffer is shorter than the largest frame
      have hgood := h.good
      simp only [LanBadLength, LanFrameReady, odLanMaxPayload, odLanRxBufferSize] at hfull hgood hready
      omega
    · refine .inr ⟨h.append hready hfit hc, bs.length, rfl, List.length_pos_iff.mpr hne, by omega, _, rfl, ?_⟩
      simp [lanReadTotal]

theorem parseFrames_wrote (w : LanParse) : ∃ more, (parseFrames p w).2.lan.log = w.lan.log ++ more ∧
    lanReadTotal more = 0 ∧ (LanFrameReady w.lan.buf → more ≠ []) := by
  refine loop_rule (d := parsePass_dec p) (P := fun (w : LanParse) (r : Bool × LanParse) =>
    ∃ more, r.2.lan.log = w.lan.log ++ more ∧ lanReadTotal more = 0 ∧ (LanFrameReady w.lan.buf → more ≠ [])) ?_ ?_ w
  · intro w r hstop
    obtain ⟨rfl, -, hready⟩ | ⟨-, rfl⟩ | ⟨-, -, rfl⟩ := parsePass_stop hstop
    · exact ⟨[], by simp, rfl, fun hr => (hready hr).elim⟩
    · exact ⟨[.closed .invalidLength], rfl, rfl, by simp⟩
    · exact ⟨_, lanDispatch_log .., rfl, by simp⟩
  · rintro w w' r hnext ⟨more, hlog, htotal, -⟩
    obtain ⟨-, -, rfl⟩ := parsePass_next hnext
    refine ⟨.offer w.lan.client (lanOrigin w.lan) (lanHeadFrame w.lan.buf) (p.answers w.offers).outcome :: more,
      ?_, ?_, ?_⟩
    · rw [hlog]
      simp
    · simpa [lanReadTotal] using htotal
    · simp

theorem LanSettled.roundParsed {d : LanDrain} {n : Nat} {s : Lan} (h : LanSettled d.lan)
    (hc : d.lan.wifiServerConnected = true) (hr : lanRoundRead p d = (.got n, s)) :
    LanSettled (parseFrames p ⟨s, d.offers⟩).2.lan ∧ n ≤ odLanRxBufferSize ∧
      ∃ more, (parseFrames p ⟨s, d.offers⟩).2.lan.log = d.lan.log ++ more ∧ lanReadTotal more = n ∧
        (LanFrameReady d.lan.buf → more ≠ []) := by
  obtain ⟨more, hlog, htotal, hmore⟩ := parseFrames_wrote (p := p) ⟨s, d.offers⟩
  obtain ⟨rfl, hn⟩ | ⟨hcore, m, hm, -, hle, front, hfront, hread⟩ := h.roundRead hc hr
  · obtain rfl := hn n rfl
    exact ⟨parseFrames_settled _ h.toLanCore, by simp, more, hlog, htotal, hmore⟩
  · obtain rfl : n = m := by injection hm
    refine ⟨parseFrames_settled _ hcore, hle, front ++ more, ?_, ?_, ?_⟩
    · rw [hlog, hfront, List.append_assoc]
    · rw [lanReadTotal_append, hread, htotal, Nat.add_zero]
    · intro hready hnil
      -- the read did nothing where a frame was ready, so the round read no byte
      obtain ⟨rfl, -⟩ := List.append_eq_nil_iff.mp hnil
      unfold lanRoundRead at hr
      rw [if_pos ((lanFrameBuffered_iff h.good).mpr hready)] at hr
      obtain ⟨-, rfl⟩ := Prod.mk.inj hr
      exact hmore hready (by simpa using hnil)

/-- A drain keeps the state settled, takes up a frame that is there, and reads within its
budget and one buffer more. -/
def LanDrained (d : LanDrain) (t : Lan) : Prop :=
  LanSettled t ∧ ∃ more, t.log = d.lan.log ++ more ∧ d.drained + lanReadTotal more < 2 * odLanRxBufferSize ∧
    (LanFrameReady d.lan.buf → more ≠ [])

theorem LanDrained.of_stop {d : LanDrain} {t : Lan} (hstop : drainPass p d = .stop t) (h : LanSettled d.lan)
    (hc : d.lan.wifiServerConnected = true) (hlt : d.drained < odLanRxBufferSize) : LanDrained d t := by
  obtain ⟨u, hread, rfl⟩ | ⟨u, hread, rfl⟩ | ⟨hread, -, hdry⟩ | ⟨n, u, b, w, hread, hparse, rfl⟩ := drainPass_stop hstop
  · obtain ⟨rfl, -⟩ | ⟨-, n, hn, -⟩ := h.roundRead hc hread
    · exact ⟨h.closed (by decide), [.closed .peerClosed], rfl, by simp [lanReadTotal]; omega, by simp⟩
    · cases hn
  · obtain ⟨rfl, -⟩ | ⟨-, n, hn, -⟩ := h.roundRead hc hread
    · exact ⟨h.closed (by decide), [.closed .readError], rfl, by simp [lanReadTotal]; omega, by simp⟩
    · cases hn
  · obtain ⟨rfl, -⟩ | ⟨-, n, hn, hpos, -⟩ := h.roundRead hc hread
    · refine ⟨h, [], by simp, by simp [lanReadTotal]; omega, fun hready => ?_⟩
      exact absurd ((lanFrameBuffered_iff h.good).mpr hready) (by simp [hdry])
    · injection hn with hn
      omega
  · obtain ⟨hsettled, hn, more, hlog, htotal, hmore⟩ := h.roundParsed hc hread
    rw [hparse] at hsettled hlog
    exact ⟨hsettled, more, hlog, by omega, hmore⟩

theorem drainLan_drained {s : Lan} (h : LanSettled s) (hc : s.wifiServerConnected = true) :
    LanDrained ⟨s, 0, 0, 0⟩ (drainLan p s) := by
  refine loop_rule (d := drainPass_dec p) (P := fun (d : LanDrain) (t : Lan) =>
    LanSettled d.lan → d.lan.wifiServerConnected = true → d.drained < odLanRxBufferSize → LanDrained d t) ?_ ?_
    ⟨s, 0, 0, 0⟩ h hc (by simp [odLanRxBufferSize])
  · intro d t hstop
    exact LanDrained.of_stop hstop
  · intro d d' t hnext ih hd hdc hlt
    obtain ⟨n, u, w, hread, hparse, hn, hbudget, hwc, -, rfl⟩ := drainPass_next hnext
    obtain ⟨hsettled, -, more, hlog, htotal, hmore⟩ := hd.roundParsed hdc hread
    rw [hparse] at hsettled hlog
    obtain ⟨ht, rest, hrest, hreads, -⟩ := ih hsettled hwc hbudget
    refine ⟨ht, more ++ rest, ?_, ?_, ?_⟩
    · rw [hrest, ← List.append_assoc]
      exact congrArg (· ++ rest) hlog
    · rw [lanReadTotal_append]
      simp only at hreads
      omega
    · intro hready hnil
      exact hmore hready (List.append_eq_nil_iff.mp hnil).1

end Buffer

section Passes

variable {p : LanPass}

/-- A pass, as it is seen from the log. -/
def LanPassed (s t : Lan) : Prop :=
  LanSettled t ∧ ∃ more, t.log = s.log ++ more ∧ lanReadTotal more < 2 * odLanRxBufferSize ∧
    (LanFrameReady s.buf → more ≠ [])

theorem LanPassed.of_closed {s t : Lan} {why : LanClose} (h : LanSettled s) (hw : why ≠ .invalidLength)
    (ht : t = dropSession why s) : LanPassed s t := by
  subst ht
  exact ⟨h.closed hw, [.closed why], rfl, by simp [lanReadTotal, odLanRxBufferSize], by simp⟩

theorem LanPassed.after {s u t : Lan} {front : List LanEvent} (h : LanPassed u t) (hlog : u.log = s.log ++ front)
    (hread : lanReadTotal front = 0) (hbuf : front = [] → u.buf = s.buf) : LanPassed s t := by
  obtain ⟨hsettled, more, hmore, htotal, hready⟩ := h
  refine ⟨hsettled, front ++ more, ?_, ?_, ?_⟩
  · rw [hmore, hlog, List.append_assoc]
  · rw [lanReadTotal_append]
    omega
  · intro hr hnil
    obtain ⟨hf, hm⟩ := List.append_eq_nil_iff.mp hnil
    exact hready (by rw [hbuf hf]; exact hr) hm

theorem lanAccept_settled {s : Lan} (h : LanSettled s) : LanSettled (lanAccept p s) ∧
    ∃ front, (lanAccept p s).log = s.log ++ front ∧ lanReadTotal front = 0 ∧
      (front = [] → (lanAccept p s).buf = s.buf) := by
  have same : LanSettled s ∧ ∃ front, s.log = s.log ++ front ∧ lanReadTotal front = 0 ∧ (front = [] → s.buf = s.buf) :=
    ⟨h, [], by simp, rfl, fun _ => rfl⟩
  unfold lanAccept
  split
  · exact same
  · next i _ =>
    obtain hs | ⟨session, -, done, hs⟩ | ⟨why, session, done, hw, hs⟩ := admitOrRefuseLanClient_cases i s
    · rw [hs]
      exact same
    · rw [hs]
      exact ⟨h.opened rfl rfl, _, rfl, rfl, by simp⟩
    · rw [hs]
      refine ⟨?_, [.opened ⟨s.accepted, s.tlsMode⟩, .closed why], rfl, rfl, by simp⟩
      have hopen : LanSettled { s with buf := [], log := s.log ++ [.opened ⟨s.accepted, s.tlsMode⟩] } :=
        h.opened rfl rfl
      exact (hopen.closed hw).congr (by simp [dropSession, Lan.note, tlsCloseSession]) rfl rfl

theorem LanPassed.of_idle {s : Lan} (h : LanSettled s) (hc : s.wifiServerConnected = false) : LanPassed s s := by
  refine ⟨h, [], by simp, by simp [lanReadTotal, odLanRxBufferSize], fun hready => ?_⟩
  have hlen := hready.2.2
  rw [h.idle hc, List.length_nil] at hlen
  omega

theorem lanServe_passed {s : Lan} (h : LanSettled s) : LanPassed s (lanServe p s) := by
  obtain ⟨hc, hs⟩ | ⟨why, hw, hs⟩ | ⟨hc, -, done, hs⟩ := lanServe_cases p s
  · rw [hs]
    exact .of_idle h hc
  · exact .of_closed h hw hs
  · rw [hs]
    have hd : LanSettled { s with tlsHandshakeDone := done } := h.congr rfl rfl rfl
    simpa [LanPassed, LanDrained] using drainLan_drained (p := p) hd hc

theorem handleWiFiServer_passed {s : Lan} (h : LanSettled s) : LanPassed s (handleWiFiServer p s) := by
  obtain ⟨connected, hroam⟩ := serviceLanRoam_only p.roamDue p.roamAlive s
  obtain ⟨mode, connected', hre⟩ := lanReassociate_only p (serviceLanRoam p.roamDue p.roamAlive s)
  rw [hroam] at hre
  set u : Lan := { s with tlsMode := mode, wifiConnected := connected' } with hu
  have hsettled : LanSettled u := h.congr rfl rfl rfl
  unfold handleWiFiServer
  simp only [hroam, hre]
  split
  · split
    · have hw : LanClose.wifiLost ≠ .invalidLength := by decide
      have hclosed := LanPassed.of_closed hsettled hw rfl
      exact hclosed
    · next hc =>
      have hc' : u.wifiServerConnected = false := by
        simp only [not_or] at hc
        simpa using hc.1
      exact .of_idle hsettled hc'
  · obtain ⟨hacc, front, hlog, hread, hbuf⟩ := lanAccept_settled (p := p) hsettled
    exact (lanServe_passed hacc).after hlog hread hbuf

theorem LanSettled.restart {s : Lan} (h : LanSettled s) (assoc : Bool) :
    LanSettled (restartWiFiLanAfterReconnect assoc s) := by
  unfold restartWiFiLanAfterReconnect
  split
  · exact h
  · obtain ⟨mode, hs⟩ := startLanServer_only (disconnectWiFiServer .request s)
    rw [hs]
    have hw : LanClose.request ≠ .invalidLength := by decide
    exact (h.closed hw).congr rfl rfl rfl

theorem LanSettled.linkCheck {s : Lan} (h : LanSettled s) (linkUp : Bool) : LanSettled (wifiLinkCheck linkUp s) := by
  have hconn : ∀ b, LanSettled { s with wifiConnected := b } := fun b => h.congr rfl rfl rfl
  unfold wifiLinkCheck
  split
  · exact h
  · split
    · dsimp only
      split
      · exact (hconn false).closed (by decide)
      · exact hconn false
    · split
      · exact (hconn true).restart linkUp
      · exact h

theorem lanStep_settled {s : Lan} (h : LanSettled s) (st : LanStep) : LanSettled (lanStep s st) := by
  cases st with
  | pass p => exact (handleWiFiServer_passed h).1
  | disconnect => exact h.closed (by decide)
  | dropOwned => exact h.closed (by decide)
  | restart assoc => exact h.restart assoc
  | save load =>
    obtain ⟨_, _, _, hs⟩ := reloadConfigAfterSave_only load s
    rw [lanStep, hs]
    exact h.congr rfl rfl rfl
  | clear => exact h.congr rfl rfl rfl
  | abandon => exact h.congr rfl rfl rfl
  | reap alive =>
    rw [lanStep, wifiLanReapClosedSession]
    split
    · exact h.closed (by decide)
    · exact h
  | linkCheck linkUp => exact h.linkCheck linkUp

theorem lanBoot_settled (config : LanConfig) (rxBuffer : Bool) : LanSettled (lanBoot config rxBuffer) := by
  refine ⟨⟨.nil, rfl, fun _ => rfl⟩, ?_, ?_⟩
  · simp [lanBoot, LanBadLength]
  · intro hr
    have := hr.2.2
    simp [lanBoot] at this

theorem lanRun_settled (steps : List LanStep) {s : Lan} (h : LanSettled s) : LanSettled (lanRun steps s) := by
  induction steps generalizing s with
  | nil => exact h
  | cons st rest ih => exact ih (lanStep_settled h st)

/-- The session ends, for another reason than a bad length, or the frame is offered. -/
def OffersOrEnds (wire : List LanByte) : LanEvent → Prop
  | .opened _ => True
  | .closed why => why ≠ .invalidLength
  | .offer _ _ w _ => w = wire
  | _ => False

theorem LanRule.offersOrEnds {pre : List LanEvent} {e : LanEvent} (h : LanRule pre e)
    (hr : LanFrameReady (lanUnconsumed pre)) : OffersOrEnds (lanHeadFrame (lanUnconsumed pre)) e := by
  have hgood : ¬ LanBadLength (lanUnconsumed pre) := fun hb => by
    have := hb.2
    have := hr.1
    have := hr.2.1
    omega
  cases e with
  | opened k => trivial
  | closed why =>
    intro hw
    exact hgood (h.1.mp (by rw [hw]))
  | rxFull => exact h.2
  | read bs => exact h.2.1 hr
  | offer c o w out => exact h.2.2

/-- Every run of the service frames its streams. At each point of the log the frames that the
session has consumed are the first frames of its stream, and the rest is in the buffer. A
deferred frame is what the log goes on with, and the next pass goes on with it; a session
ends for its length exactly when the length in front is not allowed. -/
theorem handleWiFiServer_framing (config : LanConfig) (rxBuffer : Bool) (steps : List LanStep) :
    let s := lanRun steps (lanBoot config rxBuffer)
    (∀ pre, pre <+: s.log →
      (∀ rest, (lanSession pre).frames.map lanPayload <+: lanFrames (lanValues (lanSession pre).received ++ rest)) ∧
      (∀ w ∈ (lanSession pre).frames, LanWire w) ∧
      (lanSession pre).received = (lanSession pre).frames.flatten ++ lanUnconsumed pre ∧
      (lanUnconsumed pre).length ≤ odLanRxBufferSize) ∧
    s.buf = lanUnconsumed s.log ∧ .rxFull ∉ s.log ∧
    (∀ pre c o w e post, s.log = pre ++ .offer c o w .deferred :: e :: post → OffersOrEnds w e) ∧
    (lanFrameBuffered s.buf = true → (∃ pre c o, s.log = pre ++ [.offer c o (lanHeadFrame s.buf) .deferred]) ∧
      ∀ p, ∃ e more, (handleWiFiServer p s).log = s.log ++ e :: more ∧ OffersOrEnds (lanHeadFrame s.buf) e) ∧
    (∀ pre e post, s.log = pre ++ e :: post → (e = .closed .invalidLength ↔ LanBadLength (lanUnconsumed pre))) ∧
    ¬ LanBadLength s.buf ∧
    (∀ p, ∃ more, (handleWiFiServer p s).log = s.log ++ more ∧ lanReadTotal more < 2 * odLanRxBufferSize) := by
  intro s
  have h : LanSettled s := lanRun_settled steps (lanBoot_settled config rxBuffer)
  have splits : ∀ {pre post}, s.log = pre ++ post → LanSplit pre := fun hlog =>
    lanSplit_of_rules (always_append.mp (hlog ▸ h.rules)).1
  refine ⟨?_, h.buf.symm, ?_, ?_, ?_, ?_, h.good, ?_⟩
  · rintro pre ⟨post, hpost⟩
    have hsplit : LanSplit pre := splits hpost.symm
    exact ⟨hsplit.frames_first, hsplit.wires, hsplit.split, hsplit.size⟩
  · intro hfull
    obtain ⟨pre, post, hlog⟩ := List.append_of_mem hfull
    exact (h.rules pre .rxFull post hlog).2
  · intro pre c o w e post hlog
    obtain ⟨-, hready, hw⟩ := h.rules pre _ (e :: post) hlog
    have hpre : LanSplit pre := splits hlog
    have he := h.rules (pre ++ [.offer c o w .deferred]) e post (by simp [hlog])
    have hsame := (hpre.deferred c o w).2
    have := he.offersOrEnds (by rw [hsame]; exact hready)
    rwa [hsame, ← hw] at this
  · intro hbuffered
    have hready := (lanFrameBuffered_iff h.good).mp hbuffered
    refine ⟨h.waits hready, fun p => ?_⟩
    obtain ⟨ht, more, hlog, -, hmore⟩ := handleWiFiServer_passed (p := p) h
    obtain ⟨e, rest, rfl⟩ := List.exists_cons_of_ne_nil (hmore hready)
    have he := (ht.rules s.log e rest hlog).offersOrEnds (by rw [h.buf]; exact hready)
    rw [h.buf] at he
    exact ⟨e, rest, hlog, he⟩
  · intro pre e post hlog
    exact (h.rules pre e post hlog).1
  · intro p
    obtain ⟨-, more, hlog, htotal, -⟩ := handleWiFiServer_passed (p := p) h
    exact ⟨more, hlog, htotal⟩

/-- A plain client sends two frames in one read, and the second is deferred. -/
def framedRun : List LanStep :=
  [.save (.loaded (wifiConfig false)),
    .pass (livePass true [2, 0, 0x00, 0x43, 3, 0, 0x00, 0x44, 0x01]
      [{ outcome := .accepted }, { outcome := .deferred }]),
    .pass (livePass false [] [])]

/-- The next pass takes the second frame, and the frames consumed are those of the stream. -/
theorem handleWiFiServer_framing_deferred :
    let s := lanRun framedRun (lanBoot (wifiConfig false) true)
    let bytes : Bytes → List LanByte := List.map (⟨·, .raw (some ⟨0, false⟩)⟩)
    s.log =
      [.opened ⟨0, false⟩, .read (bytes [2, 0, 0x00, 0x43, 3, 0, 0x00, 0x44, 0x01]),
        .offer (some ⟨0, false⟩) .lanPlain (bytes [2, 0, 0x00, 0x43]) .accepted,
        .offer (some ⟨0, false⟩) .lanPlain (bytes [3, 0, 0x00, 0x44, 0x01]) .deferred,
        .offer (some ⟨0, false⟩) .lanPlain (bytes [3, 0, 0x00, 0x44, 0x01]) .accepted] ∧
    (lanSession s.log).frames.map lanPayload = [[0x00, 0x43], [0x00, 0x44, 0x01]] ∧
    (lanSession s.log).frames.map lanPayload <+: lanFrames (lanValues (lanSession s.log).received) := by
  refine ⟨by decide +kernel, by decide +kernel, ?_⟩
  have hfirst := ((handleWiFiServer_framing (wifiConfig false) true framedRun).1 _ List.prefix_rfl).1 []
  rwa [List.append_nil] at hfirst

end Passes

end OpenDisplay
