import OpenDisplay.Inflate.Decode
import OpenDisplay.Lib.Trace
import OpenDisplay.Xfer.Coupling

/-! The bytes of a transfer: what it is given, what it writes to the panel, and
where. -/

namespace OpenDisplay

open Traces

/-- The account of the current transfer, read off the log: the bytes given to
it, those of every write to the panel, and those of the writes that the panel
took whole. -/
structure Tally where
  compressed : Bool := false
  expected : UInt32 := 0
  given : Bytes := []
  offered : Bytes := []
  accepted : Bytes := []

def Tally.add (t : Tally) : Event → Tally
  | .admitted _ compressed expected => { compressed := compressed, expected := expected }
  | .beginFull _ | .beginPartial _ => { t with given := [], offered := [], accepted := [] }
  | .stream data => { t with given := t.given ++ data }
  | .write _ data consumed =>
    { t with
      offered := t.offered ++ data
      accepted := if consumed = UInt32.ofNat data.length then t.accepted ++ data else t.accepted }
  | _ => t

def tally (es : List Event) : Tally := es.foldl Tally.add {}

/-- The image that the bytes given so far stand for. -/
def Tally.source (t : Tally) : Bytes := if t.compressed then inflated t.expected t.given else t.given

/-- A write follows accepted ones only, starts where they end and stays within
the image. -/
def Tally.Fits (t : Tally) : Event → Prop
  | .write offset data _ => t.offered = t.accepted ∧
    offset.toNat = t.accepted.length ∧ t.accepted.length + data.length ≤ t.expected.toNat
  | _ => True

/-- What was written, and what was accepted of it, is the front of the image. -/
def Tally.Leads (t : Tally) : Prop := t.offered <+: t.source ∧ t.accepted <+: t.source

/-- Every write fits, and at every moment the written bytes lead the image. -/
def Booked (es : List Event) : Prop :=
  Always (fun pre e => (tally pre).Fits e) es ∧ ∀ pre, pre <+: es → (tally pre).Leads

theorem tally_concat (es : List Event) (e : Event) : tally (es ++ [e]) = (tally es).add e := by
  simp [tally]

theorem tally_log (e : Event) (d : Dev) : tally (d.log e).events = (tally d.events).add e :=
  tally_concat _ _

theorem Booked.concat {es : List Event} {e : Event} (h : Booked es) (hf : (tally es).Fits e)
    (hl : ((tally es).add e).Leads) : Booked (es ++ [e]) := by
  refine ⟨always_concat.mpr ⟨h.1, hf⟩, fun pre hpre => ?_⟩
  rcases List.prefix_concat_iff.mp hpre with rfl | hpre
  · rw [tally_concat]
    exact hl
  · exact h.2 pre hpre

/-- Events that the account does not see. -/
def untallied : Event → Bool
  | .admitted _ _ _ | .beginFull _ | .beginPartial _ | .stream _ | .write _ _ _ => false
  | _ => true

theorem Tally.add_untallied (t : Tally) {e : Event} (he : untallied e = true) : t.add e = t := by
  cases e <;> first | rfl | exact absurd he nofun

theorem untallied_append (es : List Event) {es' : List Event}
    (h : ∀ e ∈ es', untallied e = true) :
    tally (es ++ es') = tally es ∧ (Booked es → Booked (es ++ es')) := by
  induction es' using List.reverseRecOn with
  | nil => simp
  | append_singleton es' e ih =>
    obtain ⟨ht, hb⟩ := ih fun e he => h e (by simp [he])
    have he := h e (by simp)
    rw [← List.append_assoc, tally_concat, ht, Tally.add_untallied _ he]
    refine ⟨rfl, fun hes => (hb hes).concat ?_ ?_⟩
    · cases e <;> trivial
    · rw [Tally.add_untallied _ he]
      exact (hb hes).2 _ List.prefix_rfl

theorem Booked.log {es : List Event} (h : Booked es) {e : Event} (he : untallied e = true) :
    Booked (es ++ [e]) := (untallied_append es (by simpa using he)).2 h

theorem quiet_untallied {e : Event} (h : quiet e = true) : untallied e = true := by
  cases e <;> first | rfl | simp [quiet] at h

section Writes

variable {app : App} {t : Tally} {off out : Bytes} {d d' : Dev}

/-- A transfer with account `t` has written `off`, of which `out` was accepted,
and where it should. -/
structure Taken (t : Tally) (off out : Bytes) (d : Dev) : Prop where
  account : tally d.events = { t with offered := off, accepted := out }
  expected : d.xfer.expectedBytes = t.expected
  written : d.xfer.writtenBytes.toNat = out.length
  bound : out.length ≤ t.expected.toNat
  fits : Always (fun pre e => (tally pre).Fits e) d.events

theorem Taken.logged (h : Taken t out out d) {data : Bytes}
    (hroom : out.length + data.length ≤ t.expected.toNat) (consumed : UInt32) :
    Always (fun pre e => (tally pre).Fits e)
      (d.events ++ [.write d.xfer.writtenBytes data consumed]) := by
  refine always_concat.mpr ⟨h.fits, ?_⟩
  rw [h.account]
  exact ⟨rfl, h.written, hroom⟩

theorem Taken.writeAll (h : Taken t out out d) {data : Bytes}
    (hroom : out.length + data.length ≤ t.expected.toNat) {ok : Bool}
    (hw : writeAll app data d = (ok, d')) :
    Taken t (out ++ data) (if ok then out ++ data else out) d' := by
  have hlog := h.logged hroom (app.write d.events d.xfer.writtenBytes data)
  have htally : tally (d.events ++ [.write d.xfer.writtenBytes data
      (app.write d.events d.xfer.writtenBytes data)]) =
      { t with
        offered := out ++ data
        accepted := if app.write d.events d.xfer.writtenBytes data = UInt32.ofNat data.length
          then out ++ data else out } := by
    rw [tally_concat, h.account]
    rfl
  unfold OpenDisplay.writeAll odXferAppWrite at hw
  dsimp only at hw
  split_ifs at hw with hne
  · obtain ⟨rfl, rfl⟩ := Prod.mk.inj hw
    rw [if_neg hne] at htally
    exact ⟨htally, h.expected, h.written, h.bound, hlog⟩
  · obtain ⟨rfl, rfl⟩ := Prod.mk.inj hw
    rw [ne_eq, not_not] at hne
    rw [if_pos hne] at htally
    refine ⟨htally, h.expected, ?_, ?_, hlog⟩
    · have hlt := t.expected.toNat_lt
      change (d.xfer.writtenBytes + app.write d.events d.xfer.writtenBytes data).toNat = _
      rw [hne, UInt32.toNat_add, UInt32.toNat_ofNat', h.written, if_pos rfl, List.length_append]
      omega
    · simpa using hroom

theorem Taken.room (h : Taken t off out d) {n : Nat}
    (hfit : ¬ (d.xfer.expectedBytes < d.xfer.writtenBytes ∨ (d.xfer.expectedBytes - d.xfer.writtenBytes).toNat < n)) :
    out.length + n ≤ t.expected.toNat := by
  rw [not_or, UInt32.not_lt, Nat.not_lt] at hfit
  obtain ⟨hle, hn⟩ := hfit
  rw [UInt32.toNat_sub_of_le _ _ hle, h.expected, h.written] at hn
  have := h.bound
  omega

/-- The inflater's sink books what it accepts; after a refusal the books show
what was accepted before it. -/
theorem streamSink_sinks (app : App) (t : Tally) :
    Sinks (streamSink app) (fun o => Taken t o o) fun o d =>
      ∃ off out, off <+: o ∧ out <+: o ∧ Taken t off out d where
  accept {o out q q'} ht h := by
    unfold streamSink at h
    split_ifs at h with hbad hroom
    · simp at h
    · simp at h
    · split at h
      · simp at h
      · next u hu =>
        obtain rfl := (Prod.mk.inj h).2
        exact ht.writeAll (ht.room hroom) hu
  refuse {o out q q'} ht h := by
    have hlead : o <+: o ++ out := List.prefix_append o out
    unfold streamSink at h
    split_ifs at h with hbad hroom
    · obtain rfl := (Prod.mk.inj h).2
      exact ⟨o, o, hlead, hlead, ht⟩
    · obtain rfl := (Prod.mk.inj h).2
      exact ⟨o, o, hlead, hlead, ht⟩
    · split at h
      · next u hu =>
        obtain rfl := (Prod.mk.inj h).2
        have hw := ht.writeAll (ht.room hroom) hu
        exact ⟨o ++ out, o, List.prefix_rfl, hlead, hw.account, hw.expected, hw.written, hw.bound,
          hw.fits⟩
      · simp at h

/-- The last verdict of the pump on the current transfer. -/
def lastPump (es : List Event) : Option PumpStatus :=
  es.foldl (fun last e => match e with
    | .admitted _ _ _ => none
    | .pump status => some status
    | _ => last) none

theorem lastPump_pump (es : List Event) (status : PumpStatus) :
    lastPump (es ++ [.pump status]) = some status := by
  simp [lastPump]

theorem Taken.pump (h : Taken t off out d) (status : PumpStatus) (pump : Pump) :
    Taken t off out (Dev.log (.pump status) { d with pump := pump }) where
  account := by
    change tally (d.events ++ [_]) = _
    rw [tally_concat, h.account]
    rfl
  expected := h.expected
  written := h.written
  bound := h.bound
  fits := always_concat.mpr ⟨h.fits, trivial⟩

/-- What a push into the stream leaves in the books. -/
theorem Decoded.streamPush {xs input : Bytes} (hdec : Decoded t.expected xs t.accepted d.pump)
    (ht : Taken t t.accepted t.accepted d) (hgiven : t.given = xs ++ input) {final : Bool} {r : StreamResult}
    (hr : odXferStreamPush app input final d = (r, d')) :
    ∃ off out, Taken t off out d' ∧ off <+: inflated t.expected t.given ∧
      out <+: inflated t.expected t.given ∧ (r = .ok → off = out ∧
      (final = false → Decoded t.expected t.given out d'.pump) ∧
      (final = true → Inflates t.expected t.given out ∧ out.length = t.expected.toNat ∧
        lastPump d'.events = some .done)) := by
  have ht' : Taken t t.accepted t.accepted { d with sinkFailed := false } :=
    ⟨ht.account, ht.expected, ht.written, ht.bound, ht.fits⟩
  rw [hgiven]
  unfold odXferStreamPush at hr
  dsimp only at hr
  by_cases hzero : app.inflateScratch d.events = 0
  · rw [if_pos hzero] at hr
    obtain ⟨rfl, rfl⟩ := Prod.mk.inj hr
    exact ⟨t.accepted, t.accepted, ht, hdec.leads input, hdec.leads input, nofun⟩
  · rw [if_neg hzero] at hr
    cases hp : portable.odZlibPumpPush (streamSink app) input final (app.inflateScratch d.events)
        (d.pump, { d with sinkFailed := false }) with
    | mk status w =>
      obtain ⟨pump, u⟩ := w
      rw [hp] at hr
      dsimp only at hr
      obtain ⟨out, hlead, hstop⟩ :=
        hdec.push (streamSink_sinks app t) ht' (Nat.pos_of_ne_zero hzero) hp
      cases status with
      | more =>
        obtain ⟨htaken, rfl, hdec'⟩ := hstop
        simp only [reduceCtorEq, if_false, true_or, if_true] at hr
        obtain ⟨rfl, rfl⟩ := Prod.mk.inj hr
        exact ⟨out, out, htaken.pump _ _, hlead, hlead, fun _ => ⟨rfl, fun _ => hdec', nofun⟩⟩
      | done =>
        obtain ⟨htaken, hinf, hlen, hdec'⟩ := hstop
        simp only [reduceCtorEq, if_false, or_true, if_true] at hr
        obtain ⟨rfl, rfl⟩ := Prod.mk.inj hr
        exact ⟨out, out, htaken.pump _ _, hlead, hlead, fun _ => ⟨rfl, hdec', fun _ =>
          ⟨hinf, hlen, lastPump_pump _ _⟩⟩⟩
      | error =>
        simp only [if_true] at hr
        have hne : r ≠ .ok := by
          rintro rfl
          have := congrArg Prod.fst hr
          dsimp only at this
          split_ifs at this
        obtain ⟨-, rfl⟩ := Prod.mk.inj hr
        rcases hstop with htaken | ⟨off', out', hoff, hout, htaken⟩
        · exact ⟨out, out, htaken.pump _ _, hlead, hlead, fun h => absurd h hne⟩
        · exact ⟨off', out', htaken.pump _ _, hoff.trans hlead, hout.trans hlead,
            fun h => absurd h hne⟩

end Writes

section Feeding

variable {app : App} {d d' : Dev}

/-- The byte counts of a transfer agree with its log. -/
structure Account (d : Dev) : Prop where
  compressed : (tally d.events).compressed = d.xfer.compressed
  expected : d.xfer.expectedBytes = (tally d.events).expected
  written : d.xfer.writtenBytes.toNat = (tally d.events).accepted.length
  bound : (tally d.events).accepted.length ≤ (tally d.events).expected.toNat

/-- All that the transfer was given has gone where it belongs. -/
structure Sound (d : Dev) : Prop where
  whole : (tally d.events).offered = (tally d.events).accepted
  raw : d.xfer.compressed = false →
    (tally d.events).accepted = (tally d.events).given.take (tally d.events).expected.toNat
  packed : d.xfer.compressed = true → Decoded (tally d.events).expected (tally d.events).given
    (tally d.events).accepted d.pump

theorem booked_streams {es es' : List Event} (h : Booked es)
    (hes : ∀ e ∈ es', (∃ o b c, e = .write o b c) ∨ ∃ status, e = .pump status)
    (hfits : Always (fun pre e => (tally pre).Fits e) (es ++ es'))
    (hl : (tally (es ++ es')).Leads) : Booked (es ++ es') := by
  refine ⟨hfits, ?_⟩
  clear hfits
  induction es' using List.reverseRecOn with
  | nil =>
    rw [List.append_nil]
    exact h.2
  | append_singleton es' e ih =>
    rw [← List.append_assoc, tally_concat] at hl
    have hbefore : (tally (es ++ es')).Leads := by
      rcases hes e (by simp) with ⟨o, b, c, rfl⟩ | ⟨status, rfl⟩
      · refine ⟨(List.prefix_append _ b).trans hl.1, List.IsPrefix.trans ?_ hl.2⟩
        simp only [Tally.add]
        split_ifs
        · exact List.prefix_append _ b
        · exact List.prefix_rfl
      · exact hl
    intro pre hpre
    rw [← List.append_assoc] at hpre
    rcases List.prefix_concat_iff.mp hpre with rfl | hpre
    · rw [tally_concat]
      exact hl
    · exact ih (fun e he => hes e (by simp [he])) hbefore pre hpre

theorem tally_give (bytes : Bytes) (received : UInt32) (d : Dev) :
    tally (d.give bytes received).events =
      { tally d.events with given := (tally d.events).given ++ bytes } := tally_concat _ _

theorem Account.taken (h : Account d) (hb : Booked d.events)
    (hw : (tally d.events).offered = (tally d.events).accepted) :
    Taken (tally d.events) (tally d.events).accepted (tally d.events).accepted d := by
  refine ⟨?_, h.expected, h.written, h.bound, hb.1⟩
  cases ht : tally d.events with
  | mk c e g o a =>
    rw [ht] at hw
    obtain rfl : o = a := hw
    rfl

theorem Account.give (h : Account d) (bytes : Bytes) (received : UInt32) :
    Account (d.give bytes received) := by
  have ht := tally_give bytes received d
  refine ⟨?_, ?_, ?_, ?_⟩ <;> rw [ht]
  · exact h.compressed
  · exact h.expected
  · exact h.written
  · exact h.bound

theorem Booked.give (hb : Booked d.events) (h : Account d) (hs : Sound d) (bytes : Bytes)
    (received : UInt32) : Booked (d.give bytes received).events := by
  refine hb.concat trivial ?_
  cases hc : d.xfer.compressed with
  | false =>
    rw [← h.compressed] at hc
    obtain ⟨hoff, hacc⟩ := hb.2 _ List.prefix_rfl
    simp only [Tally.source, hc, Bool.false_eq_true, if_false] at hoff hacc
    simp only [Tally.Leads, Tally.add, Tally.source, hc, Bool.false_eq_true, if_false]
    exact ⟨hoff.trans (List.prefix_append _ bytes), hacc.trans (List.prefix_append _ bytes)⟩
  | true =>
    have hl := (hs.packed hc).leads bytes
    rw [← h.compressed] at hc
    simp only [Tally.Leads, Tally.add, Tally.source, hc, if_true]
    rw [hs.whole]
    exact ⟨hl, hl⟩

theorem take_clip (given bytes : Bytes) (n : Nat) :
    given.take n ++ bytes.take (min bytes.length (n - (given.take n).length)) =
      (given ++ bytes).take n := by
  rw [List.take_append, List.length_take]
  congr 1
  rcases Nat.le_total given.length n with hle | hle
  · rw [Nat.min_eq_right hle, Nat.min_comm, ← List.take_eq_take_min]
  · simp [Nat.min_eq_left hle, Nat.sub_eq_zero_of_le hle]

theorem Taken.books {off out : Bytes} (ht : Taken (tally d.events) off out d') (hst : Streams d d')
    (hb : Booked d.events) (hc : (tally d.events).compressed = d.xfer.compressed)
    (hoff : off <+: (tally d.events).source) (hout : out <+: (tally d.events).source) :
    Booked d'.events ∧ Account d' := by
  obtain ⟨es, hes, hall⟩ := hst.events
  obtain ⟨r, w, hx⟩ := hst.xfer
  have hfits := ht.fits
  have htally := ht.account
  refine ⟨?_, ?_, ?_, ?_, ?_⟩
  · rw [hes] at hfits htally ⊢
    refine booked_streams hb hall hfits ?_
    rw [htally]
    exact ⟨hoff, hout⟩
  · rw [htally, hx]
    exact hc
  · rw [htally]
    exact ht.expected
  · rw [htally]
    exact ht.written
  · rw [htally]
    exact ht.bound

theorem Account.push (ha : Account d) (hb : Booked d.events)
    (hw : (tally d.events).offered = (tally d.events).accepted) (hc : d.xfer.compressed = true)
    (xs : Bytes) {input : Bytes}
    (hdec : Decoded (tally d.events).expected xs (tally d.events).accepted d.pump)
    (hgiven : (tally d.events).given = xs ++ input) {final : Bool} {r : StreamResult}
    (hr : odXferStreamPush app input final d = (r, d')) :
    Booked d'.events ∧ Account d' ∧ (r = .ok →
      (tally d'.events).offered = (tally d'.events).accepted ∧
      (final = false → Decoded (tally d'.events).expected (tally d'.events).given
        (tally d'.events).accepted d'.pump) ∧
      (final = true → Inflates (tally d'.events).expected (tally d'.events).given
          (tally d'.events).accepted ∧
        (tally d'.events).accepted.length = (tally d'.events).expected.toNat ∧
        lastPump d'.events = some .done)) := by
  obtain ⟨off, out, htaken, hoff, hout, hafter⟩ := hdec.streamPush (ha.taken hb hw) hgiven hr
  have hst := odXferStreamPush_streams app input final d
  rw [hr] at hst
  have hsrc : (tally d.events).source = inflated (tally d.events).expected (tally d.events).given := by
    rw [Tally.source, ha.compressed, hc, if_pos rfl]
  obtain ⟨hb', ha'⟩ := htaken.books hst hb ha.compressed (hsrc ▸ hoff) (hsrc ▸ hout)
  refine ⟨hb', ha', fun hok => ?_⟩
  rw [htaken.account]
  exact hafter hok

theorem Account.raw (ha : Account d) (hb : Booked d.events)
    (hw : (tally d.events).offered = (tally d.events).accepted) (hc : d.xfer.compressed = false)
    (old : Bytes) {bytes : Bytes}
    (hold : (tally d.events).accepted = old.take (tally d.events).expected.toNat)
    (hgiven : (tally d.events).given = old ++ bytes) {ok : Bool}
    (hr : directRaw app bytes d = (ok, d')) :
    Booked d'.events ∧ Account d' ∧ (ok = true →
      (tally d'.events).offered = (tally d'.events).accepted ∧ (tally d'.events).accepted =
        (tally d'.events).given.take (tally d'.events).expected.toNat) := by
  have hle : ¬ d.xfer.expectedBytes < d.xfer.writtenBytes := by
    rw [UInt32.not_lt, UInt32.le_iff_toNat_le, ha.expected, ha.written]
    exact ha.bound
  have hroom : (d.xfer.expectedBytes - d.xfer.writtenBytes).toNat =
      (tally d.events).expected.toNat - (tally d.events).accepted.length := by
    rw [UInt32.toNat_sub_of_le _ _ (UInt32.not_lt.mp hle), ha.expected, ha.written]
  have hclip := take_clip old bytes (tally d.events).expected.toNat
  rw [← hold, ← hgiven] at hclip
  have hst := directRaw_streams app bytes d
  rw [hr] at hst
  rw [directRaw_clips app bytes hle, hroom] at hr
  have hsrc : (tally d.events).source = (tally d.events).given := by
    simp [Tally.source, ha.compressed, hc]
  split_ifs at hr with hnil
  · obtain ⟨rfl, rfl⟩ := Prod.mk.inj hr
    rw [hnil, List.append_nil] at hclip
    exact ⟨hb, ha, fun _ => ⟨hw, hclip⟩⟩
  · have hlen : (tally d.events).accepted.length + (bytes.take (min bytes.length
        ((tally d.events).expected.toNat - (tally d.events).accepted.length))).length ≤
        (tally d.events).expected.toNat := by
      have := ha.bound
      rw [List.length_take]
      omega
    have htaken := (ha.taken hb hw).writeAll hlen hr
    rw [hclip] at htaken
    have hoff : (tally d.events).given.take (tally d.events).expected.toNat <+:
        (tally d.events).source := by
      rw [hsrc]
      exact List.take_prefix _ _
    have hout : (if ok then (tally d.events).given.take (tally d.events).expected.toNat
        else (tally d.events).accepted) <+: (tally d.events).source := by
      split_ifs
      · exact hoff
      · exact (hb.2 _ List.prefix_rfl).2
    obtain ⟨hb', ha'⟩ := htaken.books hst hb ha.compressed hoff hout
    refine ⟨hb', ha', fun hok => ?_⟩
    rw [htaken.account, hok]
    exact ⟨rfl, rfl⟩

theorem Fed.account {bytes : Bytes} {received : UInt32} {ok : Bool}
    (hf : Fed app bytes (d.give bytes received) ok d') (hb : Booked d.events) (h : Account d)
    (hs : Sound d) : Booked d'.events ∧ Account d' ∧ (ok = true → Sound d') := by
  have hb1 := hb.give h hs bytes received
  have ha1 := h.give bytes received
  obtain ⟨r, w, hx⟩ := hf.streams.xfer
  have hmode : d'.xfer.compressed = d.xfer.compressed := by rw [hx]; rfl
  have ht := tally_give bytes received d
  rcases hf with hf | ⟨rfl, rfl⟩
  · unfold feed at hf
    split_ifs at hf with hc
    · have hpacked : d.xfer.compressed = true := hc
      cases hp : odXferStreamPush app bytes false (d.give bytes received) with
      | mk r u =>
        rw [hp] at hf
        obtain ⟨rfl, rfl⟩ := Prod.mk.inj hf
        obtain ⟨hb', ha', hafter⟩ := ha1.push hb1 (by rw [ht]; exact hs.whole) hc
          (tally d.events).given (by rw [ht]; exact hs.packed hpacked) (by rw [ht]) hp
        refine ⟨hb', ha', fun hok => ?_⟩
        obtain ⟨hwhole, hdec, -⟩ := hafter (of_decide_eq_true hok)
        exact ⟨hwhole, fun hraw => absurd (hraw.symm.trans (hmode.trans hpacked)) nofun,
          fun _ => hdec rfl⟩
    · have hraw : d.xfer.compressed = false := Bool.eq_false_of_not_eq_true hc
      obtain ⟨hb', ha', hafter⟩ := ha1.raw hb1 (by rw [ht]; exact hs.whole) hraw
        (tally d.events).given (by rw [ht]; exact hs.raw hraw) (by rw [ht]) hf
      refine ⟨hb', ha', fun hok => ?_⟩
      obtain ⟨hwhole, hclip⟩ := hafter hok
      exact ⟨hwhole, fun _ => hclip,
        fun hp => absurd (hp.symm.trans (hmode.trans hraw)) nofun⟩
  · exact ⟨hb1, ha1, nofun⟩

end Feeding

end OpenDisplay
