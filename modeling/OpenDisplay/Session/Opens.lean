import Mathlib.Data.List.DropRight
import OpenDisplay.Session.Invariant
import OpenDisplay.Session.Teardown

/-! Envelopes that are refused. Only a right tag moves the receive state, only a wrong
one counts against the session, and the third since the last that was opened ends it. -/

namespace OpenDisplay

section Strikes

/-- The result of an envelope. -/
def Entry.opening (e : Entry) : Option OpenResult :=
  match e.call with
  | .openFrame c => some (odSessionOpen e.before c).result
  | _ => none

/-- The wrong tags since the last envelope that was opened. -/
def strikes (seg : List Entry) : Nat :=
  (seg.rtakeWhile fun m => m.opening ≠ some .ok).countP fun m => m.opening = some .badTag

variable {seg : List Entry} {e : Entry}

theorem strikes_ok (h : e.opening = some .ok) : strikes (seg ++ [e]) = 0 := by
  rw [strikes, List.rtakeWhile_concat_neg _ _ _ (by simp [h])]
  rfl

theorem strikes_badTag (h : e.opening = some .badTag) : strikes (seg ++ [e]) = strikes seg + 1 := by
  rw [strikes, List.rtakeWhile_concat_pos _ _ _ (by simp [h]), List.countP_append]
  simp [strikes, h]

theorem strikes_other (hok : e.opening ≠ some .ok) (htag : e.opening ≠ some .badTag) :
    strikes (seg ++ [e]) = strikes seg := by
  rw [strikes, List.rtakeWhile_concat_pos _ _ _ (by simpa using hok), List.countP_append]
  simp [strikes, htag]

end Strikes

section Runs

/-- The call finds the session expired, replaces it or clears it. -/
def Entry.Disturbs (e : Entry) : Prop :=
  match e.call with
  | .authenticate a => e.before.Replaced a
  | .openFrame c => e.before.Expired c.nowMs
  | .sealFrame c => e.before.Expired c.nowMs
  | .alive nowMs => e.before.Expired nowMs
  | .touch _ => False
  | .clear => True

/-- What a call does to an open session: it stays, with the count that the envelope
leaves, or it is disturbed, or it is struck out. -/
inductive EntryFate (e : Entry) : Prop where
  | kept (authenticated : e.after.authenticated = e.before.authenticated)
      (failures : e.after.integrityFailures =
        e.opening.elim e.before.integrityFailures (·.failures e.before.integrityFailures))
      (few : e.opening = some .badTag → e.before.integrityFailures.toNat + 1 < 3)
  | disturbed (closed : e.after.authenticated = false) (disturbs : e.Disturbs)
  | struckOut (closed : e.after.authenticated = false) (opened : e.before.authenticated = true)
      (badTag : e.opening = some .badTag) (third : 3 ≤ e.before.integrityFailures.toNat + 1)

theorem open_fate (s : Session) (c : OpenCall) : EntryFate ⟨s, .openFrame c⟩ := by
  have hafter : (Entry.mk s (.openFrame c)).after = (odSessionOpen s c).session := rfl
  have hresult : (Entry.mk s (.openFrame c)).opening = some (odSessionOpen s c).result := rfl
  have hopening := odSessionOpen_opening s c
  generalize odSessionOpen s c = out at hopening hafter hresult
  have hkept : out.session.authenticated = s.authenticated →
      out.session.integrityFailures = out.result.failures s.integrityFailures →
      (out.result = .badTag → s.integrityFailures.toNat + 1 < 3) → EntryFate ⟨s, .openFrame c⟩ := by
    intro hauth hfailures hfew
    exact .kept (by rw [hafter, hauth]) (by rw [hafter, hfailures, hresult]; rfl)
      (fun h => hfew (Option.some.inj (hresult.symm.trans h)))
  have hinert : out.session = s → out.result.inert = true → EntryFate ⟨s, .openFrame c⟩ := by
    intro hs hi
    refine hkept (by rw [hs]) (by rw [hs, OpenResult.failures_of_inert hi]) fun hbad => ?_
    rw [hbad] at hi
    exact absurd hi (by decide)
  cases hopening with
  | refused hi _ => exact hinert rfl hi
  | expired _ hauth hdead => exact .disturbed (by rw [hafter]; rfl) (expired_of_dead hdead hauth)
  | read _ _ _ hauth _ hread =>
    cases hread with
    | refused hi _ => exact hinert rfl hi
    | badTag =>
      rw [strike_eq] at hafter hkept
      by_cases hthird : odSessionIntegrityStrikes.toNat ≤ s.integrityFailures.toNat + 1
      · rw [if_pos hthird] at hafter
        exact .struckOut (by rw [hafter]; rfl) hauth hresult hthird
      · rw [if_neg hthird] at hkept
        exact hkept rfl rfl fun _ => Nat.not_le.mp hthird
    | badLength => exact hkept rfl rfl (by simp)
    | opened => exact hkept rfl rfl (by simp)

theorem alive_fate (s : Session) (nowMs : UInt32) {e : Entry} (hbefore : e.before = s)
    (hafter : e.after = (odSessionAlive s nowMs).2) (hopening : e.opening = none)
    (hdisturbs : s.Expired nowMs → e.Disturbs) : EntryFate e := by
  rcases odSessionAlive_cases s nowMs with ⟨ha, -⟩ | ⟨ha, -⟩ | ⟨ha, hauth⟩
  · rw [ha, ← hbefore] at hafter
    exact .kept (by rw [hafter]) (by rw [hafter, hopening]; rfl) (by simp [hopening])
  · rw [ha, ← hbefore] at hafter
    exact .kept (by rw [hafter]) (by rw [hafter, hopening]; rfl) (by simp [hopening])
  · rw [ha] at hafter
    exact .disturbed (by rw [hafter]; rfl) (hdisturbs (expired_of_dead (by rw [ha]) hauth))

theorem call_fate (e : Entry) (hest : e.auth ≠ some .established) : EntryFate e := by
  obtain ⟨s, call⟩ := e
  cases call with
  | authenticate a =>
    have hafter : (Entry.mk s (.authenticate a)).after = (odSessionAuthenticate s a).session := rfl
    rcases odSessionAuthenticate_requested s a with
      ⟨hs, -⟩ | @⟨sessionId, pending, ms, nonce, hs, -, -, -⟩ | ⟨hreplaced, hclosed, -, -⟩ | ⟨hr, -, -⟩
    · exact .kept (by rw [hafter, hs]) (by rw [hafter, hs]; rfl) (by simp [Entry.opening])
    · exact .kept (by rw [hafter, hs]; rfl) (by rw [hafter, hs]; rfl) (by simp [Entry.opening])
    · exact .disturbed (by rw [hafter, hclosed]) hreplaced
    · exact absurd (by rw [auth_eq, hr]) hest
  | openFrame c => exact open_fate s c
  | sealFrame c =>
    have hafter : (Entry.mk s (.sealFrame c)).after = (odSessionSeal s c).session := rfl
    rcases odSessionSeal_cases s c with ⟨result, -, heq⟩ | ⟨-, heq⟩ | ⟨frame, -, -, -, -, heq⟩
    · exact .kept (by rw [hafter, heq]) (by rw [hafter, heq]; rfl) (by simp [Entry.opening])
    · exact alive_fate s c.nowMs rfl (by rw [hafter, heq]) rfl id
    · have hrests := sealFrame_rests s frame c
      rw [← heq, ← hafter] at hrests
      exact .kept hrests.authenticated hrests.integrityFailures (by simp [Entry.opening])
  | alive nowMs => exact alive_fate s nowMs rfl rfl rfl id
  | touch nowMs => exact .kept rfl rfl (by simp [Entry.opening])
  | clear => exact .disturbed rfl trivial

/-- An open session has counted the wrong tags since the last envelope that was opened,
and never three of them; a closed one that nothing disturbed had three. -/
structure Struck (s : Session) (seg : List Entry) : Prop where
  counted : s.authenticated = true → s.integrityFailures.toNat = strikes seg
  few : s.authenticated = true → ∀ seg', seg' <+: seg → strikes seg' < 3
  out : (∀ m ∈ seg, ¬ m.Disturbs) → s.authenticated = false → ∃ seg', seg' <+: seg ∧ strikes seg' = 3

variable {s : Session} {seg : List Entry} {e : Entry}

theorem Struck.established (hauth : s.authenticated = true) (hfailures : s.integrityFailures = 0) :
    Struck s [] := by
  refine ⟨fun _ => by rw [hfailures]; rfl, fun _ seg' h => ?_, fun _ hclosed => ?_⟩
  · rw [List.prefix_nil.mp h]
    decide
  · rw [hauth] at hclosed
    exact absurd hclosed (by decide)

theorem strikes_failures (hcount : e.before.integrityFailures.toNat = strikes seg)
    (hfew : e.opening = some .badTag → e.before.integrityFailures.toNat + 1 < 3) :
    (e.opening.elim e.before.integrityFailures (·.failures e.before.integrityFailures)).toNat =
      strikes (seg ++ [e]) := by
  by_cases hok : e.opening = some .ok
  · rw [strikes_ok hok, hok]
    rfl
  by_cases htag : e.opening = some .badTag
  · have hroom := hfew htag
    rw [strikes_badTag htag, htag, ← hcount]
    change (e.before.integrityFailures + 1).toNat = _
    rw [UInt8.toNat_add, Nat.mod_eq_of_lt (by change _ + 1 < _; omega)]
    rfl
  · rw [strikes_other hok htag, ← hcount]
    rcases hopening : e.opening with - | result
    · rfl
    · cases result with
      | ok => exact absurd hopening hok
      | badTag => exact absurd hopening htag
      | _ => rfl

theorem Struck.step (h : Struck e.before seg) (hest : e.auth ≠ some .established) :
    Struck e.after (seg ++ [e]) := by
  have hquiet : (∀ m ∈ seg ++ [e], ¬ m.Disturbs) → (∀ m ∈ seg, ¬ m.Disturbs) ∧ ¬ e.Disturbs :=
    fun hall => ⟨fun m hm => hall m (by simp [hm]), hall e (by simp)⟩
  have hold : ∀ {seg'}, seg' <+: seg → seg' <+: seg ++ [e] := fun h => h.trans (List.prefix_append _ _)
  rcases call_fate e hest with ⟨hauth, hfailures, hfew⟩ | ⟨hclosed, hdisturbs⟩ | ⟨hclosed, hopened, htag, hthird⟩
  · have hcount : e.after.authenticated = true → e.after.integrityFailures.toNat = strikes (seg ++ [e]) := by
      intro hlive
      rw [hfailures]
      exact strikes_failures (h.counted (hauth.symm.trans hlive)) hfew
    refine ⟨hcount, ?_, ?_⟩
    · intro hlive seg' hprefix
      have hlive' := hauth.symm.trans hlive
      rcases List.prefix_concat_iff.mp hprefix with rfl | hprefix
      · by_cases hok : e.opening = some .ok
        · rw [strikes_ok hok]
          decide
        by_cases htag : e.opening = some .badTag
        · rw [strikes_badTag htag, ← h.counted hlive']
          exact hfew htag
        · rw [strikes_other hok htag]
          exact h.few hlive' seg (List.prefix_refl seg)
      · exact h.few hlive' seg' hprefix
    · intro hall hclosed
      obtain ⟨seg', hprefix, hthree⟩ := h.out (hquiet hall).1 (hauth.symm.trans hclosed)
      exact ⟨seg', hold hprefix, hthree⟩
  · refine ⟨?_, ?_, fun hall => absurd hdisturbs (hquiet hall).2⟩
    · intro hlive
      rw [hclosed] at hlive
      exact absurd hlive (by decide)
    · intro hlive
      rw [hclosed] at hlive
      exact absurd hlive (by decide)
  · refine ⟨?_, ?_, fun _ _ => ⟨seg ++ [e], List.prefix_refl _, ?_⟩⟩
    · intro hlive
      rw [hclosed] at hlive
      exact absurd hlive (by decide)
    · intro hlive
      rw [hclosed] at hlive
      exact absurd hlive (by decide)
    · have hbound := h.few hopened seg (List.prefix_refl seg)
      have hcount := h.counted hopened
      rw [strikes_badTag htag]
      omega

theorem sessionRun_struck (slot : UInt8) (calls : List Call) :
    SinceEstablished Struck (sessionRun slot calls) := by
  apply sessionRun_since
  · rintro ⟨s, call⟩ h
    cases call with
    | authenticate a =>
      rw [auth_eq, Option.some.injEq] at h
      rcases odSessionAuthenticate_requested s a with ⟨-, hx⟩ | ⟨-, -, -, hr⟩ | ⟨-, -, -, hr⟩ | ⟨-, hauth, hfailures⟩
      · rw [h] at hx
        exact absurd hx (by decide)
      · exact absurd h hr
      · exact absurd h hr
      · exact .established hauth hfailures
    | _ => simp [Entry.auth] at h
  · intro e seg hest h
    exact h.step hest

/-- A refusal below the third strike leaves the session as it was, but that a wrong tag
is counted; there is no session to leave once it has expired. -/
theorem refused_open_session (s : Session) (c : OpenCall) :
    let out := odSessionOpen s c
    (out.result.inert = true → out.result ≠ .noSession → out.session = s) ∧
      (out.result = .noSession → out.session = s ∧ s.authenticated = false ∨
        out.session = odSessionClear s ∧ s.Expired c.nowMs) ∧
      (out.result = .badTag → s.integrityFailures.toNat + 1 < odSessionIntegrityStrikes.toNat →
        out.session = { s with integrityFailures := s.integrityFailures + 1 }) := by
  have hopening := odSessionOpen_opening s c
  generalize odSessionOpen s c = out at hopening
  cases hopening with
  | refused hinert hdead =>
    refine ⟨fun _ _ => rfl, fun h => .inl ⟨rfl, hdead h⟩, fun h _ => ?_⟩
    dsimp only at h
    rw [h] at hinert
    exact absurd hinert (by decide)
  | expired _ hauth hdead =>
    exact ⟨fun _ h => absurd rfl h, fun _ => .inr ⟨rfl, expired_of_dead hdead hauth⟩, by simp⟩
  | read _ _ _ _ _ hread =>
    cases hread with
    | refused hinert hlive =>
      refine ⟨fun _ _ => rfl, fun h => absurd h hlive, fun h _ => ?_⟩
      dsimp only at h
      rw [h] at hinert
      exact absurd hinert (by decide)
    | badTag =>
      refine ⟨fun h => absurd h Bool.false_ne_true, by simp, fun _ hfew => ?_⟩
      dsimp only
      rw [strike_eq, if_neg (Nat.not_le.mpr hfew)]
    | badLength => exact ⟨fun h => absurd h Bool.false_ne_true, by simp, by simp⟩
    | opened => exact ⟨fun h => absurd h Bool.false_ne_true, by simp, by simp⟩

end Runs

/-- Only a verified frame moves the receive state. Whatever else is refused in between,
the opens of an undisturbed session end it when three wrong tags have come since the last
envelope that was opened, and not before. -/
theorem only_verified_frames_count :
    (∀ s c, let out := odSessionOpen s c
      (out.result ∈ [.short, .tooLong, .wrongSession, .replay, .noRoom, .cryptoError] → out.session = s) ∧
      (out.result = .noSession → out.session = s ∧ s.authenticated = false ∨
        out.session = odSessionClear s ∧ s.Expired c.nowMs) ∧
      (out.result = .badTag → s.integrityFailures.toNat + 1 < odSessionIntegrityStrikes.toNat →
        out.session = { s with integrityFailures := s.integrityFailures + 1 })) ∧
    ∀ slot calls pre e seg, (sessionRun slot calls).2 = pre ++ e :: seg → e.auth = some .established →
      (∀ m ∈ seg, m.auth ≠ some .established) → (∀ m ∈ seg, ¬ m.Disturbs) →
      ((sessionRun slot calls).1.authenticated = false ↔
        ∃ seg', seg' <+: seg ∧ strikes seg' = odSessionIntegrityStrikes.toNat) := by
  refine ⟨?_, ?_⟩
  · intro s c out
    obtain ⟨hinert, hnone, htag⟩ := refused_open_session s c
    refine ⟨fun h => ?_, hnone, htag⟩
    have hresult : out.result.inert = true ∧ out.result ≠ .noSession := by
      revert h
      cases out.result <;> decide
    exact hinert hresult.1 hresult.2
  · intro slot calls pre e seg hlog hest hseg hquiet
    have hstruck := sessionRun_struck slot calls pre e seg hlog hest hseg
    constructor
    · exact hstruck.out hquiet
    · rintro ⟨seg', hprefix, hthree⟩
      by_contra hlive
      have hfew := hstruck.few (by simpa using hlive) seg' hprefix
      rw [hthree] at hfew
      exact absurd hfew (by decide)

/-- An engine that finds no tag right. -/
def deafHal : Hal :=
  { oneHal with ccmDecrypt := fun _ _ _ ct => (.authFailed, .replicate (ct.length - odHalCryptoTagLen) 0) }

/-- An envelope of the session that the engine of ones opens, with counter 1. -/
def forgedAt (nowMs : UInt32) : Call :=
  .openFrame
    { cmd := 0x0044, envelope := some (List.replicate 8 1 ++ odBe64 1 ++ List.replicate 13 0), outCap := some 253
      nowMs := nowMs, hal := deafHal }

/-- The session that the two steps of a handshake with the engine of ones leave. -/
def openedByOnes : Session := ((odSessionInit 0).call (authAt [0x00] 0)).call (authAt (List.replicate 32 1) 0)

theorem only_verified_frames_count_three :
    (sessionRun 0 [authAt [0x00] 0, authAt (List.replicate 32 1) 0, forgedAt 1, forgedAt 2, forgedAt 3]).1.authenticated
        = false ↔
      ∃ seg', seg' <+: entries openedByOnes [forgedAt 1, forgedAt 2, forgedAt 3] ∧ strikes seg' = 3 := by
  apply only_verified_frames_count.2 0 _ [⟨odSessionInit 0, authAt [0x00] 0⟩]
    ⟨(odSessionInit 0).call (authAt [0x00] 0), authAt (List.replicate 32 1) 0⟩
  · rfl
  · decide
  · decide
  · intro m hm
    simp only [entries, List.mem_cons, List.not_mem_nil, or_false] at hm
    rcases hm with rfl | rfl | rfl
    · exact fun h => absurd h.2.2 (by decide)
    · exact fun h => absurd h.2.2 (by decide)
    · exact fun h => absurd h.2.2 (by decide)

end OpenDisplay
