import OpenDisplay.Session.Invariant
import OpenDisplay.Session.Teardown

/-! The limit on handshake requests. The count of attempts is kept in the session, so
that whatever clears the session clears the count with it; in a run where nothing does,
ten attempts that follow each other within the window are the last. -/

namespace OpenDisplay

/-- When the call was a request that its preflight and the rate limiter let through. -/
def Entry.attempt (e : Entry) : Option UInt32 :=
  match e.call with
  | .authenticate a =>
    if (odSessionAuthenticate e.before a).result.unexamined then none else some a.nowMs
  | _ => none

/-- The times of the attempts of a run. -/
def attempts (s : Session) (calls : List Call) : List UInt32 := (entries s calls).filterMap Entry.attempt

/-- Each attempt comes within the window of the one before it. -/
def Hurried (times : List UInt32) : Prop := times.IsChain fun t t' => t' - t < odSessionRateWindowMs

/-- The call clears a session in which attempts are counted; a request that is acted on
has been counted itself. -/
def Session.Forgets (s : Session) (c : Call) : Prop :=
  s.Ends c ∧ (s.authAttempts ≠ 0 ∨ ∃ a, c = .authenticate a)

instance (times : List UInt32) : Decidable (Hurried times) := by
  unfold Hurried
  infer_instance

section Step

variable {s : Session} {c : Call}

/-- An attempt that the limiter lets through counts for one more than the attempts
before it, if it comes within the window of the last. -/
theorem countAttempt_counts {nowMs : UInt32} {k : Nat} (hk : k ≤ s.authAttempts.toNat)
    (hpace : k ≠ 0 → nowMs - s.lastAuthMs < odSessionRateWindowMs) (hlimit : rateLimited s nowMs = false) :
    k < 10 ∧ k + 1 ≤ (countAttempt s nowMs).authAttempts.toNat := by
  rcases Nat.eq_zero_or_pos k with rfl | hpos
  · refine ⟨by decide, ?_⟩
    unfold countAttempt
    dsimp only
    generalize (if s.authAttempts ≠ 0 ∧ ¬ nowMs - s.lastAuthMs < odSessionRateWindowMs then 0
      else s.authAttempts) = n
    split_ifs with hn
    · have := UInt8.lt_iff_toNat_lt.mp hn
      rw [UInt8.toNat_add, Nat.mod_eq_of_lt (by change _ + 1 < _; change _ < 255 at this; omega)]
      exact Nat.le_add_left 1 _
    · have := UInt8.le_iff_toNat_le.mp (UInt8.not_lt.mp hn)
      exact Nat.le_trans (by decide) this
  · have hwindow := hpace hpos.ne'
    have hopen : s.authAttempts ≠ 0 := by
      intro h
      rw [h] at hk
      exact absurd hk (Nat.not_le.mpr hpos)
    have hfew : s.authAttempts.toNat < 10 := by
      simp only [rateLimited, hopen, hwindow, ne_eq, not_false_eq_true, decide_true, Bool.true_and,
        decide_eq_false_iff_not, UInt8.not_le] at hlimit
      exact UInt8.lt_iff_toNat_lt.mp hlimit
    refine ⟨by omega, ?_⟩
    have hroom : s.authAttempts < 0xff := UInt8.lt_iff_toNat_lt.mpr (Nat.lt_trans hfew (by decide))
    simp only [countAttempt, hwindow, not_true_eq_false, and_false, if_false, hroom, if_true]
    rw [UInt8.toNat_add, Nat.mod_eq_of_lt (by change _ + 1 < _; omega)]
    exact Nat.add_le_add_right hk 1

/-- A call that is no attempt leaves the count and its time alone, unless there was none
to clear. -/
theorem call_without_attempt (hnone : (Entry.mk s c).attempt = none) (hkeep : ¬ s.Forgets c) :
    (s.call c).authAttempts = s.authAttempts ∧ (s.call c).lastAuthMs = s.lastAuthMs ∨ s.authAttempts = 0 := by
  by_cases hzero : s.authAttempts = 0
  · exact .inr hzero
  refine .inl ?_
  have hends : ¬ s.Ends c := fun h => hkeep ⟨h, .inl hzero⟩
  cases c with
  | authenticate a =>
    have hunexamined : (odSessionAuthenticate s a).result.unexamined = true := by
      by_contra h
      simp [Entry.attempt, h] at hnone
    change (odSessionAuthenticate s a).session.authAttempts = _ ∧ (odSessionAuthenticate s a).session.lastAuthMs = _
    rcases odSessionAuthenticate_requested s a with ⟨hs, -⟩ | ⟨-, -, hx, -⟩ | ⟨-, -, hx, -⟩ | ⟨hr, -, -⟩
    · rw [hs]
      exact ⟨rfl, rfl⟩
    · rw [hx] at hunexamined
      exact absurd hunexamined (by decide)
    · rw [hx] at hunexamined
      exact absurd hunexamined (by decide)
    · rw [hr] at hunexamined
      exact absurd hunexamined (by decide)
  | openFrame c =>
    have hrests := open_rests hends
    exact ⟨hrests.authAttempts, hrests.lastAuthMs⟩
  | sealFrame c =>
    have hrests := seal_rests hends
    exact ⟨hrests.authAttempts, hrests.lastAuthMs⟩
  | alive nowMs =>
    have hs : s.call (.alive nowMs) = s := alive_rests hends
    rw [hs]
    exact ⟨rfl, rfl⟩
  | touch nowMs => exact ⟨rfl, rfl⟩
  | clear => exact absurd trivial hends

theorem call_with_attempt {nowMs : UInt32} (h : (Entry.mk s c).attempt = some nowMs)
    (hest : (Entry.mk s c).auth ≠ some .established) (hkeep : ¬ s.Forgets c) :
    rateLimited s nowMs = false ∧ (s.call c).authAttempts = (countAttempt s nowMs).authAttempts ∧
      (s.call c).lastAuthMs = nowMs := by
  cases c with
  | authenticate a =>
    have hexamined : (odSessionAuthenticate s a).result.unexamined = false := by
      by_contra hx
      simp [Entry.attempt, hx] at h
    obtain rfl : a.nowMs = nowMs := by simpa [Entry.attempt, hexamined] using h
    change _ ∧ (odSessionAuthenticate s a).session.authAttempts = _ ∧
      (odSessionAuthenticate s a).session.lastAuthMs = _
    rcases odSessionAuthenticate_requested s a with
      ⟨-, hx⟩ | @⟨sessionId, pending, ms, nonce, hs, hlimit, -, -⟩ | ⟨hreplaced, -, -, -⟩ | ⟨hr, -, -⟩
    · rw [hx] at hexamined
      exact absurd hexamined (by decide)
    · rw [hs]
      exact ⟨hlimit, rfl, rfl⟩
    · exact absurd ⟨hreplaced, .inr ⟨a, rfl⟩⟩ hkeep
    · exact absurd (by rw [auth_eq, hr]) hest
  | _ => simp [Entry.attempt] at h

end Step

/-- A run that goes on after `k` attempts, the last of them at the time that the session
remembers. -/
theorem attempts_bounded (calls : List Call) {s : Session} {k : Nat} (hk : k ≤ s.authAttempts.toNat)
    (hten : k ≤ 10) (hest : ∀ e ∈ entries s calls, e.auth ≠ some .established)
    (hkeep : ∀ e ∈ entries s calls, ¬ e.before.Forgets e.call)
    (hpace : Hurried (if k = 0 then attempts s calls else s.lastAuthMs :: attempts s calls)) :
    k + (attempts s calls).length ≤ 10 := by
  induction calls generalizing s k with
  | nil => simpa [attempts, entries] using hten
  | cons c calls ih =>
    have hest' : ∀ e ∈ entries (s.call c) calls, e.auth ≠ some .established :=
      fun e he => hest e (List.mem_cons_of_mem _ he)
    have hkeep' : ∀ e ∈ entries (s.call c) calls, ¬ e.before.Forgets e.call :=
      fun e he => hkeep e (List.mem_cons_of_mem _ he)
    have hhead := hkeep ⟨s, c⟩ List.mem_cons_self
    cases hattempt : (Entry.mk s c).attempt with
    | none =>
      have hrun : attempts s (c :: calls) = attempts (s.call c) calls := by
        simp [attempts, entries, hattempt]
      rw [hrun] at hpace ⊢
      rcases call_without_attempt hattempt hhead with ⟨hcount, hlast⟩ | hzero
      · exact ih (by rw [hcount]; exact hk) hten hest' hkeep' (by rw [hlast]; exact hpace)
      · obtain rfl : k = 0 := by simpa [hzero] using hk
        exact ih (Nat.zero_le _) hten hest' hkeep' (by simpa using hpace)
    | some nowMs =>
      have hrun : attempts s (c :: calls) = nowMs :: attempts (s.call c) calls := by
        simp [attempts, entries, hattempt]
      rw [hrun] at hpace ⊢
      obtain ⟨hlimit, hcount, hlast⟩ := call_with_attempt hattempt (hest ⟨s, c⟩ List.mem_cons_self) hhead
      have hnear : k ≠ 0 → nowMs - s.lastAuthMs < odSessionRateWindowMs := by
        intro hne
        rw [if_neg hne] at hpace
        exact (List.isChain_cons_cons.mp hpace).1
      have hafter : Hurried (nowMs :: attempts (s.call c) calls) := by
        by_cases hzero : k = 0
        · rwa [if_pos hzero] at hpace
        · rw [if_neg hzero] at hpace
          exact (List.isChain_cons_cons.mp hpace).2
      obtain ⟨hlt, hnext⟩ := countAttempt_counts hk hnear hlimit
      have hrest := ih (k := k + 1) (by rw [hcount]; exact hnext) hlt hest' hkeep' (by simpa [hlast] using hafter)
      rw [List.length_cons]
      omega

/-- In a run in which no handshake succeeds and no call clears a session with attempts
counted in it, at most ten attempts follow each other within the window. -/
theorem at_most_ten_attempts {s : Session} {calls : List Call}
    (hest : ∀ e ∈ entries s calls, e.auth ≠ some .established)
    (hkeep : ∀ e ∈ entries s calls, ¬ e.before.Forgets e.call) (hpace : Hurried (attempts s calls)) :
    (attempts s calls).length ≤ odSessionRateMaxAttempts.toNat := by
  have h := attempts_bounded calls (Nat.zero_le _) (Nat.zero_le _) hest hkeep (by simpa using hpace)
  rw [Nat.zero_add] at h
  exact h

theorem call_mem_of_mem_entries {calls : List Call} {s : Session} {e : Entry} (h : e ∈ entries s calls) :
    e.call ∈ calls := by
  induction calls generalizing s with
  | nil => simp [entries] at h
  | cons c calls ih =>
    rcases List.mem_cons.mp h with rfl | h
    · exact List.mem_cons_self
    · exact List.mem_cons_of_mem c (ih h)

/-- Ten requests that are neither step, and one more. -/
theorem at_most_ten_attempts_ten :
    (attempts (odSessionInit 0) (List.replicate 11 (authAt [] 5))).length ≤ 10 :=
  at_most_ten_attempts (by decide)
    (by
      rintro e he ⟨hends, -⟩
      rw [List.eq_of_mem_replicate (call_mem_of_mem_entries he)] at hends
      obtain ⟨sec, deviceId, -, ⟨hstep, -⟩ | ⟨body, hbody, hstep, -⟩⟩ := hends
      · exact absurd hstep (by decide)
      · rw [← hbody] at hstep
        exact absurd hstep (by decide))
    (by decide)

/-- A teardown between the tenth request and the eleventh, all of them within the same
millisecond: the eleventh is let through. -/
theorem teardown_forgets_attempts :
    ¬ ∀ (s : Session) (calls : List Call), (∀ e ∈ entries s calls, e.auth ≠ some .established) →
      Hurried (attempts s calls) → (attempts s calls).length ≤ odSessionRateMaxAttempts.toNat := by
  intro h
  exact absurd (h (odSessionInit 0) (List.replicate 10 (authAt [] 5) ++ [.clear, authAt [] 5]) (by decide) (by decide))
    (by decide)

end OpenDisplay
