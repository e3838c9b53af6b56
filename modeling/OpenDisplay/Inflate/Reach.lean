import OpenDisplay.Inflate.Bounds

/-! The states that a decoder reaches after a reset, whatever is pushed and polled, and
what holds in all of them. -/

namespace OpenDisplay

open Loops

section Polls

variable {s t : Inflate} {out buf : Bytes}

theorem storedDataPass_next {capacity : Nat} {w w' : Work} (h : storedDataPass capacity w = .next w') :
    w'.2.stage = w.2.stage := by
  unfold storedDataPass at h
  dsimp only at h
  split_ifs at h
  obtain ⟨byte, r, -, hk⟩ := onData_next h
  obtain ⟨-, -, hk⟩ := onPut_next hk
  obtain rfl := Iter.next.inj hk
  rfl

theorem blockPass_next {capacity : Nat} {w w' : Work} (h : blockPass capacity w = .next w') :
    w'.2.stage = w.2.stage := by
  unfold blockPass at h
  dsimp only at h
  split at h
  · simp at h
  split at h
  case h_1 =>
    obtain ⟨sym, r, -, hk⟩ := onData_next h
    unfold blockSymbol at hk
    split_ifs at hk
    · obtain ⟨-, -, hk⟩ := onPut_next hk
      simp at hk
    · obtain rfl := Iter.next.inj hk
      rfl
  case h_2 =>
    obtain ⟨v, r, -, hk⟩ := onData_next h
    obtain rfl := Iter.next.inj hk
    rfl
  case h_3 =>
    obtain ⟨sym, r, -, hk⟩ := onData_next h
    unfold blockDistSymbol at hk
    dsimp only at hk
    split_ifs at hk
    obtain rfl := Iter.next.inj hk
    rfl
  case h_4 =>
    obtain ⟨v, r, -, hk⟩ := onData_next h
    unfold blockDistExtra at hk
    dsimp only at hk
    split_ifs at hk
    obtain rfl := Iter.next.inj hk
    rfl
  case h_5 =>
    split_ifs at h
    · obtain rfl := Iter.next.inj h
      rfl
    · obtain ⟨-, -, hk⟩ := onPut_next h
      obtain rfl := Iter.next.inj hk
      rfl

theorem header_kept {pass : Inflate → HeaderIter} {μ : Inflate → Nat} {d : ∀ s t, pass s = .next t → μ t < μ s}
    {stage : Stage} (hpass : ∀ {s out}, InStage s out → s.stage = stage → HeaderKept out (pass s))
    (hnext : ∀ s t, pass s = .next t → t.stage = s.stage) (h : InStage s out) (hs : s.stage = stage) {rc : Rc Unit}
    (hloop : loop pass μ d s = (rc, t)) : InStage t out ∧ (rc = .ok () → t.Settled) := by
  have hrun := loop_rule (d := d) (P := fun (s : Inflate) (r : Rc Unit × Inflate) => InStage s out →
    s.stage = stage → InStage r.2 out ∧ (r.1 = .ok () → r.2.Settled)) ?_ ?_ s h hs
  · rwa [hloop] at hrun
  · rintro s ⟨rc, t⟩ hstop h hs
    have hkept := hpass h hs
    rw [hstop] at hkept
    exact hkept
  · intro s u r hn ih h hs
    have hkept := hpass h hs
    rw [hn] at hkept
    exact ih hkept ((hnext s u hn).trans hs)

theorem Grown.trans {w w' : Work} (h : Grown out buf w)
    (hnext : ∀ out', InStage w.2 out' → Grown out' w.1 w') : Grown out buf w' := by
  obtain ⟨new, hbuf, hstage⟩ := h
  obtain ⟨more, hmore, hstage'⟩ := hnext _ hstage
  rw [List.append_assoc] at hstage'
  exact ⟨new ++ more, by rw [hmore, hbuf, List.append_assoc], hstage'⟩

theorem data_kept {pass : Work → DataIter} {μ : Work → Nat} {d : ∀ w w', pass w = .next w' → μ w' < μ w}
    {stage : Stage} (hpass : ∀ {s out buf}, InStage s out → s.stage = stage → DataKept out buf (pass (buf, s)))
    (hnext : ∀ {w w'}, pass w = .next w' → w'.2.stage = w.2.stage) (h : InStage s out) (hs : s.stage = stage)
    {rc : DataRc} {w : Work} (hloop : loop pass μ d (buf, s) = (rc, w)) :
    Grown out buf w ∧ (rc = .ok ∨ rc = .endBlock → w.2.Settled) := by
  have hrun := loop_rule (d := d) (P := fun (w : Work) (r : DataRc × Work) => ∀ out, InStage w.2 out →
    w.2.stage = stage → Grown out w.1 r.2 ∧ (r.1 = .ok ∨ r.1 = .endBlock → r.2.2.Settled)) ?_ ?_ (buf, s) out h hs
  · rwa [hloop] at hrun
  · rintro w ⟨rc, w'⟩ hstop out h hs
    have hkept : DataKept out w.1 (pass w) := hpass h hs
    rw [hstop] at hkept
    exact hkept
  · intro w w' r hn ih out h hs
    have hkept : DataKept out w.1 (pass w) := hpass h hs
    rw [hn] at hkept
    have hstage := (hnext hn).trans hs
    refine ⟨Grown.trans hkept fun out' h' => (ih out' h' hstage).1, ?_⟩
    obtain ⟨new, -, h'⟩ := hkept
    exact (ih _ h' hstage).2

/-- What a pass of a poll leaves behind. -/
def PollKept (out buf : Bytes) : PollIter → Prop
  | .next w => Grown out buf w
  | .stop p => Grown out buf p.2

theorem onPoll_kept {α : Type} {f : BitReader → Rc α × BitReader} {k : α → Inflate → Inflate} (h : InStage s out)
    (hneed : ∀ r, f s.rd = (.need, r) → InStage { s with rd := r } out)
    (hok : ∀ a r, f s.rd = (.ok a, r) → InStage (k a { s with rd := r }) out) :
    PollKept out buf (onPoll buf (s.read f) fun a t => (buf, k a t)) := by
  unfold onPoll Inflate.read
  cases hf : f s.rd with
  | mk rc r =>
    cases rc with
    | ok a =>
      dsimp only
      split_ifs
      · exact Grown.same (hok a r hf)
      · exact Grown.same (hok a r hf)
    | need => exact Grown.same (hneed r hf)
    | fail e => exact Grown.same ((h.read r).fail e)

theorem onPoll_header_kept {p : Rc Unit × Inflate} {k : Inflate → Inflate}
    (h : InStage p.2 out ∧ (p.1 = .ok () → p.2.Settled)) (hok : InStage p.2 out → p.2.Settled → InStage (k p.2) out) :
    PollKept out buf (onPoll buf p fun _ t => (buf, k t)) := by
  obtain ⟨rc, t⟩ := p
  unfold onPoll
  cases rc with
  | ok a =>
    dsimp only
    split_ifs
    · exact Grown.same (hok h.1 (h.2 rfl))
    · exact Grown.same (hok h.1 (h.2 rfl))
  | need => exact Grown.same h.1
  | fail e => exact Grown.same h.1

theorem pollFlg_inStage (h : InStage s out) (hs : s.Settled) (byte : UInt8) : InStage (pollFlg byte s) out := by
  unfold pollFlg
  split
  · exact h.toFits.fail _
  · exact h.toFits.fail _
  · exact h.enter hs (by simp)

theorem pollBlockType_inStage (h : InStage s out) (hs : s.Settled) (v : Nat) : InStage (pollBlockType v s) out := by
  have hdist := h.distSym.resolve_left hs.2.2
  have hfresh : s.hlimit = s.hlit + s.hdist := h.fresh (by rw [hs.2.1]; rfl)
  unfold pollBlockType
  dsimp only
  split_ifs
  · exact Fits.inStage { h.toFits with written := h.written.same rfl rfl rfl rfl } hs.1 (.inr hs.2.1) (by simp) hdist
  · exact Fits.inStage
      { h.toFits with
        written := h.written.same rfl rfl rfl rfl, ltree := fixedLiteralTree_stored, tree := fixedDistanceTree_stored
        literals := fixedLiteralTree_size, distances := fixedDistanceTree_size, copy := by simp }
      (resetCodeReaders_quiet _) (.inr hs.2.1) (by simp) hdist
  · exact Fits.inStage { h.toFits with written := h.written.same rfl rfl rfl rfl, fresh := fun _ => hfresh }
      (resetCodeReaders_quiet _) (.inl rfl) (by simp) hdist
  · have hfits : Fits { s with btype := v } out := { h.toFits with written := h.written.same rfl rfl rfl rfl }
    exact hfits.fail _

theorem endBlock_inStage (h : InStage s out) (hs : s.Settled) : InStage (endBlock s) out := by
  unfold endBlock
  split_ifs
  · exact h.enter hs (by simp)
  · exact h.enter hs (by simp)

theorem Grown.endBlock {w : Work} (h : Grown out buf w) (hs : w.2.Settled) :
    Grown out buf (w.1, OpenDisplay.endBlock w.2) := by
  obtain ⟨new, hbuf, hstage⟩ := h
  exact ⟨new, hbuf, endBlock_inStage hstage hs⟩

theorem pollPass_kept {capacity : Nat} (h : InStage s out) : PollKept out buf (pollPass capacity (buf, s)) := by
  unfold pollPass
  dsimp only
  split
  · exact Grown.same h
  split
  case h_1 hs =>
    have hsettled : s.Settled := h.settled (by simp [hs]) (by simp [hs]) (by simp [Inflate.symbol, hs])
      (by simp [Inflate.field, hs])
    have hd : s.stage ≠ .dynamicTrees := by simp [hs]
    apply onPoll_kept h
    · intro r hr
      exact (h.readByte hsettled hd hr).1
    · intro byte r hr
      obtain ⟨hstage, hq⟩ := h.readByte hsettled hd hr
      exact Fits.inStage { hstage.toFits with written := h.written.same rfl rfl rfl rfl } hq (.inr hsettled.2.1)
        (by simp) (h.distSym.resolve_left hsettled.2.2)
  case h_2 hs =>
    have hsettled : s.Settled := h.settled (by simp [hs]) (by simp [hs]) (by simp [Inflate.symbol, hs])
      (by simp [Inflate.field, hs])
    have hd : s.stage ≠ .dynamicTrees := by simp [hs]
    apply onPoll_kept h
    · intro r hr
      exact (h.readByte hsettled hd hr).1
    · intro byte r hr
      obtain ⟨hstage, hq⟩ := h.readByte hsettled hd hr
      exact pollFlg_inStage hstage ⟨hq, hsettled.2⟩ byte
  case h_3 hs =>
    have hsettled : s.Settled := h.settled (by simp [hs]) (by simp [hs]) (by simp [Inflate.symbol, hs])
      (by simp [Inflate.field, hs])
    have hd : s.stage ≠ .dynamicTrees := by simp [hs]
    have hdist := h.distSym.resolve_left hsettled.2.2
    apply onPoll_kept h
    · intro r hr
      obtain ⟨input, tag, n, rfl⟩ := (readBit_read hr).shape
      exact (h.read _).inStage hsettled.1 (.inr hsettled.2.1) (fun he => absurd he hd) hdist
    · intro v r hr
      obtain ⟨input, tag, n, rfl⟩ := (readBit_read hr).shape
      exact Fits.inStage { h.toFits with written := h.written.same rfl rfl rfl rfl } hsettled.1 (.inr hsettled.2.1)
        (by simp) hdist
  case h_4 hs =>
    have he : s.stage ≠ .error := by simp [hs]
    have hd : s.stage ≠ .dynamicTrees := by simp [hs]
    have hfield : s.field = some (2, 0) := by simp [Inflate.field, hs]
    have hsymbol : s.symbol = none := by simp [Inflate.symbol, hs]
    have hidle := (h.idle.resolve_left he).resolve_left hd
    apply onPoll_kept h
    · intro r hr
      exact (h.readField hfield hsymbol he hr).2 rfl
    · intro v r hr
      have hq := ((h.readField hfield hsymbol he hr).1 v rfl).1
      exact pollBlockType_inStage
        ((h.read r).inStage hq (.inr hidle) (fun hdyn => absurd hdyn hd) (h.distSym.resolve_left he)) ⟨hq, hidle, he⟩ v
  case h_5 hs =>
    have hkept := header_kept (d := dynamicPass_dec) dynamicPass_kept dynamicPass_stage h hs (rfl)
    apply onPoll_header_kept hkept
    intro ht hsettled
    exact Fits.inStage { ht.toFits with written := ht.written.same rfl rfl rfl rfl, copy := by simp } hsettled.1
      (.inr hsettled.2.1) (by simp) (ht.distSym.resolve_left hsettled.2.2)
  case h_6 hs =>
    have hkept := header_kept (d := storedHeaderPass_dec) storedHeaderPass_kept storedHeaderPass_stage h hs (rfl)
    apply onPoll_header_kept hkept
    intro ht hsettled
    exact ht.enter hsettled (by simp)
  case h_7 hs =>
    cases hp : processStoredData capacity (buf, s) with
    | mk rc w =>
      obtain ⟨hgrown, hsettled⟩ := data_kept (d := storedDataPass_dec capacity) storedDataPass_kept storedDataPass_next
        h hs hp
      cases rc with
      | ok => exact hgrown.endBlock (hsettled (.inl rfl))
      | endBlock => exact hgrown.endBlock (hsettled (.inr rfl))
      | _ => exact hgrown
  case h_8 hs =>
    cases hp : processBlockData capacity (buf, s) with
    | mk rc w =>
      obtain ⟨hgrown, hsettled⟩ := data_kept (d := blockPass_dec capacity) blockPass_kept blockPass_next h hs hp
      cases rc with
      | endBlock => exact hgrown.endBlock (hsettled (.inr rfl))
      | _ => exact hgrown
  case h_9 hs =>
    cases hp : processTrailer s with
    | mk rc t =>
      obtain ⟨hkept, -⟩ := header_kept (d := trailerPass_dec) trailerPass_kept trailerPass_stage h hs hp
      cases rc with
      | ok a => exact Grown.same hkept
      | need => exact Grown.same hkept
      | fail e => exact Grown.same hkept
  case h_10 => exact Grown.same h
  case h_11 => exact Grown.same h

theorem odZlibStreamPoll_inStage {capacity : Nat} (h : InStage s out) {status : ZlibStatus} {new : Bytes}
    (hpoll : odZlibStreamPoll capacity s = (status, new, t)) : InStage t (out ++ new) := by
  have hgrown : ∀ {w}, Grown out [] w → InStage w.2 (out ++ w.1) := by
    rintro w ⟨new, hbuf, hstage⟩
    rwa [hbuf, List.nil_append]
  unfold odZlibStreamPoll at hpoll
  split at hpoll
  · obtain ⟨-, rfl, rfl⟩ := hpoll
    exact hgrown (.same (h.toFits.fail _))
  split at hpoll
  · obtain ⟨-, rfl, rfl⟩ := hpoll
    exact hgrown (.same h)
  split at hpoll
  · obtain ⟨-, rfl, rfl⟩ := hpoll
    exact hgrown (.same h)
  have hrun := loop_rule (d := pollPass_dec capacity) (P := fun (w : Work) (r : ZlibStatus × Work) =>
    ∀ out, InStage w.2 out → Grown out w.1 r.2) ?_ ?_ ([], s) out h
  · rw [hpoll] at hrun
    exact hgrown hrun
  · rintro w p hs out h
    have hkept : PollKept out w.1 (pollPass capacity w) := pollPass_kept h
    rw [hs] at hkept
    exact hkept
  · intro w w' p hn ih out h
    have hkept : PollKept out w.1 (pollPass capacity w) := pollPass_kept h
    rw [hn] at hkept
    exact Grown.trans hkept ih

theorem odZlibStreamPush_inStage (h : InStage s out) {input : Bytes} {final : Bool} {status : ZlibStatus}
    (hpush : odZlibStreamPush input final s = (status, t)) : InStage t out := by
  have hfed : InStage { s with rd := { s.rd with input := input, inputFinal := final } } out := by
    refine ⟨h.read _, h.idle, h.codelen, h.distSym, fun ha => ?_, fun ha => ?_⟩
    · obtain he | ⟨c, hc, hpart⟩ := h.symbolPart ha
      · exact .inl he
      · exact .inr ⟨c, hc, hpart.len, hpart.sum, hpart.nonneg, hpart.bound⟩
    · obtain he | ⟨num, base, hf, hpart⟩ := h.fieldPart ha
      · exact .inl he
      · exact .inr ⟨num, base, hf, hpart.width, hpart.offset, hpart.pos, hpart.value⟩
  unfold odZlibStreamPush at hpush
  dsimp only at hpush
  split_ifs at hpush
  · obtain ⟨-, rfl⟩ := hpush
    exact h.toFits.fail _
  · obtain ⟨-, rfl⟩ := hpush
    exact h.toFits.fail _
  · obtain ⟨-, rfl⟩ := hpush
    exact hfed.toFits.fail _
  · obtain ⟨-, rfl⟩ := hpush
    exact hfed
  · obtain ⟨-, rfl⟩ := hpush
    exact hfed

theorem Tree.zero_stored (size : Nat) : Stored size (Tree.zero size) := ⟨rfl, rfl, Nat.zero_le _⟩

theorem odZlibStreamReset_inStage (expected : UInt32) : InStage (odZlibStreamReset expected) [] := by
  have hfits : Fits (odZlibStreamReset expected) [] :=
    { written := .start expected
      ltree := Tree.zero_stored 288
      literals := List.length_replicate
      tree := Tree.zero_stored 32
      distances := List.length_replicate
      lengths := List.length_replicate
      hlit := Nat.zero_le _
      hdist := Nat.zero_le _
      hclen := Nat.zero_le _
      dynI := Nat.zero_le _
      dynNum := Nat.le_refl _
      hlimit := Nat.zero_le _
      fresh := fun _ => rfl
      lengthSym := Nat.zero_lt_succ 28
      copy := fun hcopy => absurd (show BlockStage.symbol = .matchCopy from hcopy) (by simp) }
  have hstage : (odZlibStreamReset expected).stage ≠ .dynamicTrees := by
    change Stage.zlibCmf ≠ .dynamicTrees
    simp
  exact hfits.inStage ⟨rfl, rfl⟩ (.inr rfl) (fun hdyn => absurd hdyn hstage) (Nat.zero_lt_succ 29)

theorem Grown.next {new : Bytes} (h : Grown out buf (buf ++ new, t)) : InStage t (out ++ new) := by
  obtain ⟨more, hbuf, hstage⟩ := h
  rwa [List.append_cancel_left hbuf]

theorem PollKept.next {i : PollIter} {new : Bytes} (h : PollKept out buf i) (hi : i = .next (buf ++ new, t)) :
    InStage t (out ++ new) := by
  subst hi
  exact Grown.next h

theorem DataKept.next {i : DataIter} {new : Bytes} (h : DataKept out buf i) (hi : i = .next (buf ++ new, t)) :
    InStage t (out ++ new) := by
  subst hi
  exact Grown.next h

theorem HeaderKept.next {i : HeaderIter} (h : HeaderKept out i) (hi : i = .next t) : InStage t out := by
  subst hi
  exact h

end Polls

section Reach

/-- The states of a decoder since a reset, with the bytes it has written: between the calls,
and within a poll at the start of each pass of its loops. -/
inductive Visited (expected : UInt32) : Inflate → Bytes → Prop where
  | reset : Visited expected (odZlibStreamReset expected) []
  | push {s t out input final status} : Visited expected s out →
    odZlibStreamPush input final s = (status, t) → Visited expected t out
  | poll {s t out new capacity status} : Visited expected s out →
    odZlibStreamPoll capacity s = (status, new, t) → Visited expected t (out ++ new)
  | pass {s t out buf new capacity} : Visited expected s out →
    pollPass capacity (buf, s) = .next (buf ++ new, t) → Visited expected t (out ++ new)
  | dynamic {s t out} : Visited expected s out → s.stage = .dynamicTrees →
    dynamicPass s = .next t → Visited expected t out
  | storedHeader {s t out} : Visited expected s out → s.stage = .storedLen →
    storedHeaderPass s = .next t → Visited expected t out
  | storedData {s t out buf new capacity} : Visited expected s out → s.stage = .storedData →
    storedDataPass capacity (buf, s) = .next (buf ++ new, t) → Visited expected t (out ++ new)
  | block {s t out buf new capacity} : Visited expected s out → s.stage = .blockData →
    blockPass capacity (buf, s) = .next (buf ++ new, t) → Visited expected t (out ++ new)
  | trailer {s t out} : Visited expected s out → s.stage = .trailer →
    trailerPass s = .next t → Visited expected t out

theorem Visited.pushed {expected : UInt32} {s : Inflate} {out : Bytes} (h : Visited expected s out) (input : Bytes)
    (final : Bool) : Visited expected (odZlibStreamPush input final s).2 out := .push h rfl

theorem Visited.polled {expected : UInt32} {s : Inflate} {out : Bytes} (h : Visited expected s out) {capacity : Nat}
    (hnew : (odZlibStreamPoll capacity s).2.1 = []) : Visited expected (odZlibStreamPoll capacity s).2.2 out := by
  cases hp : odZlibStreamPoll capacity s with
  | mk status w =>
    obtain ⟨new, t⟩ := w
    rw [hp] at hnew
    obtain rfl : new = [] := hnew
    rw [← List.append_nil out]
    exact .poll h hp

theorem Visited.inStage {expected : UInt32} {s : Inflate} {out : Bytes} (h : Visited expected s out) :
    InStage s out := by
  induction h with
  | reset => exact odZlibStreamReset_inStage expected
  | push _ hpush ih => exact odZlibStreamPush_inStage ih hpush
  | poll _ hpoll ih => exact odZlibStreamPoll_inStage ih hpoll
  | pass _ hpass ih => exact (pollPass_kept ih).next hpass
  | dynamic _ hs hpass ih => exact (dynamicPass_kept ih hs).next hpass
  | storedHeader _ hs hpass ih => exact (storedHeaderPass_kept ih hs).next hpass
  | storedData _ hs hpass ih => exact (storedDataPass_kept ih hs).next hpass
  | block _ hs hpass ih => exact (blockPass_kept ih hs).next hpass
  | trailer _ hs hpass ih => exact (trailerPass_kept ih hs).next hpass

end Reach

end OpenDisplay
