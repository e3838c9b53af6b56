import OpenDisplay.Panel.Driver

/-! What a driver has drawn of a stream, whatever the pieces are that the stream comes in. -/

namespace OpenDisplay

open Canvases Loops

theorem drawn_append (calls more : List BbepCall) : drawn (calls ++ more) = more.foldl BbepCall.draw (drawn calls) :=
  List.foldl_append

theorem drawn_concat (calls : List BbepCall) (call : BbepCall) : drawn (calls ++ [call]) = call.draw (drawn calls) :=
  drawn_append calls [call]

section Extends

variable {spi : List BbepCall → Bool} {s s' s'' : XferApp}

/-- A driver that writes only calls its panel. -/
def XferApp.Extends (s s' : XferApp) : Prop :=
  ∃ plane calls, s' = { s with currentPlane := plane, calls := s.calls ++ calls }

theorem XferApp.Extends.refl (s : XferApp) : XferApp.Extends s s := ⟨s.currentPlane, [], by rw [List.append_nil]⟩

theorem XferApp.Extends.trans (h : XferApp.Extends s s') (h' : XferApp.Extends s' s'') : XferApp.Extends s s'' := by
  obtain ⟨plane, calls, rfl⟩ := h
  obtain ⟨plane', calls', rfl⟩ := h'
  exact ⟨plane', calls ++ calls', by rw [List.append_assoc]⟩

theorem XferApp.Extends.call (s : XferApp) (c : BbepCall) : XferApp.Extends s (s.call c) := ⟨s.currentPlane, [c], rfl⟩

theorem XferApp.Extends.startPlane (s : XferApp) (cut : PlaneCut) (plane : BbepPlane) :
    XferApp.Extends s (s.startPlane cut plane) := by
  unfold XferApp.startPlane
  split_ifs
  · exact .refl s
  · exact ⟨some plane, cut.window ++ [.startWrite plane], by rw [List.append_assoc]⟩

theorem odEpdSpiFaulted_mono {calls : List BbepCall} (h : odEpdSpiFaulted spi calls = true) (more : List BbepCall) :
    odEpdSpiFaulted spi (calls ++ more) = true := by
  simp only [odEpdSpiFaulted, List.any_eq_true, List.mem_inits] at h ⊢
  obtain ⟨pre, hpre, hfail⟩ := h
  exact ⟨pre, hpre.trans (List.prefix_append _ _), hfail⟩

theorem planePass_extends (spi : List BbepCall → Bool) (cut : PlaneCut) (streamOffset consumed : UInt32) (data : Bytes)
    (s : XferApp) :
    match planePass spi cut streamOffset data (consumed, s) with
    | .stop (_, s') => XferApp.Extends s s'
    | .next (_, s') => XferApp.Extends s s' := by
  unfold planePass
  dsimp only
  generalize (if streamOffset + consumed < cut.size then cut.first else cut.second) = plane
  have hcall : ∀ c, XferApp.Extends s ((s.startPlane cut plane).call c) := fun c =>
    (XferApp.Extends.startPlane s cut plane).trans (.call _ c)
  split_ifs
  · exact .refl s
  · exact .refl s
  · exact hcall _
  · exact hcall _

theorem writePlanes_extends (cut : PlaneCut) (streamOffset : UInt32) (data : Bytes)
    (h : StreamFits cut.total streamOffset data) (s : XferApp) :
    XferApp.Extends s (writePlanes spi cut streamOffset data h s).2 := by
  refine loop_rule (P := fun (p : UInt32 × XferApp) (r : Bool × XferApp) => p.2.Extends r.2) ?_ ?_ (0, s)
  · rintro ⟨consumed, s⟩ ⟨ok, s'⟩ hp
    have hpass := planePass_extends spi cut streamOffset consumed data s
    rwa [hp] at hpass
  · rintro ⟨consumed, s⟩ ⟨consumed', s'⟩ r hp ih
    have hpass := planePass_extends spi cut streamOffset consumed data s
    rw [hp] at hpass
    exact hpass.trans ih

theorem xferAppWrite_extends (window : List BbepCall) (streamOffset : UInt32) (data : Bytes) (s : XferApp) :
    XferApp.Extends s (xferAppWrite spi window streamOffset data s).2 := by
  unfold xferAppWrite
  by_cases hbad : data = [] ∨ uint32Max < data.length
  · rw [if_pos hbad]
    exact .refl s
  · rw [if_neg hbad]
    dsimp only
    split
    · unfold xferAppWriteFull
      split_ifs
      · exact .call s _
      · exact writePlanes_extends ..
      · exact .refl s
    · unfold xferAppWritePartial
      split_ifs
      · exact writePlanes_extends ..
      · exact .refl s
    · exact .refl s

theorem XferApp.Extends.faulted (h : XferApp.Extends s s') (hf : s.faulted spi = true) : s'.faulted spi = true := by
  obtain ⟨plane, calls, rfl⟩ := h
  exact odEpdSpiFaulted_mono hf calls

end Extends

section Tracked

variable {w : PanelWindow} {first second plane : BbepPlane} {size : Nat} {again : List BbepCall} {xs : Bytes}
  {s : XferApp} {cut : PlaneCut}

/-- What is called where the planes change leaves the window at `w`. -/
def Frames (w : PanelWindow) (again : List BbepCall) : Prop :=
  again = [] ∨ again = [.setAddrWindow w] ∨ again = [.partialSetAddrWindow w]

/-- A driver that cuts the stream in two has drawn the bytes so far, and knows the plane it is on. -/
structure Tracked (w : PanelWindow) (first second : BbepPlane) (size : Nat) (again : List BbepCall) (xs : Bytes)
    (s : XferApp) : Prop where
  split : Split w first second size xs (drawn s.calls)
  current : ∀ p, s.currentPlane = some p →
    (drawn s.calls).selected = some p ∧ ((drawn s.calls).planes p).1 = some w
  place : xs ≠ [] → xs.length ≠ size → s.currentPlane = some (side first second size xs.length)
  window : again = [] → (drawn s.calls).window = some w

theorem Tracked.framed (h : Tracked w first second size again xs s) (ha : Frames w again) :
    drawn (s.calls ++ again) = (drawn s.calls).setWindow w := by
  rw [drawn_append]
  rcases ha with rfl | rfl | rfl
  · show drawn s.calls = _
    rw [Canvas.setWindow, ← h.window rfl]
  · rfl
  · rfl

theorem Tracked.startPlane (h : Tracked w first second size cut.window xs s) (ha : Frames w cut.window)
    (hne : first ≠ second) (hplane : plane = side first second size xs.length)
    (hcheck : s.currentPlane = some plane ∨ xs = [] ∨ xs.length = size) :
    Tracked w first second size cut.window xs (s.startPlane cut plane) ∧
      (s.startPlane cut plane).currentPlane = some plane := by
  unfold XferApp.startPlane
  split_ifs with hsame
  · exact ⟨h, hsame⟩
  · have hat := hcheck.resolve_left hsame
    have hdrawn : drawn (s.calls ++ cut.window ++ [.startWrite plane]) = ((drawn s.calls).setWindow w).start plane := by
      rw [drawn_concat, h.framed ha]
      rfl
    refine ⟨⟨?_, fun p hp => ?_, fun hn hend => absurd (hat.resolve_left hn) hend, fun _ => ?_⟩, rfl⟩
    · show Split _ _ _ _ _ (drawn (s.calls ++ cut.window ++ [.startWrite plane]))
      rw [hdrawn, hplane]
      exact (h.split.setWindow w).start hne hat
    · obtain rfl := Option.some.inj hp
      show (drawn (s.calls ++ cut.window ++ [.startWrite plane])).selected = _ ∧ _
      rw [hdrawn]
      exact ⟨rfl, by rw [Canvas.start_self]; rfl⟩
    · show (drawn (s.calls ++ cut.window ++ [.startWrite plane])).window = _
      rw [hdrawn]
      rfl

theorem Tracked.writeData (h : Tracked w first second size again xs s) (ys : Bytes) (hne : first ≠ second)
    (hcur : s.currentPlane = some (side first second size xs.length))
    (hcut : xs.length < size → xs.length + ys.length ≤ size) :
    Tracked w first second size again (xs ++ ys) (s.call (.writeData ys)) := by
  obtain ⟨hsel, hin⟩ := h.current _ hcur
  have hdrawn : drawn (s.call (.writeData ys)).calls = (drawn s.calls).data ys := drawn_concat ..
  have hsplit := h.split.data hne hsel hin hcut
  refine ⟨by rwa [hdrawn], fun p hp => ?_, fun hn hend => ?_, fun ha => ?_⟩
  · obtain rfl := Option.some.inj (hcur.symm.trans hp)
    rw [hdrawn, Canvas.data_selected, Canvas.data_self hsel]
    exact ⟨hsel, hin⟩
  · have hplace := hsplit.place hn hend
    rw [Canvas.data_selected, hsel] at hplace
    exact hcur.trans hplace
  · rw [hdrawn, Canvas.data_window]
    exact h.window ha

end Tracked

section Planes

variable {spi : List BbepCall → Bool} {w : PanelWindow} {cut : PlaneCut} {streamOffset consumed : UInt32}
  {xs data : Bytes} {s s' : XferApp}

abbrev Cut (w : PanelWindow) (cut : PlaneCut) := Tracked w cut.first cut.second cut.size.toNat cut.window

/-- The driver never loses its place: a pass ends in a failure of the bus, or draws what it takes. -/
theorem planePass_tracked (spi : List BbepCall → Bool) (ha : Frames w cut.window) (hne : cut.first ≠ cut.second)
    (hoff : streamOffset.toNat = xs.length) (hfits : streamOffset.toNat + data.length ≤ cut.total.toNat)
    (hs : Cut w cut (xs ++ data.take consumed.toNat) s) :
    match planePass spi cut streamOffset data (consumed, s) with
    | .stop (ok, s') => s'.faulted spi = true ∨ ok = true ∧ Cut w cut (xs ++ data) s'
    | .next (consumed', s') => Cut w cut (xs ++ data.take consumed'.toNat) s' := by
  unfold planePass
  dsimp only
  by_cases hdone : data.length ≤ consumed.toNat
  · rw [if_pos hdone]
    rw [List.take_of_length_le hdone] at hs
    exact .inr ⟨rfl, hs⟩
  rw [if_neg hdone]
  have hlt := Nat.not_le.mp hdone
  obtain ⟨hpos, hle, hstay⟩ := planeChunk_bound hfits hlt
  have hlogical := logical_exact hfits hlt
  have hlen : (xs ++ data.take consumed.toNat).length = (streamOffset + consumed).toNat := by
    rw [List.length_append, List.length_take, hlogical, hoff]
    omega
  generalize hplane : (if streamOffset + consumed < cut.size then cut.first else cut.second) = plane
  have hside : plane = side cut.first cut.second cut.size.toNat (xs ++ data.take consumed.toNat).length := by
    rw [hlen, side, ← hplane]
    simp only [UInt32.lt_iff_toNat_lt]
  by_cases hcheck : s.currentPlane ≠ some plane ∧ streamOffset + consumed ≠ 0 ∧ streamOffset + consumed ≠ cut.size
  · -- the driver is off its plane only where a plane begins
    obtain ⟨hoff', hzero, hsize⟩ := hcheck
    refine absurd (hs.place (fun hn => hzero ?_) (fun hn => hsize ?_)) (hside ▸ hoff')
    · rw [← UInt32.toNat_inj, ← hlen, hn]
      rfl
    · rw [← UInt32.toNat_inj, ← hlen, hn]
  rw [if_neg hcheck]
  have hstart : s.currentPlane = some plane ∨ xs ++ data.take consumed.toNat = [] ∨
      (xs ++ data.take consumed.toNat).length = cut.size.toNat := by
    rw [not_and_or, not_and_or, not_not, not_not, not_not] at hcheck
    refine hcheck.imp_right (Or.imp (fun h => ?_) fun h => ?_)
    · rw [← List.length_eq_zero_iff, hlen, h]
      rfl
    · rw [hlen, h]
  obtain ⟨hsel, hcur⟩ := hs.startPlane ha hne hside hstart
  generalize hchunk : planeChunk cut data.length (streamOffset + consumed) consumed = chunk at *
  have hnext : (consumed + chunk).toNat = consumed.toNat + chunk.toNat := by
    have ht := cut.total.toNat_lt
    rw [UInt32.toNat_add, Nat.mod_eq_of_lt (by omega)]
  have hpiece : data.take consumed.toNat ++ (data.drop consumed.toNat).take chunk.toNat =
      data.take (consumed + chunk).toNat := by
    rw [hnext, List.take_add]
  have hwritten := hsel.writeData ((data.drop consumed.toNat).take chunk.toNat) hne (hside ▸ hcur) (by
    rw [hlen, List.length_take, List.length_drop, ← UInt32.lt_iff_toNat_lt, hlogical]
    intro hfirst
    have := hstay hfirst
    omega)
  rw [List.append_assoc, hpiece] at hwritten
  by_cases hf : XferApp.faulted spi
      ((s.startPlane cut plane).call (.writeData ((data.drop consumed.toNat).take chunk.toNat))) = true
  · rw [if_pos hf]
    exact .inl hf
  · rw [if_neg hf]
    exact hwritten

theorem writePlanes_tracked (spi : List BbepCall → Bool) (ha : Frames w cut.window) (hne : cut.first ≠ cut.second)
    (h : StreamFits cut.total streamOffset data) (hoff : streamOffset.toNat = xs.length) (hs : Cut w cut xs s) :
    (writePlanes spi cut streamOffset data h s).2.faulted spi = true ∨
      (writePlanes spi cut streamOffset data h s).1 = true ∧
        Cut w cut (xs ++ data) (writePlanes spi cut streamOffset data h s).2 := by
  refine loop_rule (P := fun (p : UInt32 × XferApp) (r : Bool × XferApp) =>
    Cut w cut (xs ++ data.take p.1.toNat) p.2 → r.2.faulted spi = true ∨ r.1 = true ∧ Cut w cut (xs ++ data) r.2)
    ?_ ?_ (0, s) ?_
  · rintro ⟨consumed, s⟩ ⟨ok, s'⟩ hp hs
    have hpass := planePass_tracked spi ha hne hoff h.bound hs
    rwa [hp] at hpass
  · rintro ⟨consumed, s⟩ ⟨consumed', s'⟩ r hp ih hs
    have hpass := planePass_tracked spi ha hne hoff h.bound hs
    rw [hp] at hpass
    exact ih hpass
  · show Cut w cut (xs ++ data.take 0) s
    rw [List.take_zero, List.append_nil]
    exact hs

end Planes

end OpenDisplay
