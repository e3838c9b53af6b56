import OpenDisplay.Inflate.Pump

/-! The inflater always returns. Each of its loops stops within a number of passes that
is known when it starts: for the readers the bits that are left, for the header and data
loops these and the stages still to go, for the data also the room in the output buffer,
and for the pump the bytes that the stream may still put out. -/

namespace OpenDisplay

open Loops

variable {capacity : Nat}

theorem odZlibStreamPoll_stops {s : Inflate} (hi : s.initialized = true) (hs : Live s) :
    ∃ n ≤ pollWork ([], s) + 1, Stops (pollPass capacity) n ([], s) (odZlibStreamPoll capacity s) := by
  have hpoll : odZlibStreamPoll capacity s =
      loop (pollPass capacity) pollWork (pollPass_dec capacity) ([], s) := by
    simp [odZlibStreamPoll, hi, hs.1, hs.2]
  rw [hpoll]
  exact loop_stops ([], s)

theorem odZlibPumpPush_stops {σ : Type} (sink : Bytes → σ → Bool × σ) (input : Bytes) (final : Bool)
    (hc : 0 < capacity) {p : Pump × σ} {status : ZlibStatus} {engine : Inflate}
    (hready : p.1.error ≠ some .notInitialized)
    (hpush : odZlibStreamPush input final p.1.engine = (status, engine)) (hok : status ≠ .error) :
    ∃ n ≤ engine.room + 1,
      Stops (pumpPass sink final capacity) n ({ p.1 with engine := engine }, p.2)
        (odZlibPumpPush sink input final capacity p) := by
  rw [odZlibPumpPush_loop sink hready hc hpush hok]
  exact loop_stops (d := pumpPass_dec sink hc final) ({ p.1 with engine := engine }, p.2)

/-- Every loop of the inflater ends, from every state and for every output buffer with
room in it, a poll that returns for output has some, and the loop of the pump ends. -/
theorem inflater_terminates (capacity : Nat) (hc : 0 < capacity) :
    ((∀ num base r, ∃ n ≤ r.bitsLeft + 1,
        Stops readBitsPass n (readBitsBegin num base r) (readBits num base r)) ∧
      ∀ t size r, ∃ n ≤ r.bitsLeft + 1,
        Stops (onBit (decodeSymbolBit t size)) n (decodeSymbolBegin r) (decodeSymbol t size r)) ∧
    ((∀ s, ∃ n ≤ s.dynamicWork + 1, Stops dynamicPass n s (processDynamicTrees s)) ∧
      (∀ s, ∃ n ≤ s.work + 1, Stops storedHeaderPass n s (processStoredHeader s)) ∧
      (∀ s, ∃ n ≤ s.work + 1, Stops trailerPass n s (processTrailer s)) ∧
      (∀ w, ∃ n ≤ storedWork w + 1, Stops (storedDataPass capacity) n w (processStoredData capacity w)) ∧
      ∀ w, ∃ n ≤ blockWork capacity w + 1, Stops (blockPass capacity) n w (processBlockData capacity w)) ∧
    (∀ s : Inflate, s.initialized = true → Live s → ∃ n ≤ pollWork ([], s) + 1,
      Stops (pollPass capacity) n ([], s) (odZlibStreamPoll capacity s)) ∧
    (∀ s out t, odZlibStreamPoll capacity s = (.outputReady, out, t) → out ≠ []) ∧
    ∀ (σ : Type) (sink : Bytes → σ → Bool × σ) input final (p : Pump × σ) status engine,
      p.1.error ≠ some .notInitialized →
      odZlibStreamPush input final p.1.engine = (status, engine) → status ≠ .error →
      ∃ n ≤ engine.room + 1, Stops (pumpPass sink final capacity) n ({ p.1 with engine := engine }, p.2)
        (odZlibPumpPush sink input final capacity p) := by
  refine ⟨⟨?_, ?_⟩, ⟨?_, ?_, ?_, ?_, ?_⟩, ?_, ?_, ?_⟩
  · intro num base r
    have hleft : (readBitsBegin num base r).bitsLeft = r.bitsLeft := by
      unfold readBitsBegin
      split_ifs <;> rfl
    rw [← hleft]
    exact loop_stops (readBitsBegin num base r)
  · intro t size r
    have hleft : (decodeSymbolBegin r).bitsLeft = r.bitsLeft := by
      unfold decodeSymbolBegin
      split_ifs <;> rfl
    rw [← hleft]
    exact loop_stops (decodeSymbolBegin r)
  · exact fun s => loop_stops s
  · exact fun s => loop_stops s
  · exact fun s => loop_stops s
  · exact fun w => loop_stops w
  · exact fun w => loop_stops w
  · exact fun s hi hs => odZlibStreamPoll_stops hi hs
  · exact fun s out t h => odZlibStreamPoll_ready hc h
  · exact fun σ sink input final p status engine hready hpush hok =>
      odZlibPumpPush_stops sink input final hc hready hpush hok

/-- A poll for one byte of a stored block. -/
theorem inflater_terminates_stored :
    let s := (odZlibStreamReset 3).feed [0x18, 0x19, 0x01, 0x03, 0x00, 0xfc, 0xff, 0x61] false
    ∃ n ≤ pollWork ([], s) + 1, Stops (pollPass 1) n ([], s) (odZlibStreamPoll 1 s) :=
  (inflater_terminates 1 Nat.one_pos).2.2.1 _ rfl ⟨by decide, by decide⟩

end OpenDisplay
