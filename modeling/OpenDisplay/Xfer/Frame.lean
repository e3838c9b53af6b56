import OpenDisplay.Xfer.Core

/-! What a push into the stream leaves alone. -/

namespace OpenDisplay

open Loops

/-- Bytes reach the panel: only the two byte counts, the sink's flag and the log change. -/
structure Streams (d d' : Dev) : Prop where
  xfer : ∃ r w, d'.xfer = { d.xfer with receivedBytes := r, writtenBytes := w }
  pipe : d'.pipe = d.pipe
  reorder : d'.reorder = d.reorder
  etag : d'.displayedEtag = d.displayedEtag
  events : ∃ es, d'.events = d.events ++ es ∧
    ∀ e ∈ es, (∃ o b c, e = .write o b c) ∨ ∃ status, e = .pump status

theorem Streams.refl (d : Dev) : Streams d d := ⟨⟨_, _, rfl⟩, rfl, rfl, rfl, [], by simp, by simp⟩

theorem Streams.trans {d d' d'' : Dev} (h : Streams d d') (h' : Streams d' d'') :
    Streams d d'' := by
  obtain ⟨⟨r, w, hw⟩, hp, hr, he, es, hes, hall⟩ := h
  obtain ⟨⟨r', w', hw'⟩, hp', hr', he', es', hes', hall'⟩ := h'
  refine ⟨⟨r', w', by rw [hw', hw]⟩, hp'.trans hp, hr'.trans hr, he'.trans he, es ++ es', ?_, ?_⟩
  · rw [hes', hes, List.append_assoc]
  · intro e hmem
    rcases List.mem_append.mp hmem with hm | hm
    · exact hall e hm
    · exact hall' e hm

theorem writeAll_streams (app : App) (data : Bytes) (d : Dev) :
    Streams d (writeAll app data d).2 := by
  unfold writeAll odXferAppWrite
  dsimp only
  split_ifs
  · exact ⟨⟨_, _, rfl⟩, rfl, rfl, rfl, _, rfl, by simp⟩
  · exact ⟨⟨_, _, rfl⟩, rfl, rfl, rfl, _, rfl, by simp⟩

theorem streamSink_streams (app : App) (bytes : Bytes) (d : Dev) :
    Streams d (streamSink app bytes d).2 := by
  unfold streamSink
  split_ifs
  · exact .refl d
  · exact .refl d
  · have h := writeAll_streams app bytes d
    split
    · next d' hd => rw [hd] at h; exact ⟨h.xfer, h.pipe, h.reorder, h.etag, h.events⟩
    · next d' hd => rw [hd] at h; exact h

theorem Streams.received (d : Dev) (r : UInt32) :
    Streams d { d with xfer := { d.xfer with receivedBytes := r } } :=
  ⟨⟨_, _, rfl⟩, rfl, rfl, rfl, [], by simp, by simp⟩

theorem odXferStreamPush_streams (app : App) (input : Bytes) (final : Bool) (d : Dev) :
    Streams d (odXferStreamPush app input final d).2 := by
  have h := InflateApp.odZlibPumpPush_sink portable (I := Streams { d with sinkFailed := false })
    (fun out q hq => hq.trans (streamSink_streams app out q)) input final
    (app.inflateScratch d.events) (d.pump, { d with sinkFailed := false }) (.refl _)
  have hlog : ∀ (pump : Pump) status (q : Dev), Streams { d with sinkFailed := false } q →
      Streams d (Dev.log (.pump status) { q with pump := pump }) := by
    intro pump status q hq
    obtain ⟨hx, hp, hr, he, es, hes, hall⟩ := hq
    refine ⟨hx, hp, hr, he, es ++ [.pump status], ?_, ?_⟩
    · simp [Dev.log, hes]
    · intro e hmem
      rcases List.mem_append.mp hmem with hm | hm
      · exact hall e hm
      · exact .inr ⟨status, List.mem_singleton.mp hm⟩
  unfold odXferStreamPush
  dsimp only
  split_ifs
  all_goals first | exact .refl d | exact hlog _ _ _ h

end OpenDisplay
