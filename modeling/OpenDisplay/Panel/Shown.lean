import OpenDisplay.Panel.Transfer

/-! The transfer machine over the display drivers: what is refreshed is on the panel. -/

namespace OpenDisplay

open Traces

section Writes

variable {es : List Event} {drv : PanelDriver} {again : List BbepCall} {img : PanelImage}
  {ws : List (UInt32 × Bytes)}

def addWrite (ws : List (UInt32 × Bytes)) : Event → List (UInt32 × Bytes)
  | .admitted _ _ _ | .beginFull _ | .beginPartial _ => []
  | .write offset data _ => ws ++ [(offset, data)]
  | _ => ws

/-- The writes of the current transfer. -/
def writesOf (es : List Event) : List (UInt32 × Bytes) := es.foldl addWrite []

/-- The bytes of writes that follow one another. -/
def joined (ws : List (UInt32 × Bytes)) : Bytes := (ws.map Prod.snd).flatten

@[simp] theorem joined_concat (w : UInt32 × Bytes) : joined (ws ++ [w]) = joined ws ++ w.2 := by
  simp [joined]

theorem writesOf_concat (es : List Event) (e : Event) : writesOf (es ++ [e]) = addWrite (writesOf es) e :=
  List.foldl_concat ..

/-- A write starts where the ones before it end. -/
def InPlace (total : UInt32) (ws : List (UInt32 × Bytes)) (w : UInt32 × Bytes) : Prop :=
  w.1.toNat = (joined ws).length ∧ (joined ws).length + w.2.length ≤ total.toNat

theorem writes_in_place (h : Always (fun pre e => (tally pre).Fits e) es) :
    Always (InPlace (tally es).expected) (writesOf es) ∧ joined (writesOf es) = (tally es).offered := by
  induction es using List.reverseRecOn with
  | nil => exact ⟨Always.nil, rfl⟩
  | append_singleton es e ih =>
    obtain ⟨hes, he⟩ := always_concat.mp h
    obtain ⟨hplace, hjoin⟩ := ih hes
    rw [writesOf_concat, tally_concat]
    cases e with
    | admitted | beginFull | beginPartial => exact ⟨Always.nil, rfl⟩
    | write offset data consumed =>
      obtain ⟨hwhole, hoff, hroom⟩ : (tally es).offered = (tally es).accepted ∧
        offset.toNat = (tally es).accepted.length ∧
        (tally es).accepted.length + data.length ≤ (tally es).expected.toNat := he
      rw [← hwhole, ← hjoin] at hoff hroom
      refine ⟨always_concat.mpr ⟨hplace, hoff, hroom⟩, ?_⟩
      rw [addWrite, joined_concat, hjoin]
      rfl
    | _ => exact ⟨hplace, hjoin⟩

/-- A driver that is given an image in order draws it, unless the bus fails. -/
theorem PanelDriver.Lawful.draws (h : drv.Lawful again) (hok : (drv.begin img).1 = true)
    (hws : Always (InPlace img.total) ws) :
    (drv.begin img).2.Extends (drv.after img ws) ∧ ((drv.after img ws).faulted drv.spi = true ∨
      Painted drv again img (joined ws) (drv.after img ws)) := by
  induction ws using List.reverseRecOn with
  | nil => exact ⟨.refl _, .inr (h.painted hok)⟩
  | append_singleton ws w ih =>
    obtain ⟨hbefore, hoff, hroom⟩ := always_concat.mp hws
    obtain ⟨hgoes, hr⟩ := ih hbefore
    have hext := h.write_extends hok (h.begunFor hok hgoes) w.1 w.2
    rw [PanelDriver.after_concat, joined_concat]
    refine ⟨hgoes.trans hext, ?_⟩
    rcases hr with hf | hp
    · exact .inl (hext.faulted hf)
    · exact (hp.write h hoff hroom).imp_right And.right

/-- Until the bus fails, a driver takes the next bytes whole. -/
theorem PanelDriver.Lawful.takes (h : drv.Lawful again) (hok : (drv.begin img).1 = true) {w : UInt32 × Bytes}
    (hws : Always (InPlace img.total) (ws ++ [w])) :
    (drv.after img (ws ++ [w])).faulted drv.spi = true ∨
      (drv.write w.1 w.2 (drv.after img ws)).1 = UInt32.ofNat w.2.length := by
  obtain ⟨hbefore, hoff, hroom⟩ := always_concat.mp hws
  obtain ⟨hgoes, hr⟩ := h.draws hok hbefore
  rw [PanelDriver.after_concat]
  rcases hr with hf | hp
  · exact .inl ((h.write_extends hok (h.begunFor hok hgoes) w.1 w.2).faulted hf)
  · exact (hp.write h hoff hroom).imp_right And.left

end Writes

section Targets

/-- The targets of the firmware, each with a panel that bb_epaper drives. On one of them the bus can fail; another
has panels that FastEPD drives, and they are not among these. -/
inductive PanelTarget where
  | nordic (panel : PanelSetup) (spi : List BbepCall → Bool)
  | esp32 (panel : PanelSetup) (bbep : panel.fastepd.driverUsed = false)
  | efr32 (panel : PanelSetup)

def PanelTarget.driver : PanelTarget → PanelDriver
  | .nordic panel spi => nordicDriver panel spi
  | .esp32 panel _ => esp32Driver panel
  | .efr32 panel => efr32Driver panel

theorem PanelTarget.lawful (target : PanelTarget) : ∃ again, target.driver.Lawful again := by
  cases target with
  | nordic panel spi => exact ⟨_, nordic_lawful panel spi⟩
  | esp32 panel hbbep => exact ⟨_, esp32_lawful hbbep⟩
  | efr32 panel => exact ⟨_, efr32_lawful panel⟩

end Targets

section Runs

variable {etag : UInt32} {cmds : List (App × Cmd)} {pre post : List Event} {e : Event} {img : PanelImage}

theorem run_in_place (h : (run cmds (Dev.boot etag)).events = pre ++ e :: post) (himg : AskedFor cmds pre img) :
    Always (InPlace img.total) (writesOf pre) ∧ joined (writesOf pre) = (tally pre).offered := by
  have hd : Reachable (run cmds (Dev.boot etag)) := ⟨etag, cmds, rfl⟩
  have hfits := hd.ledger.1.1
  rw [h] at hfits
  rw [himg.1]
  exact writes_in_place (always_append.mp hfits).1

end Runs

/-- In every run of the transfer machine, on every target with a panel that bb_epaper drives and that
begins for the image of the transfer, the driver takes each write whole until the bus fails; and what
a refresh shows is the image that the accepted bytes stand for, on its planes and within its window,
whole wherever it must be. -/
theorem panel_holds_image (etag : UInt32) (cmds : List (App × Cmd)) (target : PanelTarget) :
    (∀ pre offset data consumed post,
      (run cmds (Dev.boot etag)).events = pre ++ .write offset data consumed :: post →
      ∃ img, AskedFor cmds pre img ∧ ((target.driver.begin img).1 = true →
        (target.driver.after img (writesOf pre ++ [(offset, data)])).faulted target.driver.spi = true ∨
          (target.driver.write offset data (target.driver.after img (writesOf pre))).1 = UInt32.ofNat data.length)) ∧
    ∀ pre refreshMode x queued ok completed post,
      (run cmds (Dev.boot etag)).events = pre ++ .refresh refreshMode x queued ok completed :: post →
      AskedFor cmds pre x.image ∧ ((target.driver.begin x.image).1 = true →
        let s := target.driver.after x.image (writesOf pre)
        s.faulted target.driver.spi = false →
          x.image.On target.driver.panel (tally pre).accepted s.calls ∧ x.image.Margin target.driver.panel s.calls ∧
          (mustBeWhole x → (tally pre).accepted.length = x.image.total.toNat) ∧
          ∃ mode, (target.driver.refresh refreshMode s).1 = some mode) := by
  obtain ⟨again, hl⟩ := target.lawful
  have hd : Reachable (run cmds (Dev.boot etag)) := ⟨etag, cmds, rfl⟩
  have hbelongs := (run_bound etag cmds cmds fun _ hc => hc).belongs
  constructor
  · intro pre offset data consumed post he
    obtain ⟨img, himg⟩ := hbelongs pre _ post he
    refine ⟨img, himg, fun hok => hl.takes hok ?_⟩
    have hnext : (run cmds (Dev.boot etag)).events = (pre ++ [.write offset data consumed]) ++ post := by
      rw [he, List.append_assoc]
      rfl
    have hfits := hd.ledger.1.1
    rw [hnext] at hfits
    have hplace := (writes_in_place (always_append.mp hfits).1).1
    rw [writesOf_concat, tally_concat, tally_expected rfl, ← himg.1] at hplace
    exact hplace
  · intro pre refreshMode x queued ok completed post he
    obtain ⟨himg, hwhole, hwritten, hexpected⟩ := hbelongs pre _ post he
    refine ⟨himg, fun hok => ?_⟩
    intro s hf
    obtain ⟨hplace, hjoin⟩ := run_in_place he himg
    obtain ⟨hgoes, hr⟩ := hl.draws hok hplace
    have hp := hr.resolve_left (Bool.eq_false_iff.mp hf)
    rw [hjoin, hwhole] at hp
    refine ⟨hp.on, hl.margin hp, fun hm => ?_, hl.refresh _ _ _ hok (hl.begunFor hok hgoes) hf⟩
    rw [← hwritten, (hd.shows pre _ post he).1 hm, hexpected, himg.1]

/-- Eight pixels of a panel, the old ones and the new ones, as a refresh shows them. -/
theorem panel_holds_image_pixels :
    let cmds : List (App × Cmd) := [(.willing, .pipeStart .ble pipeStartPixels),
      (.willing, .pipeData .ble [0, 0xaa, 0x55]), (.willing, .pipeEnd .ble [])]
    let target := PanelTarget.nordic { pixelWidth := 64, pixelHeight := 64 } fun _ => false
    ∃ pre x post, (run cmds (Dev.boot 7)).events = pre ++ .refresh refreshPartial x 0 true true :: post ∧
      AskedFor cmds pre x.image ∧ (tally pre).accepted = [0xaa, 0x55] ∧
      ((drawn (target.driver.after x.image (writesOf pre)).calls).planes .plane1).2 = [0xaa] ∧
      ((drawn (target.driver.after x.image (writesOf pre)).calls).planes .plane0).2 = [0x55] := by
  intro cmds target
  let x : XferState := { (run (cmds.take 2) (Dev.boot 7)).xfer with finalized := true }
  have he : (run cmds (Dev.boot 7)).events = (run cmds (Dev.boot 7)).events.take 11 ++
      .refresh refreshPartial x 0 true true :: (run cmds (Dev.boot 7)).events.drop 12 := by decide +kernel
  have hbytes : (tally ((run cmds (Dev.boot 7)).events.take 11)).accepted = [0xaa, 0x55] := by decide +kernel
  have hfirst : x.image.first = .plane1 := by decide +kernel
  have hsize : x.image.size = 1 := by decide +kernel
  obtain ⟨himg, hshown⟩ := (panel_holds_image 7 cmds target).2 _ _ _ _ _ _ _ he
  obtain ⟨hon, -⟩ := hshown (by decide +kernel) (by decide +kernel)
  have hhead := hon.head
  have htail := hon.tail
  rw [hfirst, hsize, hbytes] at hhead htail
  exact ⟨_, _, _, he, himg, hbytes, hhead, htail⟩

end OpenDisplay
