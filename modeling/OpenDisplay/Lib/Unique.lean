import OpenDisplay.Lib.Deflate

/-! A stream says one thing: no stream of the format begins with another, and each has one
output. At every level the bits that stand for something are found from the bits alone,
whatever comes after them. -/

namespace Deflate

open Huffman

variable {bs bs' rest rest' : List Bool}

section Fields

theorem lowBits_unique {n v w : Nat} (hv : v < 2 ^ n) (hw : w < 2 ^ n)
    (heq : lowBits n v ++ rest = lowBits n w ++ rest') : v = w ∧ rest = rest' := by
  obtain ⟨hbits, hrest⟩ := List.append_inj heq (by rw [lowBits_length, lowBits_length])
  exact ⟨lowBits_inj hv hw hbits, hrest⟩

theorem bytesBits_inj {xs ys : List UInt8} (h : bytesBits xs = bytesBits ys) : xs = ys := by
  have hsplit : bytesBits xs = bytesBits ys ++ [] := h.trans (List.append_nil _).symm
  obtain ⟨zs, rfl, hzs⟩ := bytesBits_split hsplit
  have hlen := congrArg List.length hzs
  rw [bytesBits_length, List.length_nil] at hlen
  rw [List.length_eq_zero_iff.mp (by omega : zs.length = 0), List.append_nil]

theorem littleEndian_inj {n m : Nat} (hn : n < 2 ^ 16) (hm : m < 2 ^ 16) (h : littleEndian n = littleEndian m) :
    n = m := by
  simp only [littleEndian, List.cons.injEq, and_true, ← UInt8.toNat_inj, UInt8.toNat_ofNat'] at h
  omega

/-- Numbers of a fixed size one after the other are known from their bits. -/
theorem flatMap_lowBits_unique {n : Nat} {vs ws : List Nat} (hlen : vs.length = ws.length)
    (hvs : ∀ v ∈ vs, v < 2 ^ n) (hws : ∀ w ∈ ws, w < 2 ^ n)
    (heq : vs.flatMap (lowBits n) ++ rest = ws.flatMap (lowBits n) ++ rest') : vs = ws ∧ rest = rest' := by
  induction vs generalizing ws with
  | nil =>
    obtain rfl := List.length_eq_zero_iff.mp hlen.symm
    exact ⟨rfl, heq⟩
  | cons v vs ih =>
    cases ws with
    | nil => cases hlen
    | cons w ws =>
      rw [List.flatMap_cons, List.flatMap_cons, List.append_assoc, List.append_assoc] at heq
      obtain ⟨rfl, htail⟩ := lowBits_unique (hvs v List.mem_cons_self) (hws w List.mem_cons_self) heq
      obtain ⟨rfl, hrest⟩ := ih (Nat.succ.inj hlen) (fun u hu => hvs u (List.mem_cons_of_mem _ hu))
        (fun u hu => hws u (List.mem_cons_of_mem _ hu)) htail
      exact ⟨rfl, hrest⟩

end Fields

section Data

variable {window window' : Nat} {lit dist : List Nat} {out o o' : List UInt8}

theorem Data.unique (hlit : Valid lit 15) (hdist : Valid dist 15) (h : Data window lit dist out bs o)
    (h' : Data window' lit dist out bs' o') (heq : bs ++ rest = bs' ++ rest') : bs = bs' ∧ o = o' := by
  induction h generalizing bs' with
  | finish hs =>
    cases h' with
    | finish hs' => exact ⟨(hs.unique hs' hlit heq).2, rfl⟩
    | @literal _ _ _ _ b hs' _ =>
      rw [List.append_assoc] at heq
      have hsym := (hs.unique hs' hlit heq).1
      have hlt := b.toNat_lt
      omega
    | copy _ _ _ _ hs' _ _ _ _ =>
      rw [List.append_assoc] at heq
      have hsym := (hs.unique hs' hlit heq).1
      omega
  | @literal _ _ _ _ b hs _ ih =>
    rw [List.append_assoc] at heq
    cases h' with
    | finish hs' =>
      have hsym := (hs.unique hs' hlit heq).1
      have hlt := b.toNat_lt
      omega
    | literal hs' hd' =>
      rw [List.append_assoc] at heq
      obtain ⟨hsym, rfl⟩ := hs.unique hs' hlit heq
      obtain rfl := UInt8.toNat_inj.mp hsym
      obtain ⟨rfl, rfl⟩ := ih hd' (List.append_cancel_left heq)
      exact ⟨rfl, rfl⟩
    | copy _ _ _ _ hs' _ _ _ _ =>
      rw [List.append_assoc] at heq
      have hsym := (hs.unique hs' hlit heq).1
      have hlt := b.toNat_lt
      omega
  | copy _ _ hx hy hs hds _ _ _ ih =>
    simp only [List.append_assoc] at heq
    cases h' with
    | finish hs' =>
      have hsym := (hs.unique hs' hlit heq).1
      omega
    | @literal _ _ _ _ b hs' _ =>
      rw [List.append_assoc] at heq
      have hsym := (hs.unique hs' hlit heq).1
      have hlt := b.toNat_lt
      omega
    | copy _ _ hx' hy' hs' hds' _ _ hd' =>
      simp only [List.append_assoc] at heq
      -- the length, its extra bits, the distance and its extra bits, in the order they are sent
      obtain ⟨hsym, rfl⟩ := hs.unique hs' hlit heq
      obtain rfl := Nat.add_left_cancel hsym
      obtain ⟨rfl, hdistance⟩ := lowBits_unique hx hx' (List.append_cancel_left heq)
      obtain ⟨rfl, rfl⟩ := hds.unique hds' hdist hdistance
      obtain ⟨rfl, htail⟩ := lowBits_unique hy hy' (List.append_cancel_left hdistance)
      obtain ⟨rfl, rfl⟩ := ih hd' htail
      exact ⟨rfl, rfl⟩

end Data

section Header

variable {cl lens all all' lit lit' dist dist' : List Nat}

/-- How many bits come with a symbol of the code for code lengths. -/
def runBits (sym : Nat) : Nat := if sym = 16 then 2 else if sym = 17 then 3 else if sym = 18 then 7 else 0

/-- The lengths that a symbol adds to those before it, with the number that comes with it. -/
def runOf (lens : List Nat) (sym x : Nat) : List Nat :=
  if sym = 16 then List.replicate (x + 3) (lens.getLast?.getD 0)
  else if sym = 17 then List.replicate (x + 3) 0
  else if sym = 18 then List.replicate (x + 11) 0
  else [sym]

theorem Lengths.first (h : Lengths cl lens bs all) : (bs = [] ∧ all = lens) ∨
    ∃ sym x ss tail, Sends cl sym ss ∧ x < 2 ^ runBits sym ∧ bs = ss ++ (lowBits (runBits sym) x ++ tail) ∧
      lens.length < all.length ∧ Lengths cl (lens ++ runOf lens sym x) tail all := by
  cases h with
  | finish => exact .inl ⟨rfl, rfl⟩
  | @length _ _ ss tail n hn hs hl =>
    have hbits : runBits n = 0 := by simp [runBits, show n ≠ 16 ∧ n ≠ 17 ∧ n ≠ 18 by omega]
    have hrun : runOf lens n 0 = [n] := by simp [runOf, show n ≠ 16 ∧ n ≠ 17 ∧ n ≠ 18 by omega]
    have hle := hl.grows.length_le
    rw [List.length_append, List.length_singleton] at hle
    exact .inr ⟨n, 0, ss, tail, hs, by simp [hbits], by simp [hbits, lowBits], hle, hrun ▸ hl⟩
  | @again _ _ ss tail n x hn hx hs hl =>
    have hle := hl.grows.length_le
    rw [List.length_append, List.length_replicate] at hle
    refine .inr ⟨16, x, ss, tail, hs, hx, rfl, by omega, ?_⟩
    simpa [runOf, hn] using hl
  | @zeros _ _ ss tail x hx hs hl =>
    have hle := hl.grows.length_le
    rw [List.length_append, List.length_replicate] at hle
    exact .inr ⟨17, x, ss, tail, hs, hx, rfl, by omega, hl⟩
  | @moreZeros _ _ ss tail x hx hs hl =>
    have hle := hl.grows.length_le
    rw [List.length_append, List.length_replicate] at hle
    exact .inr ⟨18, x, ss, tail, hs, hx, rfl, by omega, hl⟩

theorem Lengths.unique (hcl : Valid cl 15) (h : Lengths cl lens bs all) (h' : Lengths cl lens bs' all')
    (hlen : all.length = all'.length) (heq : bs ++ rest = bs' ++ rest') : bs = bs' ∧ all = all' := by
  -- a symbol adds at least one length, and there are only so many to add
  induction hm : all.length - lens.length using Nat.strongRecOn generalizing lens bs bs' with
  | _ m ih =>
    rcases h.first with ⟨rfl, rfl⟩ | ⟨sym, x, ss, tail, hs, hx, rfl, hlt, hl⟩
    · rcases h'.first with ⟨rfl, rfl⟩ | ⟨-, -, -, -, -, -, -, hlt, -⟩
      · exact ⟨rfl, rfl⟩
      · omega
    · rcases h'.first with ⟨rfl, rfl⟩ | ⟨sym', x', ss', tail', hs', hx', rfl, -, hl'⟩
      · omega
      · simp only [List.append_assoc] at heq
        obtain ⟨rfl, rfl⟩ := hs.unique hs' hcl heq
        obtain ⟨rfl, htail⟩ := lowBits_unique hx hx' (List.append_cancel_left heq)
        have hgrow : 0 < (runOf lens sym x).length := by
          unfold runOf
          split_ifs <;> simp
        obtain ⟨rfl, rfl⟩ := ih (all.length - (lens ++ runOf lens sym x).length)
          (by rw [List.length_append]; omega) hl hl' htail rfl
        exact ⟨rfl, rfl⟩

theorem Header.valid (h : Header bs lit dist) : Valid lit 15 ∧ Valid dist 15 := by
  cases h with
  | mk _ _ _ _ _ _ _ _ _ lit_valid dist_valid => exact ⟨lit_valid, dist_valid⟩

theorem Header.unique (h : Header bs lit dist) (h' : Header bs' lit' dist') (heq : bs ++ rest = bs' ++ rest') :
    bs = bs' ∧ lit = lit' ∧ dist = dist' := by
  obtain ⟨lits, lits_le, dists, dists_le, sent_ge, sent_le, sent_lt, valid, lengths, -, -⟩ := h
  obtain ⟨lits', lits_le', dists', dists_le', sent_ge', sent_le', sent_lt', -, lengths', -, -⟩ := h'
  simp only [List.append_assoc] at heq
  obtain ⟨hlits, htail⟩ := lowBits_unique (n := 5) (by omega) (by omega) heq
  obtain ⟨hdists, htail⟩ := lowBits_unique (n := 5) (by omega) (by omega) htail
  obtain ⟨hsent, htail⟩ := lowBits_unique (n := 4) (by omega) (by omega) htail
  obtain ⟨rfl, hruns⟩ := flatMap_lowBits_unique (n := 3) (by omega) sent_lt sent_lt' htail
  have hlit : lit.length = lit'.length := by omega
  have hdist : dist.length = dist'.length := by omega
  obtain ⟨rfl, hall⟩ := lengths.unique valid lengths'
    (by rw [List.length_append, List.length_append, hlit, hdist]) hruns
  obtain ⟨rfl, rfl⟩ := List.append_inj hall hlit
  exact ⟨rfl, rfl, rfl⟩

end Header

section Stream

variable {window window' pos : Nat} {final final' : Bool} {out o o' : List UInt8}

theorem Block.unique (h : Block window pos final out bs o) (h' : Block window' pos final' out bs' o')
    (heq : bs ++ rest = bs' ++ rest') : final = final' ∧ bs = bs' ∧ o = o' := by
  cases h with
  | @stored data pad hlen hpad hpos =>
    cases h' with
    | @stored data' pad' hlen' hpad' hpos' =>
      simp only [List.append_assoc, List.cons_append, List.nil_append, List.cons.injEq, true_and, bytesBits_append]
        at heq
      obtain ⟨rfl, heq⟩ := heq
      -- the padding ends at a whole byte, so it is as long as it must be
      obtain ⟨rfl, htail⟩ := List.append_inj heq (by omega)
      obtain ⟨hsize, htail⟩ := List.append_inj htail (by simp [littleEndian])
      have hdata := littleEndian_inj hlen hlen' (bytesBits_inj hsize)
      obtain ⟨-, htail⟩ := List.append_inj htail (by simp [littleEndian])
      obtain rfl := bytesBits_inj (List.append_inj_left htail (by rw [bytesBits_length, bytesBits_length, hdata]))
      exact ⟨rfl, rfl, rfl⟩
    | fixed _ | dynamic _ _ => simp at heq
  | fixed hd =>
    cases h' with
    | fixed hd' =>
      simp only [List.cons_append, List.nil_append, List.cons.injEq, true_and] at heq
      obtain ⟨rfl, rfl⟩ := hd.unique fixedLit_valid fixedDist_valid hd' heq.2
      exact ⟨heq.1, by rw [heq.1], rfl⟩
    | stored _ _ _ | dynamic _ _ => simp at heq
  | dynamic hh hd =>
    cases h' with
    | dynamic hh' hd' =>
      simp only [List.append_assoc, List.cons_append, List.nil_append, List.cons.injEq, true_and] at heq
      obtain ⟨rfl, rfl, rfl⟩ := hh.unique hh' heq.2
      obtain ⟨rfl, rfl⟩ := hd.unique hh.valid.1 hh.valid.2 hd' (List.append_cancel_left heq.2)
      exact ⟨heq.1, by rw [heq.1], rfl⟩
    | stored _ _ _ | fixed _ => simp at heq

theorem Blocks.unique (h : Blocks window pos out bs o) (h' : Blocks window' pos out bs' o')
    (heq : bs ++ rest = bs' ++ rest') : bs = bs' ∧ o = o' := by
  induction h generalizing bs' with
  | last hb =>
    cases h' with
    | last hb' => exact (hb.unique hb' heq).2
    | more hb' _ =>
      rw [List.append_assoc] at heq
      cases (hb.unique hb' heq).1
  | more hb _ ih =>
    rw [List.append_assoc] at heq
    cases h' with
    | last hb' => cases (hb.unique hb' heq).1
    | more hb' hbs' =>
      rw [List.append_assoc] at heq
      obtain ⟨-, rfl, rfl⟩ := hb.unique hb' heq
      obtain ⟨rfl, rfl⟩ := ih hbs' (List.append_cancel_left heq)
      exact ⟨rfl, rfl⟩

/-- No stream begins with another, and none has two outputs. -/
theorem Zlib.unique {z z' : List UInt8} (h : Zlib window z o) (h' : Zlib window' z' o') (hpre : z <+: z') :
    z = z' ∧ o = o' := by
  cases h with
  | @mk cmf flg data _ bs pad _ _ _ _ body pad_lt blocks =>
    cases h' with
    | @mk cmf' flg' data' _ bs' pad' _ _ _ _ body' pad_lt' blocks' =>
      obtain ⟨tail, htail⟩ := hpre
      simp only [List.cons_append, List.append_assoc, List.cons.injEq] at htail
      obtain ⟨rfl, rfl, heq⟩ := htail
      have hbits := congrArg bytesBits heq
      simp only [bytesBits_append, body, body', List.append_assoc] at hbits
      obtain ⟨rfl, rfl⟩ := blocks.unique blocks' hbits
      have hlen := congrArg List.length body
      have hlen' := congrArg List.length body'
      rw [bytesBits_length, List.length_append] at hlen hlen'
      obtain ⟨rfl, -⟩ := List.append_inj heq (by omega)
      exact ⟨rfl, rfl⟩

theorem Zlib.ne_nil {z : List UInt8} (h : Zlib window z o) : z ≠ [] := by
  cases h
  exact List.cons_ne_nil _ _

/-- A wider window only allows more. -/
theorem Zlib.mono {z : List UInt8} (h : Zlib window z o) (hle : window ≤ window') : Zlib window' z o := by
  cases h with
  | mk method declared check dictionary body pad_lt blocks =>
    exact .mk method (declared.trans hle) check dictionary body pad_lt blocks

end Stream

end Deflate
