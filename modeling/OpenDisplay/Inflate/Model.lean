import OpenDisplay.Inflate.Bits

/-! The streaming zlib inflater: the stages of a stream, the stages of a block
and of a dynamic header, and the poll loop that runs them until the output
buffer is full, the input is used up, or the stream ends. -/

namespace OpenDisplay

open Loops

inductive Stage where
  | zlibCmf | zlibFlg | blockFinal | blockType | dynamicTrees | storedLen | storedData
  | blockData | trailer | done | error
deriving DecidableEq

inductive BlockStage where
  | symbol | lenExtra | distSymbol | distExtra | matchCopy
deriving DecidableEq

inductive DynamicStage where
  | hlit | hdist | hclen | clearClen | readClen | buildCltree | readLengths | repeatBits
  | buildTrees
deriving DecidableEq

/-- The 16 code-length counters and the symbol storage of a zeroed tree. -/
def Tree.zero (transSize : Nat) : Tree :=
  ⟨List.replicate 16 0, List.replicate transSize 0⟩

def zlibWindowBits : Nat := 9

def zlibWindowSize : Nat := 2 ^ zlibWindowBits

/-- The decoder state. The distance and code-length trees share `tree`, as they
share storage in the source; `lengths` is their common array of code lengths. -/
structure Inflate where
  stage : Stage := .zlibCmf
  blockStage : BlockStage := .symbol
  dynamicStage : DynamicStage := .hlit
  rd : BitReader := {}
  initialized : Bool := false
  cmf : UInt8 := 0
  bfinal : Nat := 0
  btype : Nat := 0
  ltree : Tree := .zero 288
  tree : Tree := .zero 32
  lengths : List Nat := List.replicate (288 + 32) 0
  hlit : Nat := 0
  hdist : Nat := 0
  hclen : Nat := 0
  hlimit : Nat := 0
  dynI : Nat := 0
  dynNum : Nat := 0
  dynFillValue : Nat := 0
  dynRepeatBits : Nat := 0
  dynRepeatBase : Nat := 0
  storedHeaderIndex : Nat := 0
  storedLen : UInt16 := 0
  storedInvlen : UInt16 := 0
  matchLen : Nat := 0
  matchOffset : Nat := 0
  lengthSym : Nat := 0
  distSym : Nat := 0
  window : List UInt8 := List.replicate zlibWindowSize 0
  windowPos : Nat := 0
  expectedOutput : UInt32 := 0
  outputCount : UInt32 := 0
  adler : UInt32 := 0
  trailerIndex : Nat := 0
  trailerValue : UInt32 := 0
  error : Option String := none

def lengthBits : List Nat :=
  [0, 0, 0, 0, 0, 0, 0, 0, 1, 1, 1, 1, 2, 2, 2, 2, 3, 3, 3, 3, 4, 4, 4, 4, 5, 5, 5, 5, 0, 0]

def lengthBase : List Nat :=
  [3, 4, 5, 6, 7, 8, 9, 10, 11, 13, 15, 17, 19, 23, 27, 31, 35, 43, 51, 59, 67, 83, 99, 115,
    131, 163, 195, 227, 258, 0]

def distBits : List Nat :=
  [0, 0, 0, 0, 1, 1, 2, 2, 3, 3, 4, 4, 5, 5, 6, 6, 7, 7, 8, 8, 9, 9, 10, 10, 11, 11, 12, 12,
    13, 13]

def distBase : List Nat :=
  [1, 2, 3, 4, 5, 7, 9, 13, 17, 25, 33, 49, 65, 97, 129, 193, 257, 385, 513, 769, 1025, 1537,
    2049, 3073, 4097, 6145, 8193, 12289, 16385, 24577]

def clcidx : List Nat := [16, 17, 18, 0, 8, 7, 9, 6, 10, 5, 11, 4, 12, 3, 13, 2, 14, 1, 15]

def setError (error : String) (s : Inflate) : Inflate :=
  { s with stage := .error, error := some error }

def countLengths (lengths : List Nat) : List Nat :=
  (lengths.foldl (fun table len => table.modify len (· + 1)) (List.replicate 16 0)).set 0 0

def placeSymbols (lengths : List Nat) (offs trans : List Nat) : List Nat :=
  (lengths.zipIdx.foldl (fun (acc : List Nat × List Nat) (p : Nat × Nat) =>
    if p.1 ≠ 0 then (acc.1.modify p.1 (· + 1), acc.2.set (acc.1.getD p.1 0) p.2) else acc)
    (offs, trans)).2

def buildTree (t : Tree) (transSize : Nat) (lengths : List Nat) : Except String Tree :=
  if lengths.any (16 ≤ ·) then .error "invalid huffman code length"
  else
    let table := countLengths lengths
    if table.sum > transSize then .error "huffman tree exceeds symbol storage"
    else
      let offs := (List.range 16).map fun i => (table.take i).sum
      .ok ⟨table, placeSymbols lengths offs t.trans⟩

def fixedLiteralTree : Tree :=
  ⟨[0, 0, 0, 0, 0, 0, 0, 24, 152, 112, 0, 0, 0, 0, 0, 0],
    (List.range 24).map (256 + ·) ++ List.range 144 ++ (List.range 8).map (280 + ·) ++
      (List.range 112).map (144 + ·)⟩

def fixedDistanceTree : Tree :=
  ⟨[0, 0, 0, 0, 0, 32, 0, 0, 0, 0, 0, 0, 0, 0, 0, 0], List.range 32⟩

def buildFixedTrees (s : Inflate) : Inflate :=
  { s with ltree := fixedLiteralTree, tree := fixedDistanceTree }

def adlerUpdateByte (adler : UInt32) (byte : UInt8) : UInt32 :=
  let s1 := (adler &&& 0xffff) + byte.toUInt32
  let s1 := if 65521 ≤ s1 then s1 - 65521 else s1
  let s2 := ((adler >>> 16) + s1) % 65521
  (s2 <<< 16) ||| s1

inductive ZlibHeader where
  | ok | bad | windowTooBig
deriving DecidableEq

def odZlibHeaderCheck (cmf flg : UInt8) : ZlibHeader :=
  if (256 * cmf.toNat + flg.toNat) % 31 ≠ 0 ∨ cmf &&& 0x0f ≠ 8 ∨ flg &&& 0x20 ≠ 0 then .bad
  else if (cmf >>> 4).toNat + 8 > zlibWindowBits then .windowTooBig
  else .ok

/-- A read by the decoder, which records the error of a failed one. -/
def Inflate.read {α : Type} (f : BitReader → Rc α × BitReader) (s : Inflate) : Rc α × Inflate :=
  match f s.rd with
  | (.ok a, r) => (.ok a, { s with rd := r })
  | (.need, r) => (.need, { s with rd := r })
  | (.fail e, r) => (.fail e, setError e { s with rd := r })

section Header

abbrev HeaderIter := Iter Inflate (Rc Unit × Inflate)

def onRead {α : Type} (p : Rc α × Inflate) (k : α → Inflate → HeaderIter) : HeaderIter :=
  match p with
  | (.ok a, s) => k a s
  | (.need, s) => .stop (.need, s)
  | (.fail e, s) => .stop (.fail e, s)

def failWith (e : String) (s : Inflate) : HeaderIter := .stop (.fail e, setError e s)

def fillLengths (start count value : Nat) (lengths : List Nat) : List Nat :=
  (List.range count).foldl (fun ls i => ls.set (start + i) value) lengths

def dynamicSizes (v : Nat) (s : Inflate) : HeaderIter :=
  let s := { s with hclen := v }
  if s.hlit > 286 ∨ s.hdist > 32 ∨ s.hlit + s.hdist > 320 then
    failWith "invalid dynamic tree sizes" s
  else .next { s with dynI := 0, dynamicStage := .clearClen }

def dynamicLength (sym : Nat) (s : Inflate) : HeaderIter :=
  if sym < 16 then
    .next { s with lengths := s.lengths.set s.dynNum sym, dynNum := s.dynNum + 1 }
  else if sym = 16 then
    if s.dynNum = 0 then failWith "invalid dynamic repeat" s
    else
      .next { s with
        dynFillValue := s.lengths.getD (s.dynNum - 1) 0, dynRepeatBits := 2, dynRepeatBase := 3
        dynamicStage := .repeatBits }
  else if sym = 17 then
    .next { s with
      dynFillValue := 0, dynRepeatBits := 3, dynRepeatBase := 3, dynamicStage := .repeatBits }
  else if sym = 18 then
    .next { s with
      dynFillValue := 0, dynRepeatBits := 7, dynRepeatBase := 11, dynamicStage := .repeatBits }
  else failWith "invalid dynamic code length symbol" s

def dynamicRepeat (len : Nat) (s : Inflate) : HeaderIter :=
  if s.dynNum + len > s.hlimit then failWith "dynamic repeat exceeds tree size" s
  else
    .next { s with
      lengths := fillLengths s.dynNum len s.dynFillValue s.lengths, dynNum := s.dynNum + len
      dynamicStage := .readLengths }

def dynamicBuildTrees (s : Inflate) : HeaderIter :=
  if s.lengths.getD 256 0 = 0 then failWith "dynamic tree missing end-of-block" s
  else
    match buildTree s.ltree 288 (s.lengths.take s.hlit) with
    | .error e => failWith e s
    | .ok ltree =>
      match buildTree s.tree 32 ((s.lengths.drop s.hlit).take s.hdist) with
      | .error e => failWith e s
      | .ok dtree =>
        .stop (.ok (), { s with
          ltree := ltree, tree := dtree, dynamicStage := .hlit, rd := resetCodeReaders s.rd })

/-- One pass of the dynamic header's loop. Its inner loops go round the same
switch, one pass for each element they read. -/
def dynamicPass (s : Inflate) : HeaderIter :=
  match s.dynamicStage with
  | .hlit => onRead (s.read (readBits 5 257)) fun v s =>
      .next { s with hlit := v, dynamicStage := .hdist }
  | .hdist => onRead (s.read (readBits 5 1)) fun v s =>
      .next { s with hdist := v, dynamicStage := .hclen }
  | .hclen => onRead (s.read (readBits 4 4)) dynamicSizes
  | .clearClen =>
    .next { s with
      lengths := fillLengths s.dynI (19 - s.dynI) 0 s.lengths, dynI := 0
      dynamicStage := .readClen }
  | .readClen =>
    if s.dynI < s.hclen then
      onRead (s.read (readBits 3 0)) fun v s =>
        .next { s with
          lengths := s.lengths.set (clcidx.getD s.dynI 0) (v % 256), dynI := s.dynI + 1 }
    else .next { s with dynamicStage := .buildCltree }
  | .buildCltree =>
    match buildTree s.tree 19 (s.lengths.take 19) with
    | .error e => failWith e s
    | .ok cltree =>
      .next { s with
        tree := cltree, hlimit := s.hlit + s.hdist, dynNum := 0, dynamicStage := .readLengths
        rd := resetCodeReaders s.rd }
  | .readLengths =>
    if s.dynNum < s.hlimit then onRead (s.read (decodeSymbol s.tree 19)) dynamicLength
    else .next { s with dynamicStage := .buildTrees }
  | .repeatBits => onRead (s.read (readBits s.dynRepeatBits s.dynRepeatBase)) dynamicRepeat
  | .buildTrees => dynamicBuildTrees s

def storedHeaderPass (s : Inflate) : HeaderIter :=
  if s.storedHeaderIndex < 4 then
    onRead (s.read readByte) fun byte s =>
      let s :=
        if s.storedHeaderIndex = 0 then { s with storedLen := byte.toUInt16 }
        else if s.storedHeaderIndex = 1 then
          { s with storedLen := s.storedLen ||| (byte.toUInt16 <<< 8) }
        else if s.storedHeaderIndex = 2 then { s with storedInvlen := byte.toUInt16 }
        else { s with storedInvlen := s.storedInvlen ||| (byte.toUInt16 <<< 8) }
      .next { s with storedHeaderIndex := s.storedHeaderIndex + 1 }
  else if s.storedLen ≠ ~~~s.storedInvlen then failWith "invalid stored block length" s
  else .stop (.ok (), { s with storedHeaderIndex := 0 })

def trailerPass (s : Inflate) : HeaderIter :=
  if s.trailerIndex < 4 then
    onRead (s.read readByte) fun byte s =>
      .next { s with
        trailerValue := (s.trailerValue <<< 8) ||| byte.toUInt32
        trailerIndex := s.trailerIndex + 1 }
  else if s.trailerValue ≠ s.adler then failWith "zlib adler32 mismatch" s
  else if s.outputCount ≠ s.expectedOutput then failWith "decompressed output size mismatch" s
  else if s.rd.input ≠ [] then failWith "input after end of zlib stream" s
  else .stop (.ok (), { s with stage := .done })

end Header

end OpenDisplay
