import OpenDisplay.Wire
import OpenDisplay.Lib.Ring

/-! The receive ring between one producer and one consumer. Each load and each store
of an index is a step of its own, the copy of the payload is one before the store
that publishes it, and the two sides take their steps in any order. -/

namespace OpenDisplay

open Rings

def odRxqValueMaxBle : Nat := 253

/-- The number of slots, within the bounds that are asserted of it. -/
structure RxSlots where
  count : Nat
  ge : 3 ≤ count
  le : count ≤ 255

instance (n : RxSlots) : NeZero n.count := ⟨by have := n.ge; omega⟩

/-- A frame with its length and the tag of the link it came over. -/
structure RxItem where
  data : Bytes := []
  tag : UInt32 := 0
deriving DecidableEq

/-- Where a push is. Until it writes it remembers what it found, for the proofs. -/
inductive ProdPc (n : Nat) where
  | idle
  | loadHead (x : RxItem) (found : (Fin n → RxItem) × Fin n)
  | loadTail (x : RxItem) (head : Fin n) (found : (Fin n → RxItem) × Fin n)
  | copy (x : RxItem) (head : Fin n)
  | store (x : RxItem) (head : Fin n)

/-- Where the consumer is. Peek and consume are called on their own or by the loop
that discards stale frames, with its count so far. The consumer may keep the slot it
peeked last; what the slot held then is remembered for the proofs. -/
inductive ConsPc (n : Nat) where
  | idle (item : Option (Fin n × RxItem))
  | peekTail (dropped : Option UInt8)
  | peekHead (dropped : Option UInt8) (tail : Fin n)
  | askLive (dropped : UInt8) (tail : Fin n)
  | consumeTail (dropped : Option UInt8)
  | consumeHead (dropped : Option UInt8) (tail : Fin n)
  | consumeStore (dropped : Option UInt8) (tail : Fin n)
  | resetTail
  | resetHead (tail : Fin n)
  | resetStore (tail head : Fin n)

inductive RxEvent where
  | accepted (x : RxItem)
  | refused
  | seen (x : RxItem)
  | consumed (x : RxItem)
  | discardBegan
  | foundEmpty
  | asked (x : RxItem) (live : Bool)
  | discarded (x : RxItem)
  | discardReturned (dropped : UInt8)
  | resetLoaded
  | resetReturned (removed : List RxItem) (dropped : UInt8)

structure RxWorld (n : Nat) where
  ring : Fin n → RxItem
  head : Fin n
  tail : Fin n
  prod : ProdPc n
  cons : ConsPc n
  log : List RxEvent

variable {n : Nat} [NeZero n]

def RxWorld.init (n : Nat) [NeZero n] : RxWorld n :=
  { ring := fun _ => {}, head := 0, tail := 0, prod := .idle, cons := .idle none, log := [] }

def occupancy (head tail : Fin n) : UInt8 := UInt8.ofNat (gap tail head)

/-- The next step of a push that is under way. -/
def odRxqPush (w : RxWorld n) : RxWorld n :=
  match w.prod with
  | .idle => w
  | .loadHead x found => { w with prod := .loadTail x w.head found }
  | .loadTail x head _ =>
    if head + 1 = w.tail then { w with prod := .idle, log := w.log ++ [.refused] }
    else { w with prod := .copy x head }
  | .copy x head => { w with ring := Function.update w.ring head x, prod := .store x head }
  | .store x head => { w with head := head + 1, prod := .idle, log := w.log ++ [.accepted x] }

/-- The next step of the consumer; `live` is the answer if it asks about a tag. -/
def odRxqConsumer (w : RxWorld n) (live : Bool) : RxWorld n :=
  match w.cons with
  | .idle _ => w
  | .peekTail dropped => { w with cons := .peekHead dropped w.tail }
  | .peekHead none tail =>
    if tail = w.head then { w with cons := .idle none }
    else { w with cons := .idle (some (tail, w.ring tail)) }
  | .peekHead (some dropped) tail =>
    if tail = w.head then
      { w with cons := .idle none, log := w.log ++ [.foundEmpty, .discardReturned dropped] }
    else { w with cons := .askLive dropped tail }
  | .askLive dropped tail =>
    if live then
      { w with cons := .idle none, log := w.log ++ [.asked (w.ring tail) true, .discardReturned dropped] }
    else { w with cons := .consumeTail (some dropped), log := w.log ++ [.asked (w.ring tail) false] }
  | .consumeTail dropped => { w with cons := .consumeHead dropped w.tail }
  | .consumeHead none tail =>
    if tail = w.head then { w with cons := .idle none } else { w with cons := .consumeStore none tail }
  | .consumeHead (some dropped) tail =>
    if tail = w.head then { w with cons := .peekTail (some (dropped + 1)) }
    else { w with cons := .consumeStore (some dropped) tail }
  | .consumeStore none tail =>
    { w with tail := tail + 1, cons := .idle none, log := w.log ++ [.consumed (w.ring tail)] }
  | .consumeStore (some dropped) tail =>
    { w with tail := tail + 1, cons := .peekTail (some (dropped + 1))
             log := w.log ++ [.discarded (w.ring tail)] }
  | .resetTail => { w with cons := .resetHead w.tail }
  | .resetHead tail =>
    if tail = w.head then { w with cons := .idle none, log := w.log ++ [.resetLoaded, .resetReturned [] 0] }
    else { w with cons := .resetStore tail w.head, log := w.log ++ [.resetLoaded] }
  | .resetStore tail head =>
    { w with tail := head, cons := .idle none
             log := w.log ++ [.resetReturned (contents w.ring tail head) (occupancy head tail)] }

inductive RxAct where
  | push (x : RxItem)
  | producer
  | peek
  | consume
  | discardStale
  | reset
  | consumer (live : Bool)
  | read

/-- A call begins, a side takes its next step, or the consumer reads the slot it
peeked. A side that is in a call does not begin another. -/
def RxWorld.step (w : RxWorld n) : RxAct → RxWorld n
  | .push x =>
    match w.prod with
    | .idle =>
      if x.data = [] ∨ odRxqValueMaxBle < x.data.length then { w with log := w.log ++ [.refused] }
      else { w with prod := .loadHead x (w.ring, w.head) }
    | _ => w
  | .producer => odRxqPush w
  | .peek => match w.cons with
    | .idle _ => { w with cons := .peekTail none }
    | _ => w
  | .consume => match w.cons with
    | .idle _ => { w with cons := .consumeTail none }
    | _ => w
  | .discardStale => match w.cons with
    | .idle _ => { w with cons := .peekTail (some 0), log := w.log ++ [.discardBegan] }
    | _ => w
  | .reset => match w.cons with
    | .idle _ => { w with cons := .resetTail }
    | _ => w
  | .consumer live => odRxqConsumer w live
  | .read => match w.cons with
    | .idle (some (tail, _)) => { w with log := w.log ++ [.seen (w.ring tail)] }
    | _ => w

def rxRun (n : Nat) [NeZero n] (acts : List RxAct) : RxWorld n := acts.foldl RxWorld.step (RxWorld.init n)

end OpenDisplay
