import PdfWorker.Fault
set_option autoImplicit false

/-! # Sources

A source is what a stream will still deliver: pieces of data and faults, in order, and then its
end. `Source.read` is one read; it never reaches into the next piece. `Source.fill` reads until it
has a number of octets, and tries again after an interruption.

`Source.weight` bounds the reads that a source can still answer with something: every read that
does lowers it (`weight_read_lt`), and so does filling (`weight_fill_lt`). -/

namespace PdfWorker

/-- What a stream delivers next. -/
inductive Delivery where
  /-- What `data` holds from `start` on. -/
  | octets (data : ByteArray) (start : Nat := 0)
  | fault (fault : Fault)

/-- What a stream will still deliver. -/
structure Source where
  coming : List Delivery
  /-- The octets delivered so far. -/
  consumed : Nat := 0

namespace Delivery

/-- The octets of a delivery and one more. -/
def weight : Delivery → Nat
  | octets data start => data.size - start + 1
  | fault _ => 1

end Delivery

namespace Source

/-- The source that delivers some octets in one piece. -/
def ofOctets (data : ByteArray) : Source := ⟨[.octets data], 0⟩

/-- The sum of the weights of deliveries. -/
def weightOf : List Delivery → Nat
  | [] => 0
  | d :: ds => d.weight + weightOf ds

/-- A bound on the reads that will be answered with data or a fault. -/
def weight (source : Source) : Nat := weightOf source.coming

/-! ## Reading once -/

/-- The answer to one read. -/
inductive Reading where
  | data (octets : ByteArray)
  | ended
  | failed (fault : Fault)

/-- Reads at most `most` octets, given what comes and what was consumed. -/
def readFrom (most consumed : Nat) : List Delivery → Reading × Source
  | [] => (.ended, ⟨[], consumed⟩)
  | .fault f :: rest => (.failed f, ⟨rest, consumed⟩)
  | .octets data start :: rest =>
    if data.size ≤ start then readFrom most consumed rest
    else if data.size - start ≤ most then
      (.data (data.extract start data.size), ⟨rest, consumed + (data.size - start)⟩)
    else
      (.data (data.extract start (start + most)),
        ⟨.octets data (start + most) :: rest, consumed + most⟩)

/-- Reads at most `most` octets. -/
def read (most : Nat) (source : Source) : Reading × Source :=
  readFrom most source.consumed source.coming

theorem weightOf_readFrom_lt {most consumed : Nat} (hm : 0 < most) (coming : List Delivery) :
    (readFrom most consumed coming).1 ≠ .ended →
    weightOf (readFrom most consumed coming).2.coming < weightOf coming := by
  induction coming with
  | nil => simp [readFrom]
  | cons d rest ih =>
    cases d with
    | fault f => simp [readFrom, weightOf, Delivery.weight]
    | octets data start =>
      simp only [readFrom]
      split
      · intro h
        have := ih h
        simp only [weightOf, Delivery.weight]
        omega
      · split
        · simp [weightOf, Delivery.weight]
        · simp [weightOf, Delivery.weight]
          omega

theorem weight_read_lt {most : Nat} (hm : 0 < most) (source : Source)
    (h : (source.read most).1 ≠ .ended) : (source.read most).2.weight < source.weight :=
  weightOf_readFrom_lt hm source.coming h

/-! ## Reading a number of octets -/

/-- What came of reading a number of octets. -/
inductive Filled where
  | full (octets : ByteArray)
  /-- The stream ended first. -/
  | ended
  | failed (fault : Fault)

/-- Reads `want` more octets, given those read already, what was consumed and what comes. -/
def fillFrom (want : Nat) (got : ByteArray) (consumed : Nat) : List Delivery → Filled × Source
  | [] => (if want = 0 then .full got else .ended, ⟨[], consumed⟩)
  | .fault f :: rest =>
    if want = 0 then (.full got, ⟨.fault f :: rest, consumed⟩)
    else if f.kind = .interrupted then fillFrom want got consumed rest
    else (.failed f, ⟨rest, consumed⟩)
  | .octets data start :: rest =>
    if want = 0 then (.full got, ⟨.octets data start :: rest, consumed⟩)
    else if data.size - start ≤ want then
      fillFrom (want - (data.size - start)) (got ++ data.extract start data.size)
        (consumed + (data.size - start)) rest
    else
      (.full (got ++ data.extract start (start + want)),
        ⟨.octets data (start + want) :: rest, consumed + want⟩)

/-- Reads `want` octets. -/
def fill (want : Nat) (source : Source) : Filled × Source :=
  fillFrom want .empty source.consumed source.coming

theorem weightOf_fillFrom_le (want : Nat) (got : ByteArray) (consumed : Nat)
    (coming : List Delivery) :
    weightOf (fillFrom want got consumed coming).2.coming ≤ weightOf coming := by
  induction coming generalizing want got consumed with
  | nil => simp [fillFrom, weightOf]
  | cons d rest ih =>
    cases d with
    | fault f =>
      simp only [fillFrom]
      split
      · simp
      · split
        · have := ih want got consumed
          simp only [weightOf]
          omega
        · simp [weightOf]
    | octets data start =>
      simp only [fillFrom]
      split
      · simp
      · split
        · have := ih (want - (data.size - start)) (got ++ data.extract start data.size)
            (consumed + (data.size - start))
          simp only [weightOf]
          omega
        · simp [weightOf, Delivery.weight]
          omega

theorem weight_fill_le (want : Nat) (source : Source) :
    (source.fill want).2.weight ≤ source.weight :=
  weightOf_fillFrom_le _ _ _ _

theorem weightOf_fillFrom_lt {want : Nat} (hw : 0 < want) (got : ByteArray) (consumed : Nat)
    (coming : List Delivery) (hc : coming ≠ []) :
    weightOf (fillFrom want got consumed coming).2.coming < weightOf coming := by
  cases coming with
  | nil => exact absurd rfl hc
  | cons d rest =>
    have hz : want ≠ 0 := by omega
    cases d with
    | fault f =>
      simp only [fillFrom, if_neg hz, weightOf, Delivery.weight]
      split
      · have := weightOf_fillFrom_le want got consumed rest
        omega
      · simp
    | octets data start =>
      simp only [fillFrom, if_neg hz, weightOf, Delivery.weight]
      split
      · have := weightOf_fillFrom_le (want - (data.size - start))
          (got ++ data.extract start data.size) (consumed + (data.size - start)) rest
        omega
      · simp [weightOf, Delivery.weight]
        omega

theorem weight_fill_lt {want : Nat} (hw : 0 < want) (source : Source)
    (h : (source.fill want).1 ≠ .ended) : (source.fill want).2.weight < source.weight := by
  refine weightOf_fillFrom_lt hw _ _ _ fun hc => h ?_
  have hz : want ≠ 0 := by omega
  simp [fill, hc, fillFrom, hz]

end Source

end PdfWorker
