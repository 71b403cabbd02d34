import PdfWorker.Stream.Source
set_option autoImplicit false

/-! # What a source delivers

A source cuts its octets into pieces and breaks off reads. A reader that fills a number of octets
sees nothing of that: it sees the octets before the first fault that is no interruption, and that
fault (`Source.stream`). `fill_of_le` and `fill_of_lt` say what filling comes to, for a stream that
holds enough octets and for one that does not.
-/

namespace PdfWorker

/-- Octets, and the fault that ends them, if it is not simply the end. -/
structure Stream where
  octets : List UInt8
  fault : Option Fault := none

namespace Stream

/-- What is left after `n` octets. -/
def drop (n : Nat) (s : Stream) : Stream := { s with octets := s.octets.drop n }

/-- What a reader meets behind the last octet. -/
def stop (s : Stream) : Source.Filled :=
  match s.fault with
  | none => .ended
  | some f => .failed f

@[simp] theorem octets_drop (n : Nat) (s : Stream) : (s.drop n).octets = s.octets.drop n := rfl

@[simp] theorem fault_drop (n : Nat) (s : Stream) : (s.drop n).fault = s.fault := rfl

end Stream

namespace Source

/-- The octets of a delivery that are still to come. -/
def pending (data : ByteArray) (start : Nat) : List UInt8 := data.data.toList.drop start

/-- The stream that deliveries make up. -/
def streamOf : List Delivery → Stream
  | [] => ⟨[], none⟩
  | .fault f :: rest => if f.kind = .interrupted then streamOf rest else ⟨[], some f⟩
  | .octets data start :: rest =>
    { streamOf rest with octets := pending data start ++ (streamOf rest).octets }

/-- **What a source delivers**, however it is cut and interrupted. -/
def stream (source : Source) : Stream := streamOf source.coming

/-! ## Pieces -/

/-- The stream of octets that come in one piece. -/
theorem octets_stream_ofOctets (data : ByteArray) :
    (ofOctets data).stream.octets = data.data.toList := by
  simp only [ofOctets, stream, streamOf, pending, List.drop_zero, List.append_nil]

@[simp] theorem length_pending (data : ByteArray) (start : Nat) :
    (pending data start).length = data.size - start := by
  rw [pending, List.length_drop]
  rfl

theorem extract_eq_toByteArray (data : ByteArray) (start n : Nat) :
    data.extract start (start + n) = ((pending data start).take n).toByteArray := by
  apply ByteArray.ext
  rw [ByteArray.data_extract, List.data_toByteArray, ← Array.toList_inj, Array.toList_extract,
    List.extract_eq_take_drop]
  simp [pending]

theorem extract_size_eq_toByteArray (data : ByteArray) (start : Nat) :
    data.extract start data.size = (pending data start).toByteArray := by
  apply ByteArray.ext
  rw [ByteArray.data_extract, List.data_toByteArray, ← Array.toList_inj, Array.toList_extract,
    List.extract_eq_take_drop]
  simp only [pending]
  refine List.take_of_length_le ?_
  rw [List.length_drop]
  exact Nat.le_refl _

theorem pending_add (data : ByteArray) (start n : Nat) :
    pending data (start + n) = (pending data start).drop n := by
  rw [pending, pending, List.drop_drop]

/-! ## Filling -/

/-- Where the stream holds enough octets, filling takes exactly as many as are wanted. -/
theorem fillFrom_of_le {want : Nat} (got : ByteArray) (consumed : Nat) {coming : List Delivery}
    (h : want ≤ (streamOf coming).octets.length) :
    ∃ rest, fillFrom want got consumed coming
        = (.full (got ++ ((streamOf coming).octets.take want).toByteArray),
            ⟨rest, consumed + want⟩)
      ∧ streamOf rest = (streamOf coming).drop want := by
  induction coming generalizing want got consumed with
  | nil =>
      have hz : want = 0 := by simpa [streamOf] using h
      subst hz
      exact ⟨[], by simp [fillFrom], rfl⟩
  | cons d rest ih =>
      by_cases hz : want = 0
      · -- nothing is wanted, so the deliveries stay as they are
        subst hz
        refine ⟨d :: rest, ?_, rfl⟩
        cases d <;> simp [fillFrom]
      · cases d with
        | fault f =>
            -- an interruption is passed over, and any other fault ends the stream too early
            by_cases hf : f.kind = .interrupted
            · simp only [streamOf, if_pos hf] at h ⊢
              simp only [fillFrom, if_neg hz, if_pos hf]
              exact ih got consumed h
            · simp only [streamOf, if_neg hf, List.length_nil] at h
              omega
        | octets data start =>
            simp only [fillFrom, if_neg hz]
            simp only [streamOf, List.length_append, length_pending] at h
            by_cases hs : data.size - start ≤ want
            · -- the whole piece is taken, and the rest of the octets from what comes after it
              have hlen : (pending data start).length ≤ want := by simpa using hs
              obtain ⟨left, he, hl⟩ := @ih (want - (data.size - start))
                (got ++ data.extract start data.size) (consumed + (data.size - start)) (by omega)
              refine ⟨left, ?_, ?_⟩
              · rw [if_pos hs, he]
                have hc : consumed + (data.size - start) + (want - (data.size - start))
                    = consumed + want := by omega
                rw [hc, extract_size_eq_toByteArray, ByteArray.append_assoc,
                  ← List.toByteArray_append]
                simp only [streamOf, List.take_append, length_pending]
                rw [List.take_of_length_le hlen]
              · rw [hl]
                simp only [Stream.drop, streamOf, List.drop_append, length_pending]
                rw [List.drop_of_length_le hlen, List.nil_append]
            -- the piece holds more than is wanted, and the rest of it is delivered next
            · have hlen : want ≤ (pending data start).length := by
                rw [length_pending]; omega
              refine ⟨.octets data (start + want) :: rest, ?_, ?_⟩
              · rw [if_neg hs, extract_eq_toByteArray]
                simp only [streamOf]
                rw [List.take_append_of_le_length hlen]
              · simp only [streamOf, Stream.drop, pending_add]
                rw [List.drop_append_of_le_length hlen]

/-- Where the stream holds too few octets, filling takes them all and meets its end. -/
theorem fillFrom_of_lt {want : Nat} (got : ByteArray) (consumed : Nat) {coming : List Delivery}
    (h : (streamOf coming).octets.length < want) :
    ∃ rest, fillFrom want got consumed coming
        = ((streamOf coming).stop, ⟨rest, consumed + (streamOf coming).octets.length⟩) := by
  have hz : want ≠ 0 := by omega
  induction coming generalizing want got consumed with
  | nil => exact ⟨[], by simp [fillFrom, hz, streamOf, Stream.stop]⟩
  | cons d rest ih =>
      cases d with
      | fault f =>
          simp only [fillFrom, if_neg hz]
          by_cases hf : f.kind = .interrupted
          · simp only [streamOf, if_pos hf] at h ⊢
            exact ih got consumed h hz
          · simp only [streamOf, if_neg hf]
            exact ⟨rest, rfl⟩
      | octets data start =>
          simp only [streamOf, List.length_append, length_pending] at h ⊢
          -- the piece is taken as a whole, since even the stream is too short
          have hs : data.size - start ≤ want := by omega
          obtain ⟨left, he⟩ := @ih (want - (data.size - start))
            (got ++ data.extract start data.size) (consumed + (data.size - start)) (by omega)
            (by omega)
          refine ⟨left, ?_⟩
          simp only [fillFrom, if_neg hz, if_pos hs, he, Nat.add_assoc]
          rfl

theorem fill_of_le {want : Nat} {source : Source} (h : want ≤ source.stream.octets.length) :
    ∃ rest, source.fill want = (.full (source.stream.octets.take want).toByteArray, rest)
      ∧ rest.stream = source.stream.drop want ∧ rest.consumed = source.consumed + want := by
  obtain ⟨rest, he, hl⟩ := fillFrom_of_le .empty source.consumed h
  refine ⟨⟨rest, source.consumed + want⟩, ?_, hl, rfl⟩
  rw [fill, he, ByteArray.empty_append]
  rfl

theorem fill_of_lt {want : Nat} {source : Source} (h : source.stream.octets.length < want) :
    ∃ rest, source.fill want = (source.stream.stop, rest)
      ∧ rest.consumed = source.consumed + source.stream.octets.length := by
  obtain ⟨rest, he⟩ := fillFrom_of_lt .empty source.consumed h
  exact ⟨⟨rest, source.consumed + source.stream.octets.length⟩, he, rfl⟩

end Source

end PdfWorker
