import PdfWorker.Capture.Drain
import PdfWorker.Proofs.Stream.Source
set_option autoImplicit false

/-! # What draining takes

`Source.reads` says what one read comes to in terms of the stream: it takes octets from the front,
or it meets the end. `Capture.drains` says the same of draining: it takes the front of the stream, up
to its limit, and consumes what it takes and less than a chunk beyond it. `drain_takes_front` puts
that together: neither the size of the chunks nor the way in which a source is cut and interrupted
shows in what is taken.
-/

namespace PdfWorker

/-- The octets that a delivery still holds. -/
def Delivery.held : Delivery → List UInt8
  | octets data start => Source.pending data start
  | fault _ => []

namespace Source

/-- All octets that are still to come, those behind faults included. -/
def ahead (source : Source) : List UInt8 := source.coming.flatMap Delivery.held

/-! ## Reading once -/

/-- Between two sources these octets were consumed, and they stood at the front. -/
structure Consumes (octets : List UInt8) (source rest : Source) : Prop where
  ahead : source.ahead = octets ++ rest.ahead
  consumed : rest.consumed = source.consumed + octets.length

theorem Consumes.refl (source : Source) : Consumes [] source source := ⟨rfl, rfl⟩

theorem Consumes.trans {front back : List UInt8} {source mid rest : Source}
    (h : Consumes front source mid) (h' : Consumes back mid rest) :
    Consumes (front ++ back) source rest := by
  constructor
  · rw [h.ahead, h'.ahead, List.append_assoc]
  · rw [h'.consumed, h.consumed, List.length_append, Nat.add_assoc]

/-- **How a read goes**: it takes octets from the front of the stream, or it meets the end, or an
interruption, or the fault that ends the stream. -/
inductive Reads (most : Nat) (source : Source) : Prop where
  | data {n : Nat} {rest : Source} (pos : 0 < n) (le : n ≤ most)
      (fits : n ≤ source.stream.octets.length)
      (read : source.read most = (.data (source.stream.octets.take n).toByteArray, rest))
      (stream : rest.stream = source.stream.drop n)
      (consumes : Consumes (source.stream.octets.take n) source rest)
  | ended {rest : Source} (read : source.read most = (.ended, rest))
      (octets : source.stream.octets = []) (consumes : Consumes [] source rest)
  | interrupted {fault : Fault} {rest : Source} (read : source.read most = (.failed fault, rest))
      (kind : fault.kind = .interrupted) (stream : rest.stream = source.stream)
      (consumes : Consumes [] source rest)
  | failed {fault : Fault} {rest : Source} (read : source.read most = (.failed fault, rest))
      (kind : fault.kind ≠ .interrupted) (octets : source.stream.octets = [])
      (consumes : Consumes [] source rest)

theorem reads {most : Nat} (hm : 0 < most) (source : Source) : Reads most source := by
  obtain ⟨coming, consumed⟩ := source
  induction coming with
  | nil => exact .ended rfl rfl ⟨rfl, rfl⟩
  | cons delivery rest ih =>
      cases delivery with
      | fault fault =>
          have hconsumes : Consumes [] ⟨.fault fault :: rest, consumed⟩ ⟨rest, consumed⟩ :=
            ⟨rfl, rfl⟩
          by_cases hf : fault.kind = .interrupted
          · exact .interrupted rfl hf (by simp only [stream, streamOf, if_pos hf]) hconsumes
          · exact .failed rfl hf (by simp only [stream, streamOf, if_neg hf]) hconsumes
      | octets data start =>
          have hlength := length_pending data start
          by_cases hempty : data.size ≤ start
          · -- an empty piece is passed over
            have hnil : pending data start = [] := List.eq_nil_of_length_eq_zero (by omega)
            have hstream : stream ⟨.octets data start :: rest, consumed⟩
                = stream ⟨rest, consumed⟩ := by
              simp only [stream, streamOf, hnil, List.nil_append]
            have hread : read most ⟨.octets data start :: rest, consumed⟩
                = read most ⟨rest, consumed⟩ := by
              simp only [read, readFrom, if_pos hempty]
            have hpass : Consumes [] ⟨.octets data start :: rest, consumed⟩ ⟨rest, consumed⟩ := by
              refine ⟨?_, rfl⟩
              simp only [ahead, List.flatMap_cons, Delivery.held, hnil]
            cases ih with
            | data pos le fits hr hs hc =>
                exact .data pos le (hstream ▸ fits) (by rw [hread, hr, hstream])
                  (by rw [hs, hstream]) (by rw [hstream]; exact hpass.trans hc)
            | ended hr ho hc =>
                exact .ended (hread.trans hr) (by rw [hstream, ho]) (hpass.trans hc)
            | interrupted hr hk hs hc =>
                exact .interrupted (hread.trans hr) hk (hs.trans hstream.symm) (hpass.trans hc)
            | failed hr hk ho hc =>
                exact .failed (hread.trans hr) hk (by rw [hstream, ho]) (hpass.trans hc)
          · by_cases hwhole : data.size - start ≤ most
            · -- the piece is taken as a whole
              have htake : (stream ⟨.octets data start :: rest, consumed⟩).octets.take
                  (data.size - start) = pending data start := by
                simp only [stream, streamOf, List.take_left' hlength]
              refine @Reads.data _ _ (data.size - start) ⟨rest, consumed + (data.size - start)⟩
                (by omega) hwhole ?_ ?_ ?_ ?_
              · simp only [stream, streamOf, List.length_append, hlength]
                omega
              · rw [htake]
                simp only [read, readFrom, if_neg hempty, if_pos hwhole,
                  extract_size_eq_toByteArray]
              · simp only [stream, streamOf, Stream.drop, List.drop_left' hlength]
              · rw [htake]
                exact ⟨rfl, by rw [hlength]⟩
            · -- only a part of the piece is taken
              have hpart : most ≤ (pending data start).length := by omega
              have htake : (stream ⟨.octets data start :: rest, consumed⟩).octets.take most
                  = (pending data start).take most := by
                simp only [stream, streamOf, List.take_append_of_le_length hpart]
              refine @Reads.data _ _ most ⟨.octets data (start + most) :: rest, consumed + most⟩
                hm (Nat.le_refl _) ?_ ?_ ?_ ?_
              · simp only [stream, streamOf, List.length_append]
                omega
              · rw [htake]
                simp only [read, readFrom, if_neg hempty, if_neg hwhole, extract_eq_toByteArray]
              · simp only [stream, streamOf, Stream.drop, pending_add,
                  List.drop_append_of_le_length hpart]
              · rw [htake]
                constructor
                · simp only [ahead, List.flatMap_cons, Delivery.held, pending_add]
                  rw [← List.append_assoc, List.take_append_drop]
                · rw [List.length_take, Nat.min_eq_left hpart]

end Source

namespace Capture

theorem extract_toByteArray (octets : List UInt8) (n : Nat) :
    octets.toByteArray.extract 0 n = (octets.take n).toByteArray := by
  apply ByteArray.ext
  rw [ByteArray.data_extract, List.data_toByteArray, List.data_toByteArray, ← Array.toList_inj,
    Array.toList_extract, List.extract_eq_take_drop]
  simp

/-! ## Draining -/

/-- **How draining goes**, given what was taken already: the front of the stream is taken, as far as
there is room, and it is consumed with the octets in `surplus`, which the last read has brought beyond
the limit. -/
structure Drains (limit chunk : Nat) (taken : ByteArray) (source : Source)
    (result : ByteArray × Source) (surplus : List UInt8) : Prop where
  takes : result.1 = taken ++ (source.stream.octets.take (limit - taken.size)).toByteArray
  consumes : source.Consumes (source.stream.octets.take (limit - taken.size) ++ surplus) result.2
  few : surplus.length < max chunk 1
  short : source.stream.octets.length < limit - taken.size → surplus = []

/-- Where nothing is left to take, nothing is taken. -/
theorem Drains.of_nothing {limit chunk : Nat} {taken : ByteArray} {source rest : Source}
    (h : source.stream.octets.take (limit - taken.size) = []) (hconsumes : source.Consumes [] rest) :
    Drains limit chunk taken source (taken, rest) [] where
  takes := by
    rw [h]
    exact ByteArray.append_empty.symm
  consumes := by
    rw [h]
    exact hconsumes
  few := by
    rw [List.length_nil]
    omega
  short _ := rfl

/-- A read that brings less than there is room for is all taken, and draining goes on behind it. -/
theorem Drains.of_data {limit chunk n : Nat} {taken : ByteArray} {source rest : Source}
    {result : ByteArray × Source} {surplus : List UInt8} (hn : n < limit - taken.size)
    (hfits : n ≤ source.stream.octets.length) (hstream : rest.stream = source.stream.drop n)
    (hconsumes : source.Consumes (source.stream.octets.take n) rest)
    (h : Drains limit chunk (taken ++ (source.stream.octets.take n).toByteArray) rest result
      surplus) :
    Drains limit chunk taken source result surplus := by
  obtain ⟨htakes, hc, hfew, hshort⟩ := h
  have hlength : (source.stream.octets.take n).length = n := List.length_take_of_le hfits
  have hroom : limit - (taken ++ (source.stream.octets.take n).toByteArray).size
      = limit - taken.size - n := by
    rw [ByteArray.size_append, List.size_toByteArray, hlength]
    omega
  -- the front of the stream is what the read has brought, and then the front of the others
  have hfront : source.stream.octets.take (limit - taken.size)
      = source.stream.octets.take n ++ rest.stream.octets.take (limit - taken.size - n) := by
    rw [hstream, Stream.octets_drop, ← List.take_add]
    congr 1
    omega
  rw [hroom] at htakes hc hshort
  refine ⟨?_, ?_, hfew, ?_⟩
  · rw [htakes, hfront, List.toByteArray_append, ByteArray.append_assoc]
  · rw [hfront, List.append_assoc]
    exact hconsumes.trans hc
  · intro h
    apply hshort
    rw [hstream, Stream.octets_drop, List.length_drop]
    omega

/-- A read that brings as much as there is room for, or more, is the last one. -/
theorem Drains.of_last {limit chunk n : Nat} {taken : ByteArray} {source rest : Source}
    (hroom : taken.size < limit) (hn : limit - taken.size ≤ n) (hchunk : n ≤ max chunk 1)
    (hfits : n ≤ source.stream.octets.length)
    (hconsumes : source.Consumes (source.stream.octets.take n) rest) :
    Drains limit chunk taken source
      (taken ++ (source.stream.octets.take (limit - taken.size)).toByteArray, rest)
      ((source.stream.octets.take n).drop (limit - taken.size)) where
  takes := rfl
  consumes := by
    have hsplit : source.stream.octets.take (limit - taken.size)
        ++ (source.stream.octets.take n).drop (limit - taken.size) = source.stream.octets.take n := by
      have hfront : (source.stream.octets.take n).take (limit - taken.size)
          = source.stream.octets.take (limit - taken.size) := by
        rw [List.take_take, Nat.min_eq_left hn]
      rw [← hfront, List.take_append_drop]
    rw [hsplit]
    exact hconsumes
  few := by
    rw [List.length_drop, List.length_take]
    omega
  short := by
    intro h
    omega

/-- **Draining takes the front of the stream.** -/
theorem drains (limit chunk : Nat) (taken : ByteArray) (source : Source) :
    ∃ surplus, Drains limit chunk taken source (drainFrom limit chunk taken source) surplus := by
  have hm : 0 < max chunk 1 := by omega
  -- the induction is on the reads, and what is taken grows by what each of them brings
  fun_induction drainFrom limit chunk taken source with
  | case1 taken source hfull =>
      refine ⟨[], .of_nothing ?_ (.refl source)⟩
      rw [Nat.sub_eq_zero_of_le hfull, List.take_zero]
  | case2 taken source hroom octets rest hread ih =>
      cases Source.reads hm source with
      | ended hr | interrupted hr | failed hr => cases hread.symm.trans hr
      | @data n _ pos le fits hr hstream hconsumes =>
          cases hread.symm.trans hr
          rw [extract_toByteArray, List.take_take] at ih ⊢
          by_cases hn : n < limit - taken.size
          · rw [Nat.min_eq_right (Nat.le_of_lt hn)] at ih ⊢
            obtain ⟨surplus, hdrains⟩ := ih
            exact ⟨surplus, hdrains.of_data hn fits hstream hconsumes⟩
          · -- the limit is reached, so no further read is made
            have hle : limit - taken.size ≤ n := Nat.le_of_not_lt hn
            have hfull : limit ≤ (taken
                ++ (source.stream.octets.take (limit - taken.size)).toByteArray).size := by
              rw [ByteArray.size_append, List.size_toByteArray, List.length_take]
              omega
            rw [Nat.min_eq_left hle, drainFrom, if_pos hfull]
            exact ⟨_, .of_last (Nat.lt_of_not_le hroom) hle le fits hconsumes⟩
  | case3 taken source hroom rest hread =>
      cases Source.reads hm source with
      | data _ _ _ hr | interrupted hr | failed hr => cases hread.symm.trans hr
      | ended hr ho hconsumes =>
          cases hread.symm.trans hr
          exact ⟨[], .of_nothing (by rw [ho, List.take_nil]) hconsumes⟩
  | case4 taken source hroom fault rest hread hkind ih =>
      cases Source.reads hm source with
      | data _ _ _ hr | ended hr => cases hread.symm.trans hr
      | interrupted hr _ hstream hconsumes =>
          cases hread.symm.trans hr
          obtain ⟨surplus, htakes, hc, hfew, hshort⟩ := ih
          rw [hstream] at htakes hc hshort
          exact ⟨surplus, htakes, hconsumes.trans hc, hfew, hshort⟩
      | failed hr hk =>
          cases hread.symm.trans hr
          exact absurd hkind hk
  | case5 taken source hroom fault rest hread hkind =>
      cases Source.reads hm source with
      | data _ _ _ hr | ended hr => cases hread.symm.trans hr
      | interrupted hr hk =>
          cases hread.symm.trans hr
          exact absurd hk hkind
      | failed hr _ ho hconsumes =>
          cases hread.symm.trans hr
          exact ⟨[], .of_nothing (by rw [ho, List.take_nil]) hconsumes⟩

/-- **Draining takes the front of the stream**, up to the limit. -/
theorem drain_eq (limit chunk : Nat) (source : Source) :
    (drain limit chunk source).1 = (source.stream.octets.take limit).toByteArray := by
  obtain ⟨surplus, htakes, -⟩ := drains limit chunk .empty source
  rw [drain, htakes, ByteArray.empty_append]
  rfl

/-- **What draining takes, and what it consumes.** Let a source deliver some octets before it first
ends or fails, however they are cut into pieces and interrupted. Draining takes them, up to the
limit, whatever the size of its chunks. If it stays below the limit, what it takes is all that it
consumes; else less than a chunk is consumed beyond that. -/
theorem drain_takes_front (limit chunk : Nat) (source : Source) :
    (drain limit chunk source).1 = (source.stream.octets.take limit).toByteArray
      ∧ (drain limit chunk source).1.size = min limit source.stream.octets.length
      ∧ (∃ surplus, source.Consumes ((drain limit chunk source).1.data.toList ++ surplus)
            (drain limit chunk source).2
          ∧ ((drain limit chunk source).1.size < limit → surplus = [])
          ∧ (drain limit chunk source).1.size + surplus.length ≤ limit + max chunk 1 - 1)
      ∧ ∀ (other : Source) (chunk' : Nat), other.stream.octets = source.stream.octets →
        (drain limit chunk' other).1 = (drain limit chunk source).1 := by
  have htaken := drain_eq limit chunk source
  have hsize : (drain limit chunk source).1.size = min limit source.stream.octets.length := by
    rw [htaken, List.size_toByteArray, List.length_take]
  refine ⟨htaken, hsize, ?_, ?_⟩
  · obtain ⟨surplus, -, hconsumes, hfew, hshort⟩ := drains limit chunk .empty source
    refine ⟨surplus, ?_, ?_, ?_⟩
    · rw [htaken, List.data_toByteArray, List.toList_toArray]
      exact hconsumes
    · intro hlt
      apply hshort
      show source.stream.octets.length < limit
      omega
    · omega
  · intro other chunk' hother
    rw [htaken, drain_eq, hother]

/-- Two reads for six octets bring eight, and two of them are lost. -/
example : (drain 6 4 (.ofOctets "0123456789".toUTF8)).1 = "012345".toUTF8
    ∧ (drain 6 4 (.ofOctets "0123456789".toUTF8)).2.consumed = 8 := by
  decide +kernel

end Capture

end PdfWorker
