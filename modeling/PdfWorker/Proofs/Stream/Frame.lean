import Mathlib.Tactic.SplitIfs
import PdfWorker.Proofs.Stream.Source
import PdfWorker.Stream.Frame
set_option autoImplicit false

/-! # The frames of a stream

`Stream.next` says of octets alone what arrives where a frame is expected, and `Stream.cut` cuts
all of them: the payloads of the frames, and what arrives behind the last one. `Frame.read_eq`
ties them to `Frame.read`: reading a source is cutting its stream.
-/

namespace PdfWorker

namespace Stream

/-! ## Cutting octets -/

/-- What arrives where the stream stops within a frame or before one. -/
def broken (s : Stream) : Except Fault Frame.Arrival :=
  match s.fault with
  | none => .ok .ended
  | some f => .error f

theorem broken_ne_frame (s : Stream) (payload : ByteArray) :
    s.broken ≠ .ok (.frame payload) := by
  unfold broken
  split <;> simp

/-- The size that the header at the front tells. -/
def told (s : Stream) : Nat := Frame.littleEndian (s.octets.take Limits.header)

/-- **What arrives at the front**, where a frame with at most `max` octets of payload is
expected. -/
def next (max : Nat) (s : Stream) : Except Fault Frame.Arrival :=
  if s.octets.length < Limits.header then s.broken
  else if max < s.told then .ok (.oversized s.told)
  else if s.octets.length < Limits.header + s.told then s.broken
  else .ok (.frame ((s.octets.drop Limits.header).take s.told).toByteArray)

/-- How many octets are looked at for that: a header, and the payload unless it is too large, as
far as they are there. -/
def taken (max : Nat) (s : Stream) : Nat :=
  if s.octets.length < Limits.header ∨ max < s.told then min s.octets.length Limits.header
  else min s.octets.length (Limits.header + s.told)

/-- A frame that arrives is whole: its header and its payload are there. -/
theorem next_eq_frame {max : Nat} {s : Stream} {payload : ByteArray}
    (h : s.next max = .ok (.frame payload)) :
    payload.size = s.told ∧ s.told ≤ max ∧ Limits.header + payload.size ≤ s.octets.length := by
  simp only [next] at h
  split_ifs at h with h₁ h₂ h₃
  · exact absurd h (broken_ne_frame s payload)
  · simp at h
  · exact absurd h (broken_ne_frame s payload)
  · simp only [Except.ok.injEq, Frame.Arrival.frame.injEq] at h
    have hsize : payload.size = s.told := by
      rw [← h, List.size_toByteArray, List.length_take, List.length_drop]
      omega
    exact ⟨hsize, by omega, by omega⟩

/-- A frame that is at the front arrives. -/
theorem next_of_encode {max : Nat} {payload : ByteArray} (hmax : payload.size ≤ max)
    (h : payload.size < UInt32.size) {s : Stream} {rest : List UInt8}
    (hs : s.octets = (Frame.encode payload).data.toList ++ rest) :
    s.next max = .ok (.frame payload)
      ∧ (s.drop (Limits.header + payload.size)).octets = rest := by
  have hheader : (Frame.header payload.size).data.toList.length = Limits.header := rfl
  have hbody : payload.data.toList.length = payload.size := rfl
  have hoctets : s.octets
      = (Frame.header payload.size).data.toList ++ (payload.data.toList ++ rest) := by
    rw [hs, Frame.encode, ByteArray.data_append, Array.toList_append, List.append_assoc]
  have htold : s.told = payload.size := by
    rw [told, hoctets, List.take_left' hheader, Frame.littleEndian_header h]
  have hdrop : s.octets.drop Limits.header = payload.data.toList ++ rest := by
    rw [hoctets, List.drop_left' hheader]
  have hlength : s.octets.length = Limits.header + (payload.size + rest.length) := by
    rw [hoctets, List.length_append, List.length_append, hheader, hbody]
  have hpayload : payload.data.toList.toByteArray = payload :=
    ByteArray.ext (by rw [List.data_toByteArray, Array.toArray_toList])
  constructor
  · rw [next, htold, if_neg (by omega), if_neg (by omega), if_neg (by omega), hdrop,
      List.take_left' hbody, hpayload]
  · rw [octets_drop, ← List.drop_drop, hdrop, List.drop_left' hbody]

/-- The payloads of the frames at the front, and what arrives behind the last of them. -/
def cut (max : Nat) (s : Stream) : List ByteArray × Except Fault Frame.Arrival :=
  match _h : s.next max with
  | .ok (.frame payload) =>
    let (payloads, last) := cut max (s.drop (Limits.header + payload.size))
    (payload :: payloads, last)
  | last => ([], last)
termination_by s.octets.length
decreasing_by
  have := (next_eq_frame _h).2.2
  have : 0 < Limits.header := by decide
  simp only [octets_drop, List.length_drop]
  omega

theorem cut_of_frame {max : Nat} {s : Stream} {payload : ByteArray}
    (h : s.next max = .ok (.frame payload)) :
    s.cut max = (payload :: ((s.drop (Limits.header + payload.size)).cut max).1,
      ((s.drop (Limits.header + payload.size)).cut max).2) := by
  rw [cut]
  split
  · rename_i p hp
    rw [h, Except.ok.injEq, Frame.Arrival.frame.injEq] at hp
    rw [hp]
  · rename_i hne
    exact absurd h (hne payload)

theorem cut_of_not_frame {max : Nat} {s : Stream}
    (h : ∀ payload, s.next max ≠ .ok (.frame payload)) : s.cut max = ([], s.next max) := by
  rw [cut]
  split
  · rename_i p hp
    exact absurd hp (h p)
  · rfl

end Stream

namespace Frame

/-! ## Reading a source -/

/-- **Reading is cutting.** What is read from a source depends on its stream alone, and a frame
that is read leaves the stream behind it. -/
theorem read_eq (max : Nat) (source : Source) :
    (read max source).1 = source.stream.next max
      ∧ ∀ payload, source.stream.next max = .ok (.frame payload) →
        (read max source).2.stream = source.stream.drop (Limits.header + payload.size)
          ∧ (read max source).2.consumed
              = source.consumed + (Limits.header + payload.size) := by
  have htold : littleEndian ((source.stream.octets.take Limits.header).toByteArray).data.toList
      = source.stream.told := by
    rw [List.data_toByteArray]; rfl
  by_cases h₁ : source.stream.octets.length < Limits.header
  · -- no whole header
    obtain ⟨rest, he, -⟩ := Source.fill_of_lt h₁
    have hn : source.stream.next max = source.stream.broken := by rw [Stream.next, if_pos h₁]
    rw [read, he, hn, Stream.broken, Stream.stop]
    cases source.stream.fault <;> simp
  · obtain ⟨mid, he, hs, hc⟩ := Source.fill_of_le (Nat.le_of_not_lt h₁)
    rw [read, he]
    simp only [htold]
    by_cases h₂ : max < source.stream.told
    · rw [if_pos h₂, Stream.next, if_neg h₁, if_pos h₂]
      simp
    · rw [if_neg h₂]
      by_cases h₃ : source.stream.octets.length < Limits.header + source.stream.told
      · -- a header, and no whole payload
        have hlt : mid.stream.octets.length < source.stream.told := by
          rw [hs, Stream.octets_drop, List.length_drop]; omega
        obtain ⟨rest, hg, -⟩ := Source.fill_of_lt hlt
        have hn : source.stream.next max = source.stream.broken := by
          rw [Stream.next, if_neg h₁, if_neg h₂, if_pos h₃]
        rw [hg, hn, Stream.broken, Stream.stop, hs, Stream.fault_drop]
        cases source.stream.fault <;> simp
      · have hle : source.stream.told ≤ mid.stream.octets.length := by
          rw [hs, Stream.octets_drop, List.length_drop]; omega
        obtain ⟨rest, hg, hr, hd⟩ := Source.fill_of_le hle
        have hn : source.stream.next max = .ok (.frame
            ((source.stream.octets.drop Limits.header).take source.stream.told).toByteArray) := by
          rw [Stream.next, if_neg h₁, if_neg h₂, if_neg h₃]
        rw [hg, hn]
        refine ⟨by simp [hs], ?_⟩
        intro payload hp
        have hsize := (Stream.next_eq_frame (hn.trans hp)).1
        rw [hsize]
        constructor
        · simp only [hr, hs, Stream.drop, List.drop_drop]
        · simp only [hd, hc, Nat.add_assoc]

/-- Reading takes the octets that it looks at, whatever arrives. -/
theorem consumed_read (max : Nat) (source : Source) :
    (read max source).2.consumed = source.consumed + source.stream.taken max := by
  have htold : littleEndian ((source.stream.octets.take Limits.header).toByteArray).data.toList
      = source.stream.told := by
    rw [List.data_toByteArray]; rfl
  by_cases h₁ : source.stream.octets.length < Limits.header
  · -- the octets of an unfinished header
    obtain ⟨rest, he, hc⟩ := Source.fill_of_lt h₁
    have htaken : source.stream.taken max = source.stream.octets.length := by
      rw [Stream.taken, if_pos (.inl h₁)]
      omega
    rw [read, he, htaken, ← hc, Stream.stop]
    cases source.stream.fault <;> rfl
  · obtain ⟨mid, he, hs, hc⟩ := Source.fill_of_le (Nat.le_of_not_lt h₁)
    rw [read, he]
    simp only [htold]
    by_cases h₂ : max < source.stream.told
    · have htaken : source.stream.taken max = Limits.header := by
        rw [Stream.taken, if_pos (.inr h₂)]
        omega
      rw [if_pos h₂, htaken, ← hc]
    · rw [if_neg h₂]
      have htaken : source.stream.taken max
          = min source.stream.octets.length (Limits.header + source.stream.told) := by
        rw [Stream.taken, if_neg]
        rintro (h | h)
        · exact h₁ h
        · exact h₂ h
      have hlength : mid.stream.octets.length
          = source.stream.octets.length - Limits.header := by
        rw [hs, Stream.octets_drop, List.length_drop]
      by_cases h₃ : source.stream.octets.length < Limits.header + source.stream.told
      · -- the header and the octets of an unfinished payload
        obtain ⟨rest, hg, hd⟩ := Source.fill_of_lt (by omega : mid.stream.octets.length
          < source.stream.told)
        have hsum : rest.consumed = source.consumed + source.stream.taken max := by omega
        rw [hg, ← hsum, Stream.stop]
        cases mid.stream.fault <;> rfl
      · obtain ⟨rest, hg, -, hd⟩ := Source.fill_of_le (by omega : source.stream.told
          ≤ mid.stream.octets.length)
        rw [hg]
        show rest.consumed = _
        omega

end Frame

end PdfWorker
