import PdfWorker.Proofs.Stream.Frame
import PdfWorker.Proofs.Stream.Sink
set_option autoImplicit false

/-! # Frames in a row

Frames that are written one after the other are read back, and what is read as frames is what would
have been written. `readEach_writeEach` says both of whole streams, and what meets the reader behind
the last frame: a header that tells too much, of which nothing else is read, or the end. A header
that is cut short counts as the end, even where it could only have told too much
(`ended_of_shortHeader`).
-/

namespace PdfWorker

namespace Frame

/-- Writes frames one after the other, up to the first that cannot be written. -/
def writeEach : List ByteArray → Sink → Except LinkError Unit × Sink
  | [], sink => (.ok (), sink)
  | payload :: rest, sink =>
    match write payload sink with
    | (.ok (), sink) => writeEach rest sink
    | (.error e, sink) => (.error e, sink)

/-- What arrives in so many readings, one after the other. -/
def readEach (max : Nat) : Nat → Source → List (Except Fault Arrival) × Source
  | 0, source => ([], source)
  | n + 1, source =>
    let (arrival, rest) := read max source
    let (arrivals, rest) := readEach max n rest
    (arrival :: arrivals, rest)

/-- The arrival of frames, one after the other. -/
def arrivals (payloads : List ByteArray) : List (Except Fault Arrival) :=
  payloads.map fun payload => .ok (.frame payload)

/-- The octets begin a frame with at most `max` octets of payload, and there is more of it. -/
def Begins (max : Nat) (octets : List UInt8) : Prop :=
  ∃ (payload : ByteArray) (more : List UInt8), payload.size ≤ max ∧ payload.size < UInt32.size
    ∧ more ≠ [] ∧ octets ++ more = (encode payload).data.toList

/-! ## Headers -/

/-- Four octets are the header of the size that they tell. -/
theorem header_littleEndian {octets : List UInt8} (h : octets.length = Limits.header) :
    (header (littleEndian octets)).data.toList = octets := by
  match octets, h with
  | [a, b, c, d], _ =>
    have ha := a.toNat_lt
    have hb := b.toNat_lt
    have hc := c.toNat_lt
    have hd := d.toNat_lt
    simp only [header, littleEndian, List.cons.injEq, and_true, ← UInt8.toNat_inj,
      UInt8.toNat_ofNat']
    omega

/-- Four octets tell a size of 32 bits. -/
theorem littleEndian_lt {octets : List UInt8} (h : octets.length = Limits.header) :
    littleEndian octets < UInt32.size := by
  match octets, h with
  | [a, b, c, d], _ =>
    have ha := a.toNat_lt
    have hb := b.toNat_lt
    have hc := c.toNat_lt
    have hd := d.toNat_lt
    simp only [littleEndian, UInt32.size]
    omega

theorem length_encode (payload : ByteArray) :
    (encode payload).data.toList.length = Limits.header + payload.size := by
  have h : (encode payload).size = Limits.header + payload.size := by
    rw [encode, ByteArray.size_append, size_header]
  exact h

/-- The header of a frame tells the size of its payload. -/
theorem told_of_encode {payload : ByteArray} (h : payload.size < UInt32.size)
    {octets more : List UInt8} (he : octets ++ more = (encode payload).data.toList)
    (hl : Limits.header ≤ octets.length) :
    littleEndian (octets.take Limits.header) = payload.size := by
  have hheader : (header payload.size).data.toList.length = Limits.header := rfl
  have htake : octets.take Limits.header = (header payload.size).data.toList := by
    have hmore : (octets ++ more).take Limits.header = octets.take Limits.header :=
      List.take_append_of_le_length hl
    rw [← hmore, he, encode, ByteArray.data_append, Array.toList_append, List.take_left' hheader]
  rw [htake, littleEndian_header h]

/-- A frame that is cut short stands where its header is, and its payload is within the ceiling,
but not all there. -/
theorem begins_iff {max : Nat} {octets : List UInt8} (hl : Limits.header ≤ octets.length) :
    Begins max octets ↔ littleEndian (octets.take Limits.header) ≤ max
      ∧ octets.length < Limits.header + littleEndian (octets.take Limits.header) := by
  constructor
  · rintro ⟨payload, more, hmax, hlt, hmore, he⟩
    have hlength := congrArg List.length he
    rw [List.length_append, length_encode] at hlength
    have hpos := List.length_pos_iff.mpr hmore
    rw [told_of_encode hlt he hl]
    exact ⟨hmax, by omega⟩
  · rintro ⟨hmax, hshort⟩
    -- the rest of the payload may hold anything, such as zeros
    have hhead : (octets.take Limits.header).length = Limits.header := by
      rw [List.length_take]; omega
    have hlt := littleEndian_lt hhead
    let size := littleEndian (octets.take Limits.header)
    let more : List UInt8 := List.replicate (Limits.header + size - octets.length) 0
    let payload : ByteArray := (octets.drop Limits.header ++ more).toByteArray
    have hsize : payload.size = size := by
      simp only [payload, more, List.size_toByteArray, List.length_append, List.length_drop,
        List.length_replicate]
      omega
    refine ⟨payload, more, by omega, by omega, ?_, ?_⟩
    · apply List.ne_nil_of_length_pos
      simp only [more, List.length_replicate]
      omega
    · rw [encode, hsize, ByteArray.data_append, Array.toList_append, header_littleEndian hhead,
        List.data_toByteArray, ← List.append_assoc, List.take_append_drop]

end Frame

namespace Stream

/-! ## What stands at the front -/

/-- A frame that arrives is the one whose octets stand at the front. -/
theorem octets_of_next {max : Nat} {s : Stream} {payload : ByteArray}
    (h : s.next max = .ok (.frame payload)) :
    s.octets = (Frame.encode payload).data.toList
      ++ (s.drop (Limits.header + payload.size)).octets := by
  obtain ⟨hsize, hmax, hlength⟩ := next_eq_frame h
  have hhead : (s.octets.take Limits.header).length = Limits.header := by
    rw [List.length_take]; omega
  have hpayload : payload = ((s.octets.drop Limits.header).take s.told).toByteArray := by
    rw [next, if_neg (by omega), if_neg (by omega), if_neg (by omega)] at h
    simp only [Except.ok.injEq, Frame.Arrival.frame.injEq] at h
    exact h.symm
  have hframe : (Frame.encode payload).data.toList
      = s.octets.take Limits.header ++ (s.octets.drop Limits.header).take s.told := by
    rw [Frame.encode, ByteArray.data_append, Array.toList_append, hsize, told,
      Frame.header_littleEndian hhead, ← told]
    congr 1
    rw [hpayload, List.data_toByteArray]
  rw [hframe, octets_drop, hsize, ← List.drop_drop, List.append_assoc, List.take_append_drop,
    List.take_append_drop]

theorem next_eq_oversized {max : Nat} {s : Stream} {size : Nat} :
    s.next max = .ok (.oversized size)
      ↔ Limits.header ≤ s.octets.length ∧ s.told = size ∧ max < size := by
  have hbroken : s.broken ≠ .ok (.oversized size) := by
    unfold broken
    split <;> simp
  unfold next
  split_ifs with h₁ h₂ h₃
  · simp only [hbroken, false_iff]
    omega
  · simp only [Except.ok.injEq, Frame.Arrival.oversized.injEq]
    omega
  · simp only [hbroken, false_iff]
    omega
  · simp only [Except.ok.injEq, reduceCtorEq, false_iff]
    omega

/-- **The end arrives** where the stream stops within a header or within a frame that would have
been taken. -/
theorem next_eq_ended {max : Nat} {s : Stream} :
    s.next max = .ok .ended
      ↔ s.fault = none ∧ (s.octets.length < Limits.header ∨ Frame.Begins max s.octets) := by
  have hbroken : s.broken = .ok .ended ↔ s.fault = none := by
    unfold broken
    split <;> simp_all
  unfold next
  split_ifs with h₁ h₂ h₃
  · simp [hbroken, h₁]
  · have hnot : ¬ Frame.Begins max s.octets := by
      rw [Frame.begins_iff (by omega), ← told]
      omega
    simp [h₁, hnot]
  · have hbegins : Frame.Begins max s.octets := by
      rw [Frame.begins_iff (by omega), ← told]
      omega
    simp [hbroken, hbegins]
  · have hnot : ¬ Frame.Begins max s.octets := by
      rw [Frame.begins_iff (by omega), ← told]
      omega
    simp [h₁, hnot]

end Stream

namespace Frame

/-! ## Reading and writing one frame -/

/-- Of a frame that is too large, the header is read and nothing else. -/
theorem stream_of_oversized {max : Nat} {source : Source} {size : Nat}
    (h : (read max source).1 = .ok (.oversized size)) :
    (read max source).2.stream = source.stream.drop Limits.header
      ∧ (read max source).2.consumed = source.consumed + Limits.header := by
  rw [(read_eq max source).1] at h
  obtain ⟨hl, htold, hmax⟩ := Stream.next_eq_oversized.mp h
  obtain ⟨mid, hfill, hs, hc⟩ := Source.fill_of_le hl
  have hsize : littleEndian ((source.stream.octets.take Limits.header).toByteArray).data.toList
      = size := by
    rw [List.data_toByteArray]; exact htold
  have hread : read max source = (.ok (.oversized size), mid) := by
    rw [read, hfill]
    simp only [hsize]
    rw [if_pos hmax]
  rw [hread]
  exact ⟨hs, hc⟩

theorem writeEach_of_accepts {payloads : List ByteArray} {sink : Sink} (hk : sink.Accepts)
    (hs : ∀ payload ∈ payloads, payload.size ≤ Limits.frame) :
    ∃ full, writeEach payloads sink = (.ok (), full)
      ∧ full.accepted = sink.accepted ++ encodeAll payloads := by
  induction payloads generalizing sink with
  | nil => exact ⟨sink, rfl, ByteArray.append_empty.symm⟩
  | cons payload rest ih =>
      obtain ⟨hsize, hrest⟩ := List.forall_mem_cons.mp hs
      obtain ⟨next, hw, hnext⟩ := write_of_accepts hk hsize
      obtain ⟨full, hfull, hacc⟩ := ih hnext hrest
      refine ⟨full, ?_, ?_⟩
      · rw [writeEach, hw]
        exact hfull
      · rw [hacc, (write_ok hw).2.1, encodeAll, ByteArray.append_assoc]

/-! ## Reading and writing many -/

theorem readEach_succ (max n : Nat) (source : Source) :
    readEach max (n + 1) source
      = ((read max source).1 :: (readEach max n (read max source).2).1,
        (readEach max n (read max source).2).2) := rfl

/-- Frames that stand at the front are read one after the other. -/
theorem readEach_of_encodeAll {max : Nat} (hmax : max < UInt32.size) {payloads : List ByteArray}
    (hs : ∀ payload ∈ payloads, payload.size ≤ max) {source : Source} {trailing : List UInt8}
    (h : source.stream.octets = (encodeAll payloads).data.toList ++ trailing) :
    ∃ rest, readEach max payloads.length source = (arrivals payloads, rest)
      ∧ rest.stream = ⟨trailing, source.stream.fault⟩
      ∧ rest.consumed = source.consumed + (encodeAll payloads).size := by
  induction payloads generalizing source with
  | nil => exact ⟨source, rfl, by rw [← show source.stream.octets = trailing from h], rfl⟩
  | cons payload payloads ih =>
      obtain ⟨hsize, hrest⟩ := List.forall_mem_cons.mp hs
      rw [encodeAll, ByteArray.data_append, Array.toList_append, List.append_assoc] at h
      obtain ⟨hnext, hdrop⟩ := Stream.next_of_encode hsize (by omega) h
      obtain ⟨hread, hbehind⟩ := read_eq max source
      obtain ⟨hstream, hconsumed⟩ := hbehind payload hnext
      -- the first frame is read, and the others stand at the front behind it
      obtain ⟨rest, heach, hlast, hcount⟩ := ih hrest (by rw [hstream]; exact hdrop)
      refine ⟨rest, ?_, ?_, ?_⟩
      · rw [List.length_cons, readEach_succ, heach, hread, hnext]
        rfl
      · rw [hlast, hstream, Stream.fault_drop]
      · rw [hcount, hconsumed, encodeAll, ByteArray.size_append, encode, ByteArray.size_append,
          size_header]
        omega

/-- **What is read up to where no frame arrives**: the payloads, and the source behind the last of
them. -/
structure ReadsUpTo (max : Nat) (source : Source) (payloads : List ByteArray) (behind : Source) :
    Prop where
  reads : readEach max payloads.length source = (arrivals payloads, behind)
  stops : ∀ payload, (read max behind).1 ≠ .ok (.frame payload)
  /-- The frames of the payloads are the octets that were read. -/
  octets : source.stream.octets
    = (encodeAll payloads).data.toList ++ behind.stream.octets
  consumed : behind.consumed = source.consumed + (encodeAll payloads).size
  sizes : ∀ payload ∈ payloads, payload.size ≤ max

/-- Every source is read up to where no frame arrives. -/
theorem exists_readsUpTo (max : Nat) (source : Source) :
    ∃ payloads behind, ReadsUpTo max source payloads behind := by
  generalize hw : source.weight = w
  -- the induction is on the reads that the source can still answer
  induction w using Nat.strongRecOn generalizing source with
  | ind w ih =>
      by_cases h : ∃ payload, (read max source).1 = .ok (.frame payload)
      · obtain ⟨payload, hp⟩ := h
        have hnext : source.stream.next max = .ok (.frame payload) :=
          (read_eq max source).1.symm.trans hp
        obtain ⟨hstream, hconsumed⟩ := (read_eq max source).2 payload hnext
        have hlt : (read max source).2.weight < w := by
          rw [← hw]
          exact weight_read_lt (Prod.ext hp rfl)
        obtain ⟨payloads, behind, hrest⟩ := ih _ hlt (read max source).2 rfl
        refine ⟨payload :: payloads, behind, ?_, hrest.stops, ?_, ?_, ?_⟩
        · rw [List.length_cons, readEach_succ, hrest.reads, hp]
          rfl
        · have hoctets := hrest.octets
          rw [hstream] at hoctets
          rw [Stream.octets_of_next hnext, hoctets, encodeAll, ByteArray.data_append,
            Array.toList_append, List.append_assoc]
        · rw [hrest.consumed, hconsumed, encodeAll, ByteArray.size_append, encode,
            ByteArray.size_append, size_header]
          omega
        · obtain ⟨hsize, hmax, -⟩ := Stream.next_eq_frame hnext
          exact List.forall_mem_cons.mpr ⟨by omega, hrest.sizes⟩
      · refine ⟨[], source, rfl, not_exists.mp h, rfl, rfl, by simp⟩

/-- **Frames come back as they were written**, in order, and what stands behind them stays unread.
The other way round, every source holds the frames that are read from it, up to where no frame
arrives; what arrives there is a size above the ceiling exactly if a header tells it, of which
nothing but the header is read, and the end exactly if the stream stops within a header or within a
frame that would have been taken. -/
theorem readEach_writeEach :
    (∀ (max : Nat) (payloads : List ByteArray) (sink : Sink), max ≤ Limits.frame →
      (∀ payload ∈ payloads, payload.size ≤ max) → sink.Accepts →
      ∃ full, writeEach payloads sink = (.ok (), full)
        ∧ full.accepted = sink.accepted ++ encodeAll payloads
        ∧ ∀ (source : Source) (trailing : List UInt8),
          source.stream.octets = (encodeAll payloads).data.toList ++ trailing →
          ∃ rest, readEach max payloads.length source = (arrivals payloads, rest)
            ∧ rest.stream = ⟨trailing, source.stream.fault⟩
            ∧ rest.consumed = source.consumed + (encodeAll payloads).size)
    ∧ ∀ (max : Nat) (source : Source), ∃ payloads behind,
      ReadsUpTo max source payloads behind
        ∧ (max ≤ Limits.frame → ∀ sink : Sink, sink.Accepts →
          ∃ full, writeEach payloads sink = (.ok (), full)
            ∧ full.accepted = sink.accepted ++ encodeAll payloads)
        ∧ (∀ size, (read max behind).1 = .ok (.oversized size)
          ↔ Limits.header ≤ behind.stream.octets.length ∧ behind.stream.told = size ∧ max < size)
        ∧ (∀ size, (read max behind).1 = .ok (.oversized size) →
          (read max behind).2.stream = behind.stream.drop Limits.header
            ∧ (read max behind).2.consumed = behind.consumed + Limits.header)
        ∧ ((read max behind).1 = .ok .ended
          ↔ behind.stream.fault = none
            ∧ (behind.stream.octets.length < Limits.header ∨ Begins max behind.stream.octets)) := by
  have hframe : Limits.frame < UInt32.size := by decide
  constructor
  · intro max payloads sink hmax hs hk
    obtain ⟨full, hfull, hacc⟩ :=
      writeEach_of_accepts hk fun payload hp => Nat.le_trans (hs payload hp) hmax
    exact ⟨full, hfull, hacc, fun source trailing h => readEach_of_encodeAll (by omega) hs h⟩
  · intro max source
    obtain ⟨payloads, behind, h⟩ := exists_readsUpTo max source
    refine ⟨payloads, behind, h, ?_, ?_, fun size => stream_of_oversized, ?_⟩
    · intro hmax sink hk
      exact writeEach_of_accepts hk fun payload hp => Nat.le_trans (h.sizes payload hp) hmax
    · intro size
      rw [(read_eq max behind).1]
      exact Stream.next_eq_oversized
    · rw [(read_eq max behind).1]
      exact Stream.next_eq_ended

/-- Two payloads: none at all, and one that looks like a header. -/
def smallPayloads : List ByteArray := [⟨#[]⟩, ⟨#[255, 0, 0, 0]⟩]

/-- A source with their frames, cut within the first header, and one octet behind them. -/
def smallSource : Source :=
  ⟨[.octets ⟨#[0, 0]⟩, .fault ⟨.interrupted, "again"⟩,
    .octets ⟨#[0, 0, 4, 0, 0, 0, 255, 0, 0, 0, 255]⟩], 0⟩

theorem readEach_writeEach_small :
    10 ≤ Limits.frame ∧ (∀ payload ∈ smallPayloads, payload.size ≤ 10) ∧ Sink.Accepts {}
      ∧ smallSource.stream.octets = (encodeAll smallPayloads).data.toList ++ [255]
      ∧ (∃ full, writeEach smallPayloads {} = (.ok (), full)
        ∧ full.accepted = .empty ++ encodeAll smallPayloads)
      ∧ ∃ rest, readEach 10 2 smallSource = (arrivals smallPayloads, rest)
        ∧ rest.stream = ⟨[255], none⟩ ∧ rest.consumed = 12 := by
  have hmax : 10 ≤ Limits.frame := by decide
  have hs : ∀ payload ∈ smallPayloads, payload.size ≤ 10 := by decide
  have hk : Sink.Accepts {} := Sink.accepts_default .empty
  have hoctets : smallSource.stream.octets
      = (encodeAll smallPayloads).data.toList ++ [255] := by decide
  obtain ⟨full, hfull, hacc, hread⟩ := readEach_writeEach.1 10 smallPayloads {} hmax hs hk
  exact ⟨hmax, hs, hk, hoctets, ⟨full, hfull, hacc⟩, hread smallSource [255] hoctets⟩

/-- **A shortened header that begins no frame within the ceiling** is the end of the stream, too. -/
theorem ended_of_shortHeader :
    (read 10 (.ofOctets ⟨#[255]⟩)).1 = .ok .ended
      ∧ (Source.ofOctets ⟨#[255]⟩).stream.fault = none
      ∧ ¬ Begins 10 (Source.ofOctets ⟨#[255]⟩).stream.octets := by
  refine ⟨(read_eq _ _).1.trans (Stream.next_eq_ended.mpr ⟨rfl, .inl (by decide)⟩), rfl, ?_⟩
  rintro ⟨payload, more, hmax, -, -, he⟩
  -- the first octet of the header would be the size of the payload
  rw [encode, ByteArray.data_append, Array.toList_append] at he
  have hfirst : (255 : UInt8) = UInt8.ofNat payload.size := (List.cons.inj he).1
  have hsize := congrArg UInt8.toNat hfirst
  rw [UInt8.toNat_ofNat'] at hsize
  simp only [UInt8.reduceToNat] at hsize
  omega

end Frame

end PdfWorker
