import Mathlib.Logic.Relation
import PdfWorker.Stream.Frame
set_option autoImplicit false

/-! # What a sink takes

A sink is written to and flushed, one call after the other. `Sink.Works` is a call that does not
fail, `Sink.Fails` one that does. Writing a frame makes calls until one fails and none after that
(`Frame.write_ok`, `Frame.write_error`), so what the sink took then is the beginning of the frame.
Behind a frame that is written, all that the sink has ever taken is flushed
(`Frame.flushed_of_write`). A sink that takes everything, in pieces of any size, is `Sink.Accepts`.
-/

namespace PdfWorker

open Relation (ReflTransGen)

namespace Sink

/-! ## Calls -/

/-- The sink `next` is `sink` after one write or flush that did not fail. -/
inductive Works (sink next : Sink) : Prop where
  | took {data : ByteArray} {start n : Nat} (h : sink.write data start = (.took n, next))
  | interrupted {data : ByteArray} {start : Nat}
      (h : sink.write data start = (.interrupted, next))
  | flushed (h : sink.flush = (.ok (), next))

/-- The sink `next` is `sink` after one write or flush that failed. -/
inductive Fails (sink next : Sink) : Prop where
  | write {data : ByteArray} {start : Nat} {fault : Fault}
      (h : sink.write data start = (.failed fault, next))
  | flush {fault : Fault} (h : sink.flush = (.error fault, next))

/-- **The last call failed**, and none before it. -/
def Halts (sink next : Sink) : Prop :=
  ∃ mid, ReflTransGen Works sink mid ∧ Fails mid next

theorem Halts.trans {sink mid next : Sink} (h : ReflTransGen Works sink mid)
    (hn : Halts mid next) : Halts sink next := by
  obtain ⟨last, hw, hf⟩ := hn
  exact ⟨last, h.trans hw, hf⟩

theorem accepted_of_took {sink next : Sink} {data : ByteArray} {start n : Nat}
    (h : sink.write data start = (.took n, next)) :
    next.accepted = sink.accepted ++ data.extract start (start + n) := by
  unfold write at h
  split at h
  · simp at h
  · split at h
    · simp at h
    · dsimp only at h
      split at h
      · simp at h
      · simp only [Prod.mk.injEq, Writing.took.injEq] at h
        obtain ⟨rfl, rfl⟩ := h
        rfl

theorem accepted_of_interrupted {sink next : Sink} {data : ByteArray} {start : Nat}
    (h : sink.write data start = (.interrupted, next)) : next.accepted = sink.accepted := by
  unfold write at h
  split at h
  · simp only [Prod.mk.injEq, true_and] at h
    rw [← h]
  · split at h
    · simp at h
    · dsimp only at h
      split at h <;> simp at h

theorem accepted_of_flush {sink next : Sink} {result : Except Fault Unit}
    (h : sink.flush = (result, next)) : next.accepted = sink.accepted := by
  unfold flush at h
  split at h
  · split at h <;> cases h <;> rfl
  · cases h
    rfl

/-- **Everything that was taken is flushed**: a flush has worked since the last octet was taken. -/
def Flushed (sink : Sink) : Prop := sink.flushed = sink.accepted.size

theorem flushed_of_flush {sink next : Sink} (h : sink.flush = (.ok (), next)) : next.Flushed := by
  unfold flush at h
  split at h
  · split at h
    · cases h
    · cases h
      rfl
  · cases h
    rfl

/-- A call that fails takes nothing. -/
theorem Fails.accepted {sink next : Sink} (h : Fails sink next) :
    next.accepted = sink.accepted := by
  cases h with
  | flush h => exact accepted_of_flush h
  | write h =>
      unfold Sink.write at h
      split at h
      · simp at h
      · split at h
        · simp only [Prod.mk.injEq] at h
          rw [← h.2]
        · dsimp only at h
          split at h
          · simp only [Prod.mk.injEq] at h
            rw [← h.2]
          · simp at h

theorem le_of_took {sink next : Sink} {data : ByteArray} {start n : Nat}
    (h : sink.write data start = (.took n, next)) : n ≤ data.size - start := by
  have hmost : sink.most (data.size - start) ≤ data.size - start := by
    unfold most
    split
    · exact Nat.min_le_right _ _
    · split
      · exact Nat.min_le_right _ _
      · exact Nat.le_refl _
  have hfit : sink.fitting (data.size - start) ≤ data.size - start := by
    unfold fitting
    split
    · exact Nat.le_trans (Nat.min_le_right _ _) hmost
    · exact hmost
  unfold write at h
  split at h
  · simp at h
  · split at h
    · simp at h
    · dsimp only at h
      split at h
      · simp at h
      · simp only [Prod.mk.injEq, Writing.took.injEq] at h
        omega

/-! ## Writing everything -/

/-- Writing that succeeds has put everything into the sink, by calls that all worked. -/
theorem writeFrom_ok {data : ByteArray} {start : Nat} {sink next : Sink}
    (h : writeFrom data start sink = (.ok (), next)) :
    next.accepted = sink.accepted ++ data.extract start data.size
      ∧ ReflTransGen Works sink next := by
  fun_induction writeFrom data start sink with
  | case1 start sink hs =>
      simp only [Prod.mk.injEq, true_and] at h
      subst h
      have he : data.extract start data.size = .empty := by
        rw [ByteArray.extract_eq_empty_iff]; omega
      rw [he, ByteArray.append_empty]
      exact ⟨rfl, .refl⟩
  | case2 start sink hs n mid hw ih =>
      obtain ⟨ha, hr⟩ := ih h
      refine ⟨?_, hr.head (.took hw)⟩
      have hn := le_of_took hw
      rw [ha, accepted_of_took hw, ByteArray.append_assoc,
        ← ByteArray.extract_eq_extract_append_extract (start + n) (by omega) (by omega)]
  | case3 start sink hs mid hw ih =>
      obtain ⟨ha, hr⟩ := ih h
      exact ⟨by rw [ha, accepted_of_interrupted hw], hr.head (.interrupted hw)⟩
  | case4 start sink hs fault mid hw => simp at h

/-- Writing that fails has stopped at the first call that failed, with a beginning of the data in
the sink. -/
theorem writeFrom_error {data : ByteArray} {start : Nat} {sink next : Sink} {fault : Fault}
    (h : writeFrom data start sink = (.error fault, next)) :
    (∃ stop, start ≤ stop ∧ stop ≤ data.size
        ∧ next.accepted = sink.accepted ++ data.extract start stop)
      ∧ Halts sink next := by
  fun_induction writeFrom data start sink with
  | case1 start sink hs => simp at h
  | case2 start sink hs n mid hw ih =>
      obtain ⟨⟨stop, h₁, h₂, ha⟩, hh⟩ := ih h
      refine ⟨⟨stop, by omega, h₂, ?_⟩, hh.trans (.single (.took hw))⟩
      have hn := le_of_took hw
      rw [ha, accepted_of_took hw, ByteArray.append_assoc,
        ← ByteArray.extract_eq_extract_append_extract (start + n) (by omega) h₁]
  | case3 start sink hs mid hw ih =>
      obtain ⟨⟨stop, h₁, h₂, ha⟩, hh⟩ := ih h
      exact ⟨⟨stop, h₁, h₂, by rw [ha, accepted_of_interrupted hw]⟩,
        hh.trans (.single (.interrupted hw))⟩
  | case4 start sink hs fault' mid hw =>
      simp only [Prod.mk.injEq] at h
      obtain ⟨-, rfl⟩ := h
      refine ⟨⟨start, Nat.le_refl _, by omega, ?_⟩, sink, .refl, .write hw⟩
      rw [(Fails.write hw).accepted, ByteArray.extract_same, ByteArray.append_empty]

/-- All of the data is in the sink once it is written. -/
theorem writeAll_ok {data : ByteArray} {sink next : Sink}
    (h : sink.writeAll data = (.ok (), next)) :
    next.accepted = sink.accepted ++ data ∧ ReflTransGen Works sink next := by
  obtain ⟨ha, hr⟩ := writeFrom_ok h
  rw [ByteArray.extract_zero_size] at ha
  exact ⟨ha, hr⟩

/-- Where writing the data fails, a beginning of it is in the sink. -/
theorem writeAll_error {data : ByteArray} {sink next : Sink} {fault : Fault}
    (h : sink.writeAll data = (.error fault, next)) :
    (∃ more, sink.accepted ++ data = next.accepted ++ more) ∧ Halts sink next := by
  obtain ⟨⟨stop, -, hle, ha⟩, hh⟩ := writeFrom_error h
  refine ⟨⟨data.extract stop data.size, ?_⟩, hh⟩
  calc sink.accepted ++ data
      = sink.accepted ++ (data.extract 0 stop ++ data.extract stop data.size) := by
        rw [← ByteArray.extract_eq_extract_append_extract stop (Nat.zero_le _) hle,
          ByteArray.extract_zero_size]
    _ = next.accepted ++ data.extract stop data.size := by rw [ha, ByteArray.append_assoc]

/-! ## Sinks that take everything -/

/-- **A sink that takes everything**: no call ever fails, though a write may be interrupted or
take only a part. -/
structure Accepts (sink : Sink) : Prop where
  room : sink.room = none
  flush : sink.failingFlush = none
  most : sink.mostAtOnce ≠ some 0
  replies : .upTo 0 ∉ sink.replies

theorem accepts_default (accepted : ByteArray) : Accepts { accepted } :=
  ⟨rfl, rfl, by simp, by simp⟩

/-- Where everything is taken, a write never fails, and it stays so. -/
theorem Accepts.write {sink : Sink} (h : Accepts sink) {data : ByteArray} {start : Nat}
    (hs : start < data.size) :
    Accepts (sink.write data start).2 ∧ ∀ fault, (sink.write data start).1 ≠ .failed fault := by
  obtain ⟨hroom, hflush, hmost, hreplies⟩ := h
  unfold Sink.write
  split
  · rename_i rest hr
    rw [hr] at hreplies
    exact ⟨⟨hroom, hflush, hmost, fun hm => hreplies (List.mem_cons_of_mem _ hm)⟩, by simp⟩
  -- something is taken, since neither the script nor the bound says nothing
  · have hdrop : Reply.upTo 0 ∉ sink.replies.drop 1 := fun hm => hreplies (List.mem_of_mem_drop hm)
    have hpos : sink.fitting (data.size - start) ≠ 0 := by
      simp only [fitting, hroom, Sink.most]
      split
      · rename_i n rest hr
        rw [hr] at hreplies
        have : n ≠ 0 := by
          rintro rfl
          exact hreplies (List.mem_cons_self ..)
        omega
      · split
        · rename_i n hn
          have : n ≠ 0 := by
            rintro rfl
            exact hmost hn
          omega
        · omega
    simp only [hroom, reduceCtorEq, if_false, if_neg hpos]
    exact ⟨⟨rfl, hflush, hmost, hdrop⟩, by simp⟩

theorem Accepts.writeFrom {sink : Sink} (h : Accepts sink) (data : ByteArray) (start : Nat) :
    ∃ next, Sink.writeFrom data start sink = (.ok (), next) ∧ Accepts next := by
  fun_induction Sink.writeFrom data start sink with
  | case1 start sink hs => exact ⟨sink, rfl, h⟩
  | case2 start sink hs n mid hw ih =>
      have := (h.write (Nat.lt_of_not_le hs)).1
      rw [hw] at this
      exact ih this
  | case3 start sink hs mid hw ih =>
      have := (h.write (Nat.lt_of_not_le hs)).1
      rw [hw] at this
      exact ih this
  | case4 start sink hs fault mid hw =>
      have := (h.write (Nat.lt_of_not_le hs)).2 fault
      rw [hw] at this
      exact absurd rfl this

theorem Accepts.flushed {sink : Sink} (h : Accepts sink) :
    sink.flush = (.ok (), sink.passOn) := by
  simp [Sink.flush, h.flush]

end Sink

namespace Frame

/-! ## Writing a frame -/

/-- **How writing a frame goes**: it is too large, or its header or its payload cannot be written, or
all of it is written and flushed. -/
theorem write_cases (payload : ByteArray) (sink : Sink) :
    (Limits.frame < payload.size
      ∧ write payload sink = (.error (.frameTooLarge payload.size Limits.frame), sink)) ∨
    (payload.size ≤ Limits.frame ∧
      ((∃ fault next, sink.writeAll (header payload.size) = (.error fault, next)
          ∧ write payload sink = (.error (.io fault), next)) ∨
        ∃ mid, sink.writeAll (header payload.size) = (.ok (), mid) ∧
          ((∃ fault next, mid.writeAll payload = (.error fault, next)
              ∧ write payload sink = (.error (.io fault), next)) ∨
            ∃ full, mid.writeAll payload = (.ok (), full)
              ∧ write payload sink = linked full.flush))) := by
  by_cases hsize : Limits.frame < payload.size
  · exact .inl ⟨hsize, by rw [write, if_pos hsize]⟩
  · refine .inr ⟨Nat.le_of_not_lt hsize, ?_⟩
    rw [write, if_neg hsize]
    rcases sink.writeAll (header payload.size) with ⟨fault | u, mid⟩
    · exact .inl ⟨fault, mid, rfl, rfl⟩
    · refine .inr ⟨mid, rfl, ?_⟩
      simp only
      rcases mid.writeAll payload with ⟨fault | u, full⟩
      · exact .inl ⟨fault, full, rfl, rfl⟩
      · exact .inr ⟨full, rfl, rfl⟩

/-- Only a payload above the limit is refused for its size. -/
theorem write_ne_frameTooLarge {payload : ByteArray} (h : payload.size ≤ Limits.frame)
    (sink : Sink) (size ceiling : Nat) :
    (write payload sink).1 ≠ .error (.frameTooLarge size ceiling) := by
  intro hrefused
  rcases write_cases payload sink with ⟨hlarge, -⟩ | ⟨-, ⟨_, _, -, hw⟩ | ⟨mid, -,
    ⟨_, _, -, hw⟩ | ⟨full, -, hw⟩⟩⟩
  · exact Nat.not_lt_of_le h hlarge
  · rw [hw] at hrefused
    cases hrefused
  · rw [hw] at hrefused
    cases hrefused
  · rw [hw] at hrefused
    revert hrefused
    rcases full.flush with ⟨fault | u, last⟩ <;> rintro ⟨⟩

/-- The octets of a frame are written header first. -/
theorem accepted_of_writeAll {payload : ByteArray} {sink mid full : Sink}
    (hheader : sink.writeAll (header payload.size) = (.ok (), mid))
    (hpayload : mid.writeAll payload = (.ok (), full)) :
    full.accepted = sink.accepted ++ encode payload ∧ ReflTransGen Sink.Works sink full := by
  obtain ⟨hmid, hr₁⟩ := Sink.writeAll_ok hheader
  obtain ⟨hfull, hr₂⟩ := Sink.writeAll_ok hpayload
  refine ⟨?_, hr₁.trans hr₂⟩
  calc full.accepted
      = (sink.accepted ++ header payload.size) ++ payload := by rw [hfull, hmid]
    _ = sink.accepted ++ encode payload := by rw [encode, ByteArray.append_assoc]

/-- A frame that is written is in the sink, by calls that all worked. -/
theorem write_ok {payload : ByteArray} {sink next : Sink}
    (h : write payload sink = (.ok (), next)) :
    payload.size ≤ Limits.frame ∧ next.accepted = sink.accepted ++ encode payload
      ∧ ReflTransGen Sink.Works sink next := by
  rcases write_cases payload sink with ⟨-, hw⟩ | ⟨hsize, ⟨_, _, -, hw⟩ | ⟨mid, hheader,
    ⟨_, _, -, hw⟩ | ⟨full, hpayload, hw⟩⟩⟩
  · cases h.symm.trans hw
  · cases h.symm.trans hw
  · cases h.symm.trans hw
  · obtain ⟨hfull, hr⟩ := accepted_of_writeAll hheader hpayload
    rw [hw] at h
    rcases hf : full.flush with ⟨fault | u, last⟩
    · rw [hf] at h
      cases h
    · rw [hf] at h
      cases h
      refine ⟨hsize, ?_, hr.tail (.flushed hf)⟩
      rw [Sink.accepted_of_flush hf, hfull]

/-- **A frame that is written is flushed**, and so is all that was taken before it. -/
theorem flushed_of_write {payload : ByteArray} {sink next : Sink}
    (h : write payload sink = (.ok (), next)) : next.Flushed := by
  rcases write_cases payload sink with ⟨-, hw⟩ | ⟨-, ⟨_, _, -, hw⟩ | ⟨mid, -,
    ⟨_, _, -, hw⟩ | ⟨full, -, hw⟩⟩⟩
  · cases h.symm.trans hw
  · cases h.symm.trans hw
  · cases h.symm.trans hw
  · rw [hw] at h
    rcases hf : full.flush with ⟨fault | u, last⟩
    · rw [hf] at h
      cases h
    · rw [hf] at h
      cases h
      exact Sink.flushed_of_flush hf

/-- **A frame that is not written**: it is too large and nothing is tried, or a call failed, it
was the last one, and the sink holds a beginning of the frame. -/
theorem write_error {payload : ByteArray} {sink next : Sink} {e : LinkError}
    (h : write payload sink = (.error e, next)) :
    (Limits.frame < payload.size ∧ next = sink) ∨
    (payload.size ≤ Limits.frame ∧ Sink.Halts sink next
      ∧ ∃ more, sink.accepted ++ encode payload = next.accepted ++ more) := by
  rcases write_cases payload sink with ⟨hsize, hw⟩ | ⟨hsize, ⟨_, _, hheader, hw⟩ | ⟨mid, hheader,
    ⟨_, _, hpayload, hw⟩ | ⟨full, hpayload, hw⟩⟩⟩
  · cases h.symm.trans hw
    exact .inl ⟨hsize, rfl⟩
  · -- the header is cut off
    cases h.symm.trans hw
    obtain ⟨⟨more, hmore⟩, hh⟩ := Sink.writeAll_error hheader
    refine .inr ⟨hsize, hh, more ++ payload, ?_⟩
    rw [encode, ← ByteArray.append_assoc, hmore, ByteArray.append_assoc]
  · -- the payload is cut off
    cases h.symm.trans hw
    obtain ⟨hmid, hr⟩ := Sink.writeAll_ok hheader
    obtain ⟨⟨more, hmore⟩, hh⟩ := Sink.writeAll_error hpayload
    refine .inr ⟨hsize, hh.trans hr, more, ?_⟩
    rw [← hmore, hmid, encode, ByteArray.append_assoc]
  · -- the flush fails, with the whole frame in the sink
    obtain ⟨hfull, hr⟩ := accepted_of_writeAll hheader hpayload
    rw [hw] at h
    rcases hf : full.flush with ⟨fault | u, last⟩
    · rw [hf] at h
      cases h
      refine .inr ⟨hsize, ⟨full, hr, .flush hf⟩, .empty, ?_⟩
      rw [ByteArray.append_empty, Sink.accepted_of_flush hf, hfull]
    · rw [hf] at h
      cases h

/-- Where everything is taken, a frame within the limit is written. -/
theorem write_of_accepts {payload : ByteArray} {sink : Sink} (h : sink.Accepts)
    (hs : payload.size ≤ Limits.frame) :
    ∃ next, write payload sink = (.ok (), next) ∧ next.Accepts := by
  obtain ⟨k₁, h₁, ha₁⟩ := h.writeFrom (header payload.size) 0
  obtain ⟨k₂, h₂, ha₂⟩ := ha₁.writeFrom payload 0
  refine ⟨k₂.passOn, ?_, ?_⟩
  · rw [write, if_neg (by omega)]
    simp only [Sink.writeAll, h₁, h₂, ha₂.flushed, linked]
  · exact ⟨ha₂.room, ha₂.flush, ha₂.most, ha₂.replies⟩

/-- Where everything is taken, it stays so, though a frame may be too large. -/
theorem accepts_write {sink : Sink} (h : sink.Accepts) (payload : ByteArray) :
    (write payload sink).2.Accepts := by
  by_cases hs : payload.size ≤ Limits.frame
  · obtain ⟨next, hw, hk⟩ := write_of_accepts h hs
    rw [hw]
    exact hk
  · rw [write, if_pos (Nat.lt_of_not_le hs)]
    exact h

/-! ## Frames, one behind the other -/

/-- The octets of some frames. -/
def encodeAll : List ByteArray → ByteArray
  | [] => .empty
  | payload :: rest => encode payload ++ encodeAll rest

theorem encodeAll_singleton (payload : ByteArray) : encodeAll [payload] = encode payload := by
  rw [encodeAll, encodeAll, ByteArray.append_empty]

theorem toList_encodeAll_cons (payload : ByteArray) (rest : List ByteArray) :
    (encodeAll (payload :: rest)).data.toList
      = (encode payload).data.toList ++ (encodeAll rest).data.toList := by
  rw [encodeAll, ByteArray.data_append, Array.toList_append]

theorem encodeAll_append (front back : List ByteArray) :
    encodeAll (front ++ back) = encodeAll front ++ encodeAll back := by
  induction front with
  | nil => rw [List.nil_append, encodeAll, ByteArray.empty_append]
  | cons payload rest ih => rw [List.cons_append, encodeAll, encodeAll, ih, ByteArray.append_assoc]

end Frame

end PdfWorker
