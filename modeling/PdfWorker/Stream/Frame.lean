import PdfWorker.Limits
import PdfWorker.LinkError
import PdfWorker.Stream.Sink
import PdfWorker.Stream.Source
set_option autoImplicit false

/-! # Frames

A frame is a header of four octets, the size of its payload with the lowest octet first, and the
payload. `Frame.read` takes one frame from a source and stops after the header of one that is too
large; `Frame.write` puts one into a sink and flushes it. `Frame.split` cuts octets into the
payloads of whole frames and what is left over. -/

namespace PdfWorker.Frame

/-! ## Headers -/

/-- The number that octets write, lowest first. -/
def littleEndian : List UInt8 → Nat
  | [] => 0
  | b :: bs => b.toNat + 256 * littleEndian bs

/-- The header of a frame with `size` octets of payload. -/
def header (size : Nat) : ByteArray :=
  ⟨#[UInt8.ofNat size, UInt8.ofNat (size / 256), UInt8.ofNat (size / 65536),
    UInt8.ofNat (size / 16777216)]⟩

/-- The octets of a frame. -/
def encode (payload : ByteArray) : ByteArray :=
  header payload.size ++ payload

theorem littleEndian_header {size : Nat} (h : size < UInt32.size) :
    littleEndian (header size).data.toList = size := by
  unfold UInt32.size at h
  simp [header, littleEndian, UInt8.toNat_ofNat']
  omega

@[simp] theorem size_header (size : Nat) : (header size).size = Limits.header := rfl

/-! ## Reading -/

/-- What arrives where a frame is expected. -/
inductive Arrival where
  | frame (payload : ByteArray)
  /-- The stream ended, before a frame or within one. -/
  | ended
  /-- A header that tells a size above the ceiling; nothing after it was read. -/
  | oversized (size : Nat)

/-- Reads one frame with at most `max` octets of payload. -/
def read (max : Nat) (source : Source) : Except Fault Arrival × Source :=
  match source.fill Limits.header with
  | (.failed fault, rest) => (.error fault, rest)
  | (.ended, rest) => (.ok .ended, rest)
  | (.full head, rest) =>
    let size := littleEndian head.data.toList
    if max < size then (.ok (.oversized size), rest)
    else match rest.fill size with
      | (.failed fault, rest) => (.error fault, rest)
      | (.ended, rest) => (.ok .ended, rest)
      | (.full payload, rest) => (.ok (.frame payload), rest)

theorem weight_read_lt {max : Nat} {source rest : Source} {payload : ByteArray}
    (h : read max source = (.ok (.frame payload), rest)) : rest.weight < source.weight := by
  unfold read at h
  split at h
  · simp at h
  · simp at h
  · rename_i head mid hf
    have h₁ := Source.weight_fill_lt (by decide : 0 < Limits.header) source (by simp [hf])
    rw [hf] at h₁
    dsimp only at h h₁
    split at h
    · simp at h
    · have h₂ := Source.weight_fill_le (littleEndian head.data.toList) mid
      split at h
      · simp at h
      · simp at h
      · rename_i hg
        rw [hg] at h₂
        simp only [Prod.mk.injEq] at h
        rw [← h.2]
        dsimp only at h₂
        omega

/-! ## Writing -/

/-- What a call on a stream reports, as a failure of the link. -/
def linked : Except Fault Unit × Sink → Except LinkError Unit × Sink
  | (.ok (), sink) => (.ok (), sink)
  | (.error fault, sink) => (.error (.io fault), sink)

/-- Writes one frame and flushes it. A payload above the ceiling is refused before anything is
written. -/
def write (payload : ByteArray) (sink : Sink) : Except LinkError Unit × Sink :=
  if Limits.frame < payload.size then (.error (.frameTooLarge payload.size Limits.frame), sink)
  else match sink.writeAll (header payload.size) with
    | (.error fault, sink) => (.error (.io fault), sink)
    | (.ok (), sink) =>
      match sink.writeAll payload with
      | (.error fault, sink) => (.error (.io fault), sink)
      | (.ok (), sink) => linked sink.flush

/-! ## Cutting -/

/-- The payload of the frame that begins at `start` in some octets, and where the frame ends. -/
def at? (octets : ByteArray) (start : Nat) : Option (ByteArray × Nat) :=
  let body := start + Limits.header
  let stop := body + littleEndian (octets.extract start body).data.toList
  if body ≤ octets.size ∧ stop ≤ octets.size then some (octets.extract body stop, stop) else none

theorem lt_of_at? {octets payload : ByteArray} {start stop : Nat}
    (h : at? octets start = some (payload, stop)) : start < stop ∧ stop ≤ octets.size := by
  simp only [at?] at h
  split at h
  · rename_i hs
    simp only [Option.some.injEq, Prod.mk.injEq] at h
    have : 0 < Limits.header := by decide
    omega
  · simp at h

/-- The payloads of the whole frames from `start` on, after those in `done`, and what is left
over. -/
def splitFrom (octets : ByteArray) (start : Nat) (done : Array ByteArray) :
    Array ByteArray × ByteArray :=
  match _h : at? octets start with
  | some (payload, stop) => splitFrom octets stop (done.push payload)
  | none => (done, octets.extract start octets.size)
termination_by octets.size - start
decreasing_by
  have := lt_of_at? _h
  omega

/-- The payloads of the whole frames at the beginning of some octets, and what is left over. -/
def split (octets : ByteArray) : Array ByteArray × ByteArray :=
  splitFrom octets 0 #[]

end PdfWorker.Frame
