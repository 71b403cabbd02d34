import PdfWorker.Stream.Source
set_option autoImplicit false

/-! # Draining

`drain` takes what a source has, up to a limit: it reads in chunks, tries again after an
interruption, and stops at the limit, at the end or at any other fault. -/

namespace PdfWorker.Capture

/-- Takes more, given what was taken already. -/
def drainFrom (limit chunk : Nat) (taken : ByteArray) (source : Source) : ByteArray × Source :=
  if limit ≤ taken.size then (taken, source)
  else
    match _h : source.read (max chunk 1) with
    | (.data octets, rest) =>
      drainFrom limit chunk (taken ++ octets.extract 0 (limit - taken.size)) rest
    | (.ended, rest) => (taken, rest)
    | (.failed fault, rest) =>
      if fault.kind = .interrupted then drainFrom limit chunk taken rest else (taken, rest)
termination_by source.weight
decreasing_by
  all_goals
    have := Source.weight_read_lt (by omega : 0 < max chunk 1) source (by simp [_h])
    rw [_h] at this
    exact this

/-- Takes at most `limit` octets, at most `chunk` at once. -/
def drain (limit chunk : Nat) (source : Source) : ByteArray × Source :=
  drainFrom limit chunk .empty source

end PdfWorker.Capture
