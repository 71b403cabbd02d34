import PdfWorker.Fault
set_option autoImplicit false

/-! # Sinks

A sink is what a stream will do with the data written to it. Each write takes a part of the data,
or is interrupted, or fails; `Sink.write` is one write, `Sink.writeAll` goes on until everything
is taken and tries again after an interruption. -/

namespace PdfWorker

/-- How a sink answers one write. -/
inductive Reply where
  | interrupted
  /-- It takes at most so many octets. -/
  | upTo (most : Nat)
deriving DecidableEq, Repr

/-- What a stream will do with data, and what it has taken. -/
structure Sink where
  /-- The answers to the next writes. -/
  replies : List Reply := []
  /-- The most that any later write takes, if there is a bound. -/
  mostAtOnce : Option Nat := none
  /-- The octets that are taken before writes fail, if they ever do. -/
  room : Option Nat := none
  /-- How writes fail once there is no room. -/
  refusal : Fault := .nothingWritten
  /-- The flush that fails, counted from 1, and how. -/
  failingFlush : Option (Nat × Fault) := none
  /-- Everything taken so far. -/
  accepted : ByteArray := .empty
  /-- The flushes so far. -/
  flushes : Nat := 0
  /-- How many octets had been taken when a flush last succeeded. -/
  flushed : Nat := 0

namespace Sink

/-- The most that the next write takes of `size` octets. -/
def most (sink : Sink) (size : Nat) : Nat :=
  match sink.replies with
  | .upTo n :: _ => min n size
  | _ =>
    match sink.mostAtOnce with
    | some n => min n size
    | none => size

/-- The part of that for which there is room. -/
def fitting (sink : Sink) (size : Nat) : Nat :=
  match sink.room with
  | some n => min n (sink.most size)
  | none => sink.most size

/-- The answer to one write. -/
inductive Writing where
  | took (count : Nat)
  | interrupted
  | failed (fault : Fault)

/-- Writes what `data` holds from `start` on. A write that takes nothing fails. -/
def write (sink : Sink) (data : ByteArray) (start : Nat) : Writing × Sink :=
  match sink.replies with
  | .interrupted :: rest => (.interrupted, { sink with replies := rest })
  | _ =>
    let later := sink.replies.drop 1
    if sink.room = some 0 then (.failed sink.refusal, { sink with replies := later })
    else
      let n := sink.fitting (data.size - start)
      if n = 0 then (.failed .nothingWritten, { sink with replies := later })
      else
        (.took n,
          { sink with
            replies := later
            room := sink.room.map (· - n)
            accepted := sink.accepted ++ data.extract start (start + n) })

theorem length_replies_of_interrupted {sink next : Sink} {data : ByteArray} {start : Nat}
    (h : sink.write data start = (.interrupted, next)) :
    next.replies.length < sink.replies.length := by
  unfold write at h
  split at h
  · rename_i hr
    simp only [Prod.mk.injEq] at h
    rw [← h.2, hr]
    simp
  · split at h
    · simp at h
    · dsimp only at h
      split at h <;> simp at h

theorem pos_of_took {sink next : Sink} {data : ByteArray} {start n : Nat}
    (h : sink.write data start = (.took n, next)) :
    0 < n ∧ next.replies.length ≤ sink.replies.length := by
  unfold write at h
  split at h
  · simp at h
  · split at h
    · simp at h
    · dsimp only at h
      split at h
      · simp at h
      · simp only [Prod.mk.injEq, Writing.took.injEq] at h
        obtain ⟨rfl, rfl⟩ := h
        exact ⟨by omega, by simp⟩

/-- Writes everything that `data` holds from `start` on. -/
def writeFrom (data : ByteArray) (start : Nat) (sink : Sink) : Except Fault Unit × Sink :=
  if data.size ≤ start then (.ok (), sink)
  else
    match _h : sink.write data start with
    | (.took n, next) => writeFrom data (start + n) next
    | (.interrupted, next) => writeFrom data start next
    | (.failed fault, next) => (.error fault, next)
termination_by data.size - start + sink.replies.length
decreasing_by
  · have := pos_of_took _h
    omega
  · have := length_replies_of_interrupted _h
    omega

/-- Writes all of `data`. -/
def writeAll (data : ByteArray) (sink : Sink) : Except Fault Unit × Sink :=
  writeFrom data 0 sink

/-- The sink once all that it has taken is passed on. -/
def passOn (sink : Sink) : Sink :=
  { sink with flushes := sink.flushes + 1, flushed := sink.accepted.size }

/-- Passes on what was taken. -/
def flush (sink : Sink) : Except Fault Unit × Sink :=
  match sink.failingFlush with
  | some (n, fault) =>
    if n = sink.flushes + 1 then (.error fault, { sink with flushes := sink.flushes + 1 })
    else (.ok (), sink.passOn)
  | none => (.ok (), sink.passOn)

end Sink

end PdfWorker
