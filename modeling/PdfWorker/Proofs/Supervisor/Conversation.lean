import PdfWorker.Proofs.Supervisor.Exchange
set_option autoImplicit false

/-! # Conversations

A supervisor makes one call after the other and then stops the worker. `callAll_exchanges` says that
every sequence of calls is a sequence of exchanges, and how stopping ends it: the worker is where
`Worker.run` leaves one that reads what the calls have sent.
-/

namespace PdfWorker

variable {ε δ κ : Type}

namespace Supervisor

/-- What goes out for calls, one after the other. -/
def sentAll (host : Host ε δ κ) : List Call → Supervisor (LiveWorker ε κ) → List ByteArray
  | [], _ => []
  | c :: calls, s => s.sent c ++ sentAll host calls (s.call (LiveWorker.link host) c).2

/-- Every answer to the calls fits into a frame. -/
def AllFit (host : Host ε δ κ) : List Call → Supervisor (LiveWorker ε κ) → Prop
  | [], _ => True
  | c :: calls, s => s.Fits host c ∧ AllFit host calls (s.call (LiveWorker.link host) c).2

end Supervisor

/-- One exchange after the other. -/
inductive Exchanges (host : Host ε δ κ) : List Call → Supervisor (LiveWorker ε κ) →
    List (Except LinkError Answer) → Supervisor (LiveWorker ε κ) → Prop where
  | nil {s} : Exchanges host [] s [] s
  | cons {c calls s mid last result results} : Exchanged host c s result mid →
      Exchanges host calls mid results last →
      Exchanges host (c :: calls) s (result :: results) last

/-! ## Stopping -/

theorem Request.size_encode_quit : Request.quit.encode.size ≤ Limits.frame := by decide +kernel

theorem Session.finish_turn_quit (host : Host ε δ κ) {s : Session ε κ} (h : s.awaited = none) :
    (s.turn host (.ok (.frame Request.quit.encode))).finish = (some .quit, s) := by
  rw [s.turn_encode host h]
  rfl

namespace Supervisor

variable {host : Host ε δ κ} {s : Supervisor (LiveWorker ε κ)}

/-- A worker that is in step takes the word to stop, and ends with 0. -/
theorem InStep.shutdown (hmax : host.settings.maxFrame = Limits.frame) (hs : s.InStep) :
    (s.shutdown (LiveWorker.link host)).1 = .ok (some 0)
      ∧ (s.shutdown (LiveWorker.link host)).2.process.session
          = s.process.session.close host := by
  -- the worker stops in the turn in which it is told to
  let w : LiveWorker ε κ :=
    { s.process with session := s.process.session.close host, status := some (some 0) }
  have hsend : (LiveWorker.link host).send Request.quit.encode s.process = (.ok (), w) := by
    show LiveWorker.send host Request.quit.encode s.process = _
    rw [LiveWorker.send_live hmax Request.size_encode_quit hs.unread.running,
      LiveWorker.take_of_stops hs.unread.running (Session.finish_turn_quit host hs.awaited)]
    rfl
  have hhangUp : s.hangUp (LiveWorker.link host)
      = { s with finished := true, connected := false, process := w } := by
    rw [hangUp, if_pos hs.unread.connected, hsend]
    rfl
  rw [Supervisor.shutdown, shutdownWithin, hhangUp]
  exact ⟨rfl, rfl⟩

/-- A worker that was broken off has ended with its own code. -/
theorem Gone.shutdown (hs : s.Gone) :
    (s.shutdown (LiveWorker.link host)).1 = .ok abortedStatus := by
  have hhangUp : s.hangUp (LiveWorker.link host) = { s with finished := true } := by
    rw [hangUp, if_neg (by simp [hs.connected])]
  have houtlast : (LiveWorker.link host).outlast Limits.shutdownTimeout s.process
      = (.ok (some abortedStatus), s.process) := by
    show (Except.ok s.process.status, s.process) = _
    rw [hs.status]
  rw [Supervisor.shutdown, shutdownWithin, hhangUp]
  simp only [houtlast]

end Supervisor

/-! ## Sequences of calls -/

namespace Supervisor

variable {host : Host ε δ κ}

theorem exchanges_callAll (hmax : host.settings.maxFrame = Limits.frame) (calls : List Call)
    {s : Supervisor (LiveWorker ε κ)} (hs : s.InStep ∨ s.Gone) (hfits : AllFit host calls s) :
    Exchanges host calls s (s.callAll (LiveWorker.link host) calls).1
        (s.callAll (LiveWorker.link host) calls).2
      ∧ ((s.callAll (LiveWorker.link host) calls).2.InStep
          ∨ (s.callAll (LiveWorker.link host) calls).2.Gone) := by
  induction calls generalizing s with
  | nil => exact ⟨.nil, hs⟩
  | cons c calls ih =>
      have hfirst := call_exchanged hmax hs hfits.1
      obtain ⟨hrest, hlast⟩ := ih hfirst.stands hfits.2
      exact ⟨.cons hfirst hrest, hlast⟩

end Supervisor

namespace Exchanges

variable {host : Host ε δ κ} {calls : List Call} {s last : Supervisor (LiveWorker ε κ)}
  {results : List (Except LinkError Answer)}

theorem gone_of_gone (h : Exchanges host calls s results last) (hs : s.Gone) : last.Gone := by
  induction h with
  | nil => exact hs
  | cons hfirst _ ih => exact ih (hfirst.gone_of_gone hs)

theorem inStep_of_harmless (h : Exchanges host calls s results last) (hs : s.InStep)
    (hc : ∀ c ∈ calls, c.Harmless) : last.InStep := by
  induction h with
  | nil => exact hs
  | cons hfirst _ ih =>
      refine ih (hfirst.inStep_of_harmless hs (hc _ (List.mem_cons_self ..))) ?_
      exact fun c hm => hc c (List.mem_cons_of_mem _ hm)

end Exchanges

/-- **How a conversation ends** that began in a session and sent some frames. -/
inductive Ended (host : Host ε δ κ) (first : Session ε κ) (frames : List ByteArray)
    (s : Supervisor (LiveWorker ε κ)) : Prop where
  /-- The worker stops when it is told to, and it is where `Worker.run` leaves a worker that reads
  the frames and the word to stop from a source. -/
  | quit : s.InStep → (s.shutdown (LiveWorker.link host)).1 = .ok (some 0) →
      (∀ (source : Source) (more : List UInt8), source.stream.octets
          = (Frame.encodeAll (frames ++ [Request.quit.encode])).data.toList ++ more →
        (Worker.run host first source).1 = .quit
          ∧ (Worker.run host first source).2.1
            = (s.shutdown (LiveWorker.link host)).2.process.session) →
      Ended host first frames s
  | aborted : s.Gone → (s.shutdown (LiveWorker.link host)).1 = .ok abortedStatus →
      Ended host first frames s

namespace Supervisor

variable {host : Host ε δ κ}

/-- The worker takes what the calls send, if it is still there in the end. -/
theorem callAll_takes (hmax : host.settings.maxFrame = Limits.frame) (calls : List Call)
    {s : Supervisor (LiveWorker ε κ)} (hs : s.InStep) (hfits : AllFit host calls s)
    (hlast : (s.callAll (LiveWorker.link host) calls).2.InStep) :
    s.process.session.Takes host (sentAll host calls s)
      (s.callAll (LiveWorker.link host) calls).2.process.session := by
  induction calls generalizing s with
  | nil => exact .nil
  | cons c calls ih =>
      have hfirst := call_exchanged hmax (.inl hs) hfits.1
      rcases hfirst.stands with hmid | hmid
      · exact (hfirst.takes hmid).append (ih hmid hfits.2 hlast)
      · -- the worker would be gone in the end
        have hgone := (exchanges_callAll hmax calls (.inr hmid) hfits.2).1.gone_of_gone hmid
        exact absurd hgone (not_gone_of_inStep hlast)

/-- **Every sequence of calls** comes to one exchange after the other, each in the session that the
one before it left, and stopping ends it. The worker is broken off only by a request to start the
engine with a NUL character in a font path. -/
theorem callAll_exchanges (hmax : host.settings.maxFrame = Limits.frame) (calls : List Call)
    {s : Supervisor (LiveWorker ε κ)} (hs : s.InStep) (hfits : AllFit host calls s) :
    ∃ results last, s.callAll (LiveWorker.link host) calls = (results, last)
      ∧ Exchanges host calls s results last
      ∧ Ended host s.process.session (sentAll host calls s) last
      ∧ ((∀ c ∈ calls, c.Harmless) → last.InStep) := by
  obtain ⟨hexchanges, hlast⟩ := exchanges_callAll hmax calls (.inl hs) hfits
  refine ⟨_, _, rfl, hexchanges, ?_, hexchanges.inStep_of_harmless hs⟩
  rcases hlast with hlast | hlast
  · obtain ⟨hstatus, hsession⟩ := hlast.shutdown hmax
    have htakes := callAll_takes hmax calls hs hfits hlast
    refine .quit hlast hstatus ?_
    intro source more hsource
    rw [hsession]
    exact htakes.run_eq hmax Request.size_encode_quit
      (Session.finish_turn_quit host hlast.awaited) hsource
  · exact .aborted hlast hlast.shutdown

/-- A supervisor and a worker that have just started on the scripted host. -/
def fresh : Supervisor (LiveWorker ScriptedEngine ScriptedCapture) :=
  { process := { session := .fresh {} } }

/-- A document to convert, before the engine is started. -/
def earlyCall : Call := .convertDocument { format := .docx } ⟨#[80, 75, 3, 4]⟩

/-- A call that comes too early, and then the end. -/
theorem callAll_exchanges_of_early :
    Host.scripted.settings.maxFrame = Limits.frame ∧ fresh.InStep
      ∧ AllFit Host.scripted [earlyCall] fresh
      ∧ ∃ results last, fresh.callAll (LiveWorker.link .scripted) [earlyCall] = (results, last)
        ∧ Exchanges .scripted [earlyCall] fresh results last
        ∧ Ended .scripted fresh.process.session (sentAll .scripted [earlyCall] fresh) last
        ∧ ((∀ c ∈ [earlyCall], c.Harmless) → last.InStep) := by
  have hin : fresh.InStep := by
    refine ⟨⟨rfl, rfl, rfl, Sink.accepts_default .empty, ⟨.empty, rfl, rfl⟩, ?_⟩, rfl⟩
    intro payload hp
    cases hp
  have hfits : AllFit Host.scripted [earlyCall] fresh := by
    refine ⟨fun _ _ => ?_, trivial⟩
    have hresponse : (earlyCall.turn .scripted (idFor earlyCall fresh)
        fresh.process.session).response = some (.bufferResult (.failed 1 .notInitialized [])) := by
      decide +kernel
    intro response hr
    rw [hresponse] at hr
    cases hr
    decide +kernel
  exact ⟨rfl, hin, hfits, callAll_exchanges rfl [earlyCall] hin hfits⟩

end Supervisor

end PdfWorker
