import PdfWorker.CommandLine
import PdfWorker.Proofs.Worker.Lockstep
set_option autoImplicit false

/-! # Requests that break a worker off

A request to start the engine brings texts from outside into the environment, and no variable can
hold a NUL character. `run_aborted_iff` says which requests break a worker off for that: those that
would start the engine with a font path that holds one. Every other request that arrives while there
is no engine is answered, and the worker goes on.
-/

namespace PdfWorker

variable {ε δ κ : Type}

namespace Moment

variable {host : Host ε δ κ} {m : Moment ε κ} {request : InitRequest}

/-- **The request to start the engine is answered** by this: it tells that the engine is ready, or an
error. It is all that is due, and where it is taken the worker goes on. -/
structure AnswersStart (host : Host ε δ κ) (m : Moment ε κ) (response : Response) : Prop where
  kind : (∃ version, response = .ready version) ∨ ∃ message, response = .error message
  due : (m.turn host).frames = [response.encode]
  goesOn : m.session.sink.Accepts → response.encode.size ≤ Limits.frame →
    (m.turn host).finish = (none, m.next host)
      ∧ (m.next host).sink.accepted = m.session.sink.accepted ++ Frame.encode response.encode

/-- A request that the environment cannot take gets no answer, and the worker stops where it is. -/
theorem finish_of_breaks (hr : m.request? host = some (.init request))
    (hb : Worker.Breaks m.session.phase request) :
    (m.turn host).finish = (some .aborted, m.session) := by
  rw [Moment.turn, Session.turn_of_request host hr, Session.answerTurn]
  rcases Worker.startEngine_cases host request m.session.phase m.session.world with
    ⟨-, h⟩ | ⟨hn, -⟩ | ⟨hn, -⟩
  · rw [h]
    rfl
  · exact absurd hb hn
  · exact absurd hb hn

/-- Every other one is answered. -/
theorem answersStart_of_not_breaks (hr : m.request? host = some (.init request))
    (hb : ¬ Worker.Breaks m.session.phase request) : ∃ response, m.AnswersStart host response := by
  have hdue : ∃ response phase world,
      ((∃ version, response = Response.ready version) ∨ ∃ message, response = .error message)
        ∧ m.turn host = { response := some response, session := { m.session with phase, world } } := by
    rw [Moment.turn, Session.turn_of_request host hr, Session.answerTurn]
    rcases Worker.startEngine_cases host request m.session.phase m.session.world with
      ⟨hyes, -⟩ | ⟨-, -, version, world, h⟩ | ⟨-, message, world, h⟩
    · exact absurd hyes hb
    · exact ⟨.ready version, .ready, world, .inl ⟨version, rfl⟩, by rw [h]⟩
    · exact ⟨.error message, m.session.phase, world, .inr ⟨message, rfl⟩, by rw [h]⟩
  obtain ⟨response, phase, world, hkind, hturn⟩ := hdue
  have hframes : (m.turn host).frames = [response.encode] := by rw [hturn]; rfl
  refine ⟨response, hkind, hframes, ?_⟩
  intro hk hsize
  have hfits : (m.turn host).Fits := by
    intro other ho
    rw [hturn] at ho
    cases ho
    exact hsize
  obtain ⟨hreason, -, haccepted, -⟩ := Session.finish_of_accepts hk hfits (Prod.eta _).symm
  refine ⟨Prod.ext (hreason.trans ?_) rfl, ?_⟩
  · show (m.turn host).reason = none
    rw [hturn]
  · rw [← Frame.encodeAll_singleton, ← hframes]
    exact haccepted

end Moment

namespace Worker

/-- **Which requests break a worker off.** The text that is handed to the environment holds a NUL
character exactly if one of the font paths does, and exactly then the environment does not take it.
A run of a worker is broken off exactly if one of its turns takes a request to start the engine that
names a resource path, arrives while there is no engine, and has such a font path. Then nothing is
answered. Every other request to start the engine that arrives while there is none is answered once,
and the worker goes on. -/
theorem run_aborted_iff (host : Host ε δ κ) (s : Session ε κ) (source : Source) :
    (∀ (p : Platform) (paths : List String) (env : Environment) (value : String),
      p.joinFontPaths paths = some value →
        ('\x00' ∈ value.toList ↔ ∃ path ∈ paths, '\x00' ∈ path.toList)
          ∧ (p.applyFontPaths paths env = none ↔ '\x00' ∈ value.toList))
    ∧ ((run host s source).1 = .aborted ↔ ∃ m ∈ turns host s source, ∃ request,
      m.request? host = some (.init request) ∧ Breaks m.session.phase request)
    ∧ ∀ m ∈ turns host s source, ∀ request, m.request? host = some (.init request) →
      m.session.phase = .uninitialized →
      (Breaks .uninitialized request → (m.turn host).finish = (some .aborted, m.session))
        ∧ (¬ Breaks .uninitialized request → ∃ response, m.AnswersStart host response) := by
  refine ⟨?_, ?_, ?_⟩
  · intro p paths env value hjoin
    have hnul := Platform.nul_mem_joinFontPaths_iff hjoin
    exact ⟨hnul, (p.applyFontPaths_eq_none_iff paths env).trans hnul.symm⟩
  · rw [show (run host s source).1 = .aborted ↔ _ from serve_reason_iff host .aborted ⟨s, source⟩]
    constructor
    · rintro ⟨m, hm, hfinish⟩
      rcases Moment.request?_of_finish (.inr rfl) hfinish with ⟨heq, -⟩ | ⟨-, hbreaks⟩
      · cases heq
      · exact ⟨m, hm, hbreaks⟩
    · rintro ⟨m, hm, request, hr, hb⟩
      exact ⟨m, hm, congrArg Prod.fst (Moment.finish_of_breaks hr hb)⟩
  · intro m _ request hr hphase
    rw [← hphase]
    exact ⟨Moment.finish_of_breaks hr, Moment.answersStart_of_not_breaks hr⟩

/-! ## A font path that holds a NUL character -/

/-- The request names one good font path, and one that no variable can hold. -/
def brokenRequest : InitRequest :=
  { resourcePath := some "/opt", fontPaths := ["/fonts", "a\x00b"] }

/-- The worker is asked to start its engine so, and then to stop. -/
def brokenSource : Source :=
  .ofOctets (Frame.encodeAll [(Request.init brokenRequest).encode, Request.quit.encode])

/-- What a worker finds that is started without arguments. -/
def bare : Host Unit Empty StderrCapture := CommandLine.host .linux {}

def bareMoment : Moment Unit StderrCapture :=
  ⟨CommandLine.session .linux { entries := [], here := [] } {} {}, brokenSource⟩

theorem breaks_brokenRequest : Breaks .uninitialized brokenRequest :=
  ⟨rfl, by decide, "a\x00b", by simp [brokenRequest], by decide⟩

theorem request?_bareMoment : bareMoment.request? bare = some (.init brokenRequest) := by
  have hsize : (Request.init brokenRequest).encode.size ≤ bare.settings.maxFrame := by
    decide +kernel
  have hoctets : bareMoment.source.stream.octets
      = (Frame.encode (Request.init brokenRequest).encode).data.toList
        ++ (Frame.encode Request.quit.encode).data.toList := by
    rw [← Frame.encodeAll_singleton Request.quit.encode, ← Frame.toList_encodeAll_cons]
    exact Source.octets_stream_ofOctets _
  exact (Moment.request?_of_encode bare rfl hsize (by decide) hoctets).2.1

/-- **A font path breaks the worker off**: it answers neither the request nor what follows. -/
theorem run_aborted_of_nul :
    bareMoment.request? bare = some (.init brokenRequest)
      ∧ bareMoment.session.phase = .uninitialized
      ∧ (run bare bareMoment.session bareMoment.source).1 = .aborted
      ∧ CommandLine.execute .linux { entries := [], here := [] } {} [] brokenSource
        = (101, .empty) := by
  have hmem : bareMoment ∈ turns bare bareMoment.session bareMoment.source :=
    mem_turns_self bare bareMoment
  obtain ⟨-, haborted, hturns⟩ := run_aborted_iff bare bareMoment.session bareMoment.source
  have hrun : (run bare bareMoment.session bareMoment.source).1 = .aborted :=
    haborted.mpr ⟨bareMoment, hmem, brokenRequest, request?_bareMoment, breaks_brokenRequest⟩
  have hfinish : (bareMoment.turn bare).finish = (some .aborted, bareMoment.session) :=
    (hturns bareMoment hmem brokenRequest request?_bareMoment rfl).1 breaks_brokenRequest
  refine ⟨request?_bareMoment, rfl, hrun, ?_⟩
  have hserve := (serve_of_stops hfinish).1
  show ((run bare bareMoment.session bareMoment.source).1.exitCode,
    (run bare bareMoment.session bareMoment.source).2.1.sink.accepted) = _
  rw [run, hserve]
  rfl

end Worker

end PdfWorker
