import PdfWorker.Proofs.Staging
import PdfWorker.Proofs.Worker.CaptureCalls
set_option autoImplicit false

/-! # Documents leave no trace

A document that is sent along is staged for the engine, and what is staged is removed before the
answer is written. `lifetime_traceless` says so of every request to convert a document in all runs of
a worker, on an engine that changes no file but the output that it is told: when the answer is
written, the file tree shows what it showed when the request was read, and in between there are at
most two staged files.
-/

namespace PdfWorker

open FileTree (Same)
open Conversion (Staged performAll directory)

variable {ε δ κ : Type} {host : Host ε δ κ}

/-- Catching the engine's chatter changes no file. -/
theorem Job.files_captured (host : Host ε δ κ) (job : Job) (world : World ε κ) :
    (job.captured host world).2.files
      = (job.behind host (world.startCapture host).2).files := by
  rcases hstart : world.startCapture host with ⟨fault | u, started⟩
  · rw [job.captured_of_refused hstart]
  · rw [job.captured_of_started hstart]
    rfl

/-- Where a document is awaited, only it is converted, as its request asks. -/
theorem Session.job?_of_awaited {arrival : Except Fault Frame.Arrival} {s : Session ε κ}
    {request : BufferRequest} (h : s.awaited = some request) :
    s.job? arrival = none
      ∨ ∃ octets, s.job? arrival = some (.document octets request.format request.options) := by
  unfold job?
  rw [h]
  split
  · rename_i heq
    cases heq
    split
    · exact .inr ⟨_, rfl⟩
    · exact .inl rfl
  · rename_i heq
    cases heq
  · exact .inl rfl

namespace Moment

/-- The calls that the turn makes about a document, behind the start of the capture. -/
def documentCalls (host : Host ε δ κ) (m : Moment ε κ) : List (Conversion.Call δ) :=
  match m.job? host with
  | some (.document octets format options) =>
    Conversion.documentCalls host octets format options (m.session.world.startCapture host).2
  | _ => []

/-- The files behind the first calls of the turn. -/
def filesBehind (host : Host ε δ κ) (m : Moment ε κ) (n : Nat) : FileTree :=
  (performAll host ((m.documentCalls host).take n) (m.session.world.startCapture host).2).files

variable {m : Moment ε κ} {request : BufferRequest}

/-- **The turn of a document** leaves no trace, and stages at most two files on its way. -/
theorem document_traceless (ht : host.engine.Tidy) (ha : m.session.awaited = some request) :
    Same m.session.world.files (m.turn host).session.world.files
      ∧ (m.turn host).session.world.files = m.filesBehind host (m.documentCalls host).length
      ∧ ∀ n, Staged m.session.world.files (directory host m.session.world.files) request.format
        (m.filesBehind host n) := by
  have hcases : m.job? host = none
      ∨ ∃ octets, m.job? host = some (.document octets request.format request.options) :=
    Session.job?_of_awaited ha
  unfold filesBehind documentCalls
  rcases hcases with hjob | ⟨octets, hjob⟩
  · -- the document is not converted, and no calls are made
    obtain ⟨-, hworld⟩ := Session.documentTurn_of_no_job host ha hjob
    have hbehind : (m.turn host).session.world = m.session.world := hworld
    rw [hjob, hbehind]
    exact ⟨.refl _, rfl, fun n => by rw [List.take_nil]; exact .nothing (.refl _)⟩
  · obtain ⟨-, hworld⟩ := Session.turn_of_job host hjob
    have hfiles : (m.turn host).session.world.files
        = ((Job.document octets request.format request.options).behind host
          (m.session.world.startCapture host).2).files := by
      rw [← Job.files_captured]
      exact congrArg World.files hworld
    obtain ⟨halong, hsame⟩ := Conversion.along_documentCalls ht octets request.format
      request.options (m.session.world.startCapture host).2
    have hcalls := Conversion.performAll_documentCalls host octets request.format request.options
      (m.session.world.startCapture host).2
    rw [hjob, hfiles]
    simp only [List.take_length]
    rw [hcalls] at hsame ⊢
    exact ⟨hsame, rfl, halong.take⟩

/-- The request to convert a document is not answered: the next turn is that of the document. -/
theorem finish_of_announced (h : m.request? host = some (.convertBuffer request)) :
    (m.turn host).finish = (none, { m.session with awaited := some request }) := by
  have hturn : m.turn host = m.session.answerTurn host (.convertBuffer request) :=
    Session.turn_of_request host h
  rw [hturn]
  rfl

/-- A document is answered under the number of its request. -/
theorem response_of_awaited (host : Host ε δ κ) (ha : m.session.awaited = some request) :
    ∃ reply, (m.turn host).response = some (.bufferResult reply) ∧ reply.id = request.id := by
  have hturn : m.turn host = m.session.documentTurn host request
      (Session.ending (m.arrival host)).2 (Session.ending (m.arrival host)).1 :=
    Session.turn_of_awaited host ha
  rw [hturn]
  exact ⟨_, rfl, (Worker.convertDocument_announces host request _ m.session.phase
    m.session.world).1⟩

/-- Writing changes no file. -/
theorem files_next (host : Host ε δ κ) (m : Moment ε κ) :
    (m.next host).world.files = (m.turn host).session.world.files := by
  obtain ⟨sink, log, hnext⟩ := m.next_eq host
  rw [hnext]

end Moment

namespace Worker

/-- A turn that goes on is followed by the next. -/
theorem behind_mem_turns (host : Host ε δ κ) (m : Moment ε κ) :
    ∀ m' ∈ turns host m.session m.source, (m'.turn host).finish.1 = none →
      m'.behind host ∈ turns host m.session m.source := by
  induction m using serve_induction host with
  | stops m reason next h =>
      rw [(serve_of_stops h).2]
      intro m' hm hgoes
      rw [List.mem_singleton.mp hm, h] at hgoes
      cases hgoes
  | continues m next h ih =>
      rw [(serve_of_continues h).2]
      intro m' hm hgoes
      refine List.mem_cons_of_mem _ ?_
      rcases List.mem_cons.mp hm with rfl | hm
      · have hbehind : m'.behind host = ⟨next, m'.rest host⟩ := by
          rw [Moment.behind, Moment.next, h]
        rw [hbehind]
        exact mem_turns_self host ⟨next, m'.rest host⟩
      · exact ih m' hm hgoes

theorem behind_mem_lifetime (host : Host ε δ κ) (visits : List Visit) (phase : Phase)
    (world : World ε κ) : ∀ m ∈ lifetime host phase world visits, (m.turn host).finish.1 = none →
      m.behind host ∈ lifetime host phase world visits := by
  induction visits generalizing phase world with
  | nil => exact fun m hm => absurd hm List.not_mem_nil
  | cons visit visits ih =>
      intro m hm hgoes
      rw [lifetime] at hm ⊢
      -- the turn is one of this visit or of a later one, and so is the next
      rcases List.mem_append.mp hm with hm | hm
      · exact List.mem_append_left _ (behind_mem_turns host ⟨_, visit.source⟩ m hm hgoes)
      · refine List.mem_append_right _ ?_
        split at hm
        · cases hm
        · rename_i hreason
          rw [if_neg hreason]
          exact ih _ _ m hm hgoes

/-- **Documents leave no trace.** Let the engine change no file but the output that it is told. Over
all runs of one worker, each request to convert a document is followed by the turn that answers it,
whatever arrives there; when the answer is written, the file tree shows what it showed when the
request was read. Behind each call on the way the tree shows the same but for the staged files: none,
the input, or the input and another file for the PDF, where nothing stood before. -/
theorem lifetime_traceless (host : Host ε δ κ) (ht : host.engine.Tidy) (phase : Phase)
    (world : World ε κ) (visits : List Visit) :
    ∀ m ∈ lifetime host phase world visits, ∀ request,
      m.request? host = some (.convertBuffer request) →
      m.behind host ∈ lifetime host phase world visits
        ∧ (∃ reply, ((m.behind host).turn host).response = some (.bufferResult reply)
          ∧ reply.id = request.id)
        ∧ Same m.session.world.files ((m.behind host).turn host).session.world.files
        ∧ ((m.behind host).next host).world.files
          = ((m.behind host).turn host).session.world.files
        ∧ ((m.behind host).turn host).session.world.files
          = (m.behind host).filesBehind host ((m.behind host).documentCalls host).length
        ∧ ∀ n, Staged m.session.world.files (directory host m.session.world.files) request.format
          ((m.behind host).filesBehind host n) := by
  intro m hm request hrequest
  -- nothing happens between the request and its document, so the files are the same there
  have hfinish := Moment.finish_of_announced hrequest
  have hnext : m.next host = { m.session with awaited := some request } :=
    congrArg Prod.snd hfinish
  have hawaited : (m.behind host).session.awaited = some request := congrArg Session.awaited hnext
  have hworld : (m.behind host).session.world = m.session.world := by
    show (m.next host).world = _
    rw [hnext]
  obtain ⟨hsame, hlast, hstaged⟩ := Moment.document_traceless ht hawaited
  rw [hworld] at hsame hstaged
  exact ⟨behind_mem_lifetime host visits phase world m hm (congrArg Prod.fst hfinish),
    Moment.response_of_awaited host hawaited, hsame, Moment.files_next host _, hlast, hstaged⟩

/-! ## A letter

A supervisor announces a letter to a worker that is ready, and sends it. -/

def letter : BufferRequest := { id := 7, format := .docx, dataSize := some 4 }

def letterMoment : Moment ScriptedEngine ScriptedCapture :=
  ⟨⟨.ready, none, ⟨{ entries := [(["tmp"], .directory)], here := [] }, {}, {}, {}, #[]⟩, {}⟩,
    .ofOctets (Frame.encodeAll [(Request.convertBuffer letter).encode, "Dear".toUTF8])⟩

/-- The letter is converted, and nothing of it is left behind. -/
theorem lifetime_traceless_of_letter :
    letterMoment.request? .scripted = some (.convertBuffer letter)
      ∧ (∃ reply, ((letterMoment.behind .scripted).turn .scripted).response
          = some (.bufferResult reply) ∧ reply.id = 7)
      ∧ Same letterMoment.session.world.files
        ((letterMoment.behind .scripted).next .scripted).world.files := by
  have hsize : (Request.convertBuffer letter).encode.size ≤ Limits.frame := by decide +kernel
  have hoctets : letterMoment.source.stream.octets
      = (Frame.encode (Request.convertBuffer letter).encode).data.toList
        ++ (Frame.encode "Dear".toUTF8).data.toList := by
    rw [← Frame.encodeAll_singleton "Dear".toUTF8, ← Frame.toList_encodeAll_cons]
    exact Source.octets_stream_ofOctets _
  obtain ⟨-, hrequest, -⟩ := Moment.request?_of_encode .scripted rfl hsize (by decide) hoctets
  have hmem : letterMoment ∈ lifetime .scripted .ready letterMoment.session.world
      [⟨letterMoment.source, {}⟩] :=
    mem_lifetime_of_mem_turns .scripted (mem_turns_self .scripted letterMoment)
  obtain ⟨-, hreply, hsame, hlast, -, -⟩ :=
    lifetime_traceless .scripted Engine.tidy_scripted .ready letterMoment.session.world
      [⟨letterMoment.source, {}⟩] letterMoment hmem letter hrequest
  rw [← hlast] at hsame
  exact ⟨hrequest, hreply, hsame⟩

end Worker

end PdfWorker
