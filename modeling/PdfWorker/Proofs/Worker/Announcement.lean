import PdfWorker.Proofs.Capture.ErrorStream
import PdfWorker.Proofs.FileTree.Changes
import PdfWorker.Proofs.Worker.CaptureCalls
import PdfWorker.Proofs.Worker.Moderate
set_option autoImplicit false

/-! # The announcement of a conversion

The answer to a conversion that succeeded carries the diagnostics in what the engine wrote meanwhile,
and nothing else that could grow. It takes at most thirty-two octets for each octet that was caught
and 256 more. A capture of the error stream catches no more than its limit, and nothing that a worker
does changes that limit (`limit_next`). So `announcements_fit` says that a worker with the limit that
is set by default never fails to announce a conversion for the sake of its size.
-/

namespace PdfWorker

open Relation (ReflTransGen)

/-! ## How long announcements are -/

/-- The answer tells of a conversion that succeeded. -/
def Response.succeeded : Response → Bool
  | result reply => reply.success
  | bufferResult reply => reply.success
  | ready _ => false
  | error _ => false

/-- **The announcement of a conversion**, with the diagnostics in what was caught meanwhile. -/
inductive Announcement (raw : ByteArray) : Response → Prop where
  | file (id : Int64) : Announcement raw (.result (.ok id (LogLine.ofOctets raw)))
  | document (id : Int64) (size : UInt64) :
      Announcement raw (.bufferResult (.ok id size (LogLine.ofOctets raw)))

/-- An announcement grows with what was caught, and with nothing else. -/
theorem Announcement.size_encode_le {raw : ByteArray} {response : Response}
    (h : Announcement raw response) : response.encode.size ≤ 32 * raw.size + 256 := by
  have hdiagnostics : Response.diagnosticsSize (LogLine.ofOctets raw) ≤ 30 * raw.size + 2 :=
    LogLine.size_ofOctets_le raw
  have hmessage : Response.messageSize none = 4 := by decide
  cases h with
  | file id =>
      have hsize := Response.size_encode_result_le (.ok id (LogLine.ofOctets raw))
      simp only [ConversionReply.ok, hmessage] at hsize ⊢
      omega
  | document id size =>
      have hsize := Response.size_encode_bufferResult_le (.ok id size (LogLine.ofOctets raw))
      simp only [BufferReply.ok, hmessage] at hsize ⊢
      omega

variable {ε δ : Type} {host : Host ε δ StderrCapture}

/-! ## The limit of the capture -/

/-- No call of a conversion changes the limit, whatever the engine writes. -/
theorem World.Acts.limit (hcapture : host.capture = .stderr) {world next : World ε StderrCapture}
    (h : Acts host world next) : next.capture.limit = world.capture.limit := by
  cases h with
  | converts h =>
      cases h with
      | load path password =>
          simp only [World.load, settle, hcapture]
          rfl
      | exportPdf document output format options =>
          simp only [World.exportPdf, settle, hcapture]
          rfl
      | changeFiles files => rfl
  | startCapture =>
      simp only [World.startCapture, hcapture]
      exact world.capture.limit_start
  | stopCapture =>
      simp only [World.stopCapture, hcapture]
      exact world.capture.limit_stop
  | readCapture =>
      simp only [World.readCapture, hcapture]
      exact world.capture.limit_read

theorem World.limit_of_acts (hcapture : host.capture = .stderr)
    {world next : World ε StderrCapture} (h : ReflTransGen (Acts host) world next) :
    next.capture.limit = world.capture.limit := by
  induction h with
  | refl => rfl
  | tail _ hact ih => exact (hact.limit hcapture).trans ih

/-- Starting the engine does nothing to the capture. -/
theorem Worker.capture_of_start {request : InitRequest} {phase next : Phase}
    {world world' : World ε StderrCapture} {response : Option Response}
    (h : startEngine host request phase world = (response, next, world')) :
    world'.capture = world.capture := by
  obtain ⟨environment, engine, log, hworld⟩ := startEngine_keeps host request phase world
  rw [h] at hworld
  rw [show world' = _ from hworld]

/-- No turn changes the limit. -/
theorem Moment.limit_next (hcapture : host.capture = .stderr) (m : Moment ε StderrCapture) :
    (m.next host).world.capture.limit = m.session.world.capture.limit := by
  have hturn : (m.turn host).session.world.capture.limit = m.session.world.capture.limit := by
    have h := m.session.decides_turn host (m.arrival host)
    rw [Moment.turn]
    generalize m.session.turn host (m.arrival host) = t at h
    cases h with
    | quiet | noObject | waiting => rfl
    | started hstart => exact congrArg StderrCapture.limit (Worker.capture_of_start hstart)
    | broken hstart => exact congrArg StderrCapture.limit (Worker.capture_of_start hstart)
    | @file request reply world hconvert =>
        have hacts := Worker.convert_acts host request m.session.phase m.session.world
        rw [hconvert] at hacts
        exact World.limit_of_acts hcapture hacts
    | @document request document reason reply pdf world hconvert _ =>
        have hacts :=
          Worker.convertDocument_acts host request document m.session.phase m.session.world
        rw [hconvert] at hacts
        exact World.limit_of_acts hcapture hacts
  obtain ⟨sink, log, hnext⟩ := m.next_eq host
  rw [hnext]
  exact hturn

theorem Session.limit_close (s : Session ε StderrCapture) :
    (s.close host).world.capture.limit = s.world.capture.limit := by
  rcases s with ⟨_ | _ | _, awaited, world, sink⟩ <;> rfl

/-! ## Conversions that succeed -/

namespace Worker

/-- **The diagnostics of a call** are those in a reading, and the reading keeps to the limit. -/
theorem captured_diagnostics_eq (hcapture : host.capture = .stderr) {α : Type}
    {call : World ε StderrCapture → α × World ε StderrCapture}
    (hcall : ∀ world, ReflTransGen (World.Converts host) world (call world).2)
    (world : World ε StderrCapture) :
    ∃ raw : ByteArray, raw.size ≤ world.capture.limit
      ∧ (captured host call world).2.1 = LogLine.ofOctets raw := by
  rcases hstart : world.startCapture host with ⟨fault | u, started⟩
  · -- without a capture there are no diagnostics, as if nothing had been caught
    refine ⟨.empty, Nat.zero_le _, ?_⟩
    simp only [captured, hstart, LogLine.ofOctets_empty]
  · have hcalls : ReflTransGen (World.Acts host) world ((call started).2.stopCapture host) := by
      have hfirst : World.Acts host world started := by
        have hlog : World.Acts host world (world.startCapture host).2 := .startCapture
        rw [hstart] at hlog
        exact hlog
      have hmore := ReflTransGen.mono (fun _ _ => World.Acts.converts) _ _ (hcall started)
      exact ((ReflTransGen.single hfirst).trans hmore).tail .stopCapture
    refine ⟨(((call started).2.stopCapture host).readCapture host).1, ?_, ?_⟩
    · rw [← World.limit_of_acts hcapture hcalls, World.readCapture, hcapture]
      exact StderrCapture.size_read_le _
    · simp only [captured, hstart]

/-- A file that was converted is announced. -/
theorem convert_announces (hcapture : host.capture = .stderr) {request : FileRequest}
    {phase : Phase} {world : World ε StderrCapture}
    (h : (convert host request phase world).1.success = true) :
    ∃ raw : ByteArray, raw.size ≤ world.capture.limit
      ∧ Announcement raw (.result (convert host request phase world).1) := by
  revert h
  unfold convert
  split
  · rename_i input output _ _
    have hdiagnostics := captured_diagnostics_eq hcapture
      (Conversion.convertFile_acts host input output request.format request.options) world
    revert hdiagnostics
    rcases captured host (Conversion.convertFile host input output request.format request.options)
      world with ⟨e | u, diagnostics, next⟩
    · rintro - ⟨⟩
    · rintro ⟨raw, hraw, rfl⟩ -
      exact ⟨raw, hraw, .file request.id⟩
  · rintro ⟨⟩
  · rintro ⟨⟩

/-- A PDF that is sent is announced. -/
theorem pdfReply_announces_of_success {id : Int64} {pdf raw : ByteArray}
    (h : (pdfReply id pdf (LogLine.ofOctets raw)).1.success = true) :
    Announcement raw (.bufferResult (pdfReply id pdf (LogLine.ofOctets raw)).1) := by
  revert h
  unfold pdfReply
  split
  · rintro ⟨⟩
  · exact fun _ => .document id _

/-- A document that was converted is announced. -/
theorem convertDocument_announces_of_success (hcapture : host.capture = .stderr)
    {request : BufferRequest} {document : Option ByteArray} {phase : Phase}
    {world : World ε StderrCapture}
    (h : (convertDocument host request document phase world).1.1.success = true) :
    ∃ raw : ByteArray, raw.size ≤ world.capture.limit
      ∧ Announcement raw
        (.bufferResult (convertDocument host request document phase world).1.1) := by
  revert h
  unfold convertDocument
  dsimp only
  split
  · rintro ⟨⟩
  · cases request.dataSize with
    | none => rintro ⟨⟩
    | some expected =>
        cases document with
        | none => rintro ⟨⟩
        | some octets =>
            dsimp only
            split
            · rintro ⟨⟩
            · have hdiagnostics := captured_diagnostics_eq hcapture
                (Conversion.convertDocument_acts host octets request.format request.options) world
              revert hdiagnostics
              rcases captured host (Conversion.convertDocument host octets request.format
                request.options) world with ⟨e | pdf, diagnostics, next⟩
              · rintro - ⟨⟩
              · rintro ⟨raw, hraw, rfl⟩ h
                exact ⟨raw, hraw, pdfReply_announces_of_success h⟩

end Worker

/-- **What tells of a success is an announcement** of what was caught within the limit. -/
theorem Moment.announces (hcapture : host.capture = .stderr) {m : Moment ε StderrCapture}
    {response : Response} (h : (m.turn host).response = some response)
    (hsuccess : response.succeeded = true) :
    ∃ raw : ByteArray, raw.size ≤ m.session.world.capture.limit ∧ Announcement raw response := by
  have hdecides := m.session.decides_turn host (m.arrival host)
  rw [Moment.turn] at h
  generalize m.session.turn host (m.arrival host) = t at h hdecides
  cases hdecides with
  | quiet | broken | waiting => cases h
  | noObject =>
      cases h
      cases hsuccess
  | started hstart =>
      cases h
      -- a start of the engine is answered by other kinds of answers
      rcases Worker.startEngine_kind hstart with ⟨version, rfl⟩ | ⟨message, rfl⟩
      · cases hsuccess
      · cases hsuccess
  | @file request reply world hconvert =>
      cases h
      obtain rfl : _ = reply := congrArg Prod.fst hconvert
      exact Worker.convert_announces hcapture hsuccess
  | @document request document reason reply pdf world hconvert _ =>
      cases h
      obtain rfl : _ = reply := congrArg (·.1.1) hconvert
      exact Worker.convertDocument_announces_of_success hcapture hsuccess

namespace Worker

/-- **A conversion is always announced.** Whatever a conversion has printed, the answer that tells of
its success takes at most thirty-two octets for each octet that was caught and 256 more. So in all
runs of a worker that captures the error stream up to the default limit, no such answer is refused
for its size, whatever the engine prints and whatever the system does with the stream. -/
theorem announcements_fit :
    (∀ (raw : ByteArray) (id : Int64),
      (Response.result (.ok id (LogLine.ofOctets raw))).encode.size ≤ 32 * raw.size + 256)
    ∧ (∀ (raw : ByteArray) (id : Int64) (size : UInt64),
      (Response.bufferResult (.ok id size (LogLine.ofOctets raw))).encode.size
        ≤ 32 * raw.size + 256)
    ∧ ∀ {ε δ : Type} (host : Host ε δ StderrCapture) (phase : Phase)
      (world : World ε StderrCapture) (visits : List Visit), host.capture = .stderr →
      world.capture.limit = Limits.capture →
      ∀ m ∈ lifetime host phase world visits, ∀ response, (m.turn host).response = some response →
        response.succeeded = true →
        response.encode.size ≤ 32 * Limits.capture + 256
          ∧ ∀ sink size ceiling,
            (Frame.write response.encode sink).1 ≠ .error (.frameTooLarge size ceiling) := by
  refine ⟨fun raw id => (Announcement.file id).size_encode_le,
    fun raw id size => (Announcement.document id size).size_encode_le, ?_⟩
  intro ε δ host phase world visits hcapture hdefault m hm response hresponse hsuccess
  have hlimit : m.session.world.capture.limit = Limits.capture := by
    refine keeps_lifetime host (P := fun world => world.capture.limit = Limits.capture) ?_ ?_ phase
      hdefault visits m hm
    · exact fun m h => (m.limit_next hcapture).trans h
    · exact fun s h => s.limit_close.trans h
  obtain ⟨raw, hraw, hannounces⟩ := m.announces hcapture hresponse hsuccess
  have hsize : response.encode.size ≤ 32 * Limits.capture + 256 := by
    have hencode := hannounces.size_encode_le
    omega
  have hfits : 32 * Limits.capture + 256 ≤ Limits.frame := by decide
  exact ⟨hsize, Frame.write_ne_frameTooLarge (Nat.le_trans hsize hfits)⟩

/-! ## An engine that prints a warning -/

/-- A host whose error stream is caught. -/
def listening : Host ScriptedEngine ScriptedConversion StderrCapture :=
  ⟨.linux, {}, .scripted, .stderr⟩

/-- The engine prints a warning while it loads the one file that there is. -/
def printing : World ScriptedEngine StderrCapture where
  files := { entries := [(["a.docx"], .file ⟨#[1]⟩)], here := [] }
  environment := {}
  engine := { conversions := [{ loadChatter := "warn:vcl:7:old".toUTF8, keepsOutput := true }] }
  capture := {}

def fileRequest : FileRequest := { input := some "a.docx", output := some "a.pdf" }

/-- The worker is asked to convert that file. -/
def asked : Moment ScriptedEngine StderrCapture where
  session := ⟨.ready, none, printing, {}⟩
  source := .ofOctets (Frame.encode (Request.convert fileRequest).encode)

theorem success_fileRequest :
    (convert listening fileRequest .ready printing).1.success = true := by
  have hinput : given fileRequest.input = some "a.docx" := by decide
  have houtput : given fileRequest.output = some "a.pdf" := by decide
  have hholds : (printing.startCapture listening).2.files.holds "a.docx" = true := by
    show printing.files.holds "a.docx" = true
    rw [FileTree.holds, FileTree.get,
      FileTree.place_eq_follow (by decide) (by decide) (by decide)]
    decide +kernel
  have hresult := captured_result listening
    (Conversion.convertFile listening "a.docx" "a.pdf" fileRequest.format fileRequest.options)
    printing
  rw [Conversion.convertFile, if_pos hholds] at hresult
  simp only [convert, hinput, houtput]
  revert hresult
  rcases captured listening _ printing with ⟨e | u, diagnostics, next⟩
  · rintro ⟨⟩
  · exact fun _ => rfl

theorem response_asked : (asked.turn listening).response
    = some (.result (convert listening fileRequest .ready printing).1) := by
  have hsize : (Request.convert fileRequest).encode.size ≤ Limits.frame := by decide +kernel
  obtain ⟨-, hrequest, -⟩ := Moment.request?_of_encode listening (m := asked) rfl hsize (by decide)
    (List.append_nil _).symm
  rw [Moment.turn, Session.turn_of_request listening hrequest]
  rfl

/-- **A conversion is announced although the engine prints.** -/
theorem announcements_fit_of_warning :
    listening.capture = .stderr ∧ printing.capture.limit = Limits.capture
      ∧ asked ∈ lifetime listening .ready printing [⟨asked.source, {}⟩]
      ∧ ∃ response, (asked.turn listening).response = some response
        ∧ response.succeeded = true ∧ response.encode.size ≤ 32 * Limits.capture + 256 := by
  have hmem : asked ∈ lifetime listening .ready printing [⟨asked.source, {}⟩] :=
    mem_lifetime_of_mem_turns listening (mem_turns_self listening asked)
  obtain ⟨hsize, -⟩ := announcements_fit.2.2 listening .ready printing [⟨asked.source, {}⟩] rfl rfl
    asked hmem _ response_asked success_fileRequest
  exact ⟨rfl, rfl, hmem, _, response_asked, success_fileRequest, hsize⟩

end Worker

end PdfWorker
