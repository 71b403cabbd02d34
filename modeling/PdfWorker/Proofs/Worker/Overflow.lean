import PdfWorker.Proofs.Request
import PdfWorker.Proofs.Worker.Moderate
import PdfWorker.Proofs.Worker.Serve
set_option autoImplicit false

/-! # Answers that do not fit

A worker takes an answer that cannot be written for a sign that the supervisor is gone. On a
moderate host and with a sink that takes everything, this happens in one case only: a request asks
for a file that is not there by a path so long that the answer, which repeats it, is above the limit
on frames (`Moment.Overflows`). `run_outputFailed_iff` says so of whole runs, and that only a
request within 31 mebibytes of the limit can do that.
-/

namespace PdfWorker

variable {ε δ κ : Type}

/-- **The answer repeats a path and does not fit**: a frame asks for a file that is not there. -/
structure Session.Overlong (host : Host ε δ κ) (s : Session ε κ)
    (arrival : Except Fault Frame.Arrival) (request : FileRequest) (input : String)
    (reply : ConversionReply) : Prop where
  asked : ∃ payload, arrival = .ok (.frame payload)
    ∧ Request.decode payload = .ok (.request (.convert request))
  awaited : s.awaited = none
  misses : Worker.Misses request s.phase s.world input reply
  due : (s.turn host arrival).response = some (.result reply)
  long : Limits.frame < (Response.result reply).encode.size

/-- The worker is about to take such a turn. -/
def Moment.Overflows (host : Host ε δ κ) (m : Moment ε κ) : Prop :=
  ∃ request input reply, m.session.Overlong host (m.arrival host) request input reply

namespace Turn

theorem fits_of_none {t : Turn ε κ} (h : t.response = none) : t.Fits := by
  intro response hr
  rw [h] at hr
  cases hr

theorem fits_of_response {t : Turn ε κ} {response : Response} (h : t.response = some response)
    (hsize : response.encode.size ≤ Limits.frame) : t.Fits := by
  intro r hr
  rw [h] at hr
  cases hr
  exact hsize

/-- An answer that is due and does not fit ends the worker. -/
theorem finish_of_oversized {t : Turn ε κ} {response : Response}
    (h : t.response = some response) (hlong : Limits.frame < response.encode.size) :
    t.finish.1 = some .outputFailed := by
  have hframes : t.frames = response.encode :: t.pdf.toList := by
    rw [frames, h]
    rfl
  have hsend : (t.session.send response.encode).1 = some .outputFailed := by
    rw [Session.send, Frame.write, if_pos hlong]
  rcases hs : t.session.send response.encode with ⟨reason, next⟩
  rw [hs] at hsend
  simp only at hsend
  subst hsend
  rw [finish, hframes, Session.sendAll, hs]
  rfl

end Turn

namespace Session

variable {host : Host ε δ κ} {s : Session ε κ}

/-! ## One turn -/

/-- A turn leaves the files as they should be. -/
theorem sized_turn (hm : host.Moderate) (hs : s.world.files.Sized)
    (arrival : Except Fault Frame.Arrival) :
    (s.turn host arrival).session.world.files.Sized := by
  have h := s.decides_turn host arrival
  generalize s.turn host arrival = t at h
  cases h with
  | quiet | noObject | waiting => exact hs
  | @started request response phase world hstart =>
      have hfiles := Worker.files_startEngine host request s.phase s.world
      rw [hstart] at hfiles
      exact hfiles ▸ hs
  | @broken request phase world hstart =>
      have hfiles := Worker.files_startEngine host request s.phase s.world
      rw [hstart] at hfiles
      exact hfiles ▸ hs
  | @file request reply world hconvert =>
      have hsized := Worker.sized_convert hm request s.phase hs
      rw [hconvert] at hsized
      exact hsized
  | @document request document reason reply pdf world hconvert _ =>
      have hsized := (Worker.convertDocument_fits hm request document s.phase hs).2
      rw [hconvert] at hsized
      exact hsized

/-- The answer to a file answers a request in the frame that arrived. -/
theorem asked_of_result {arrival : Except Fault Frame.Arrival} {reply : ConversionReply}
    (h : (s.turn host arrival).response = some (.result reply)) :
    s.awaited = none ∧ ∃ payload request, arrival = .ok (.frame payload)
      ∧ Request.decode payload = .ok (.request (.convert request))
      ∧ (Worker.convert host request s.phase s.world).1 = reply := by
  unfold turn at h
  rcases hending : ending arrival with ⟨reason, payload⟩
  rw [hending] at h
  cases hawaited : s.awaited with
  | some request =>
      -- the answer to a document is of another kind
      rw [hawaited] at h
      cases h
  | none =>
      rw [hawaited] at h
      cases payload with
      | none => cases h
      | some payload =>
          have harrival : arrival = .ok (.frame payload) := by
            unfold ending at hending
            split at hending
            all_goals cases hending
            rfl
          simp only [messageTurn] at h
          refine ⟨rfl, payload, ?_⟩
          rcases hdecode : Request.decode payload with e | (request | kind)
          · rw [hdecode] at h
            cases h
          · rw [hdecode] at h
            cases request with
            | convert request =>
                cases h
                exact ⟨request, harrival, rfl, rfl⟩
            | init request =>
                simp only [answerTurn] at h
                rcases Worker.startEngine_cases host request s.phase s.world with
                  ⟨-, hstart⟩ | ⟨-, -, version, world', hstart⟩ | ⟨-, message, world', hstart⟩
                all_goals
                  rw [hstart] at h
                  cases h
            | convertBuffer request => cases h
            | quit => cases h
          · rw [hdecode] at h
            cases h

/-- **An answer fits**, or it repeats the path of a file that is not there. -/
theorem turn_fits (hm : host.Moderate) (hs : s.world.files.Sized)
    (arrival : Except Fault Frame.Arrival) :
    (s.turn host arrival).Fits
      ∨ ∃ request input reply, s.Overlong host arrival request input reply := by
  have h := s.decides_turn host arrival
  generalize hturn : s.turn host arrival = t at h
  cases h with
  | quiet | broken | waiting => exact .inl (Turn.fits_of_none rfl)
  | noObject =>
      have hsize := Response.size_encode_error_le "Invalid JSON message"
      have hlength : "Invalid JSON message".toList.length = 20 := by decide
      have hlarge : 149 ≤ Limits.frame := by decide
      exact .inl (Turn.fits_of_response rfl (by omega))
  | started hstart => exact .inl (Turn.fits_of_response rfl (Worker.startEngine_fits hm hstart))
  | @document request document reason reply pdf world hconvert _ =>
      have hsize := (Worker.convertDocument_fits hm request document s.phase hs).1
      rw [hconvert] at hsize
      exact .inl (Turn.fits_of_response rfl hsize)
  | @file request' reply world =>
      have hdue : (s.turn host arrival).response = some (.result reply) := by rw [hturn]
      obtain ⟨hawaited, payload, request, harrival, hdecode, rfl⟩ := asked_of_result hdue
      rcases Worker.convert_fits hm (rfl : Worker.convert host request s.phase s.world = _) with
        hsize | ⟨input, hmisses⟩
      · exact .inl (Turn.fits_of_response rfl hsize)
      · by_cases hlong : (Response.result
          (Worker.convert host request s.phase s.world).1).encode.size ≤ Limits.frame
        · exact .inl (Turn.fits_of_response rfl hlong)
        · refine .inr ⟨request, input, _, ⟨payload, harrival, hdecode⟩, hawaited, hmisses, hdue, ?_⟩
          exact Nat.lt_of_not_le hlong

/-! ## Requests that are too long -/

/-- The answer that does not fit is little longer than the request. -/
theorem Overlong.near {arrival : Except Fault Frame.Arrival} {request : FileRequest}
    {input : String} {reply : ConversionReply}
    (h : s.Overlong host arrival request input reply) :
    ∃ payload, arrival = .ok (.frame payload) ∧ Limits.frame < payload.size + 31 * mebibyte := by
  obtain ⟨payload, harrival, hdecode⟩ := h.asked
  obtain ⟨diagnostics, hreply, hdiagnostics⟩ := h.misses.told
  refine ⟨payload, harrival, ?_⟩
  have hgiven : request.input = some input := by
    have hfilter := h.misses.given
    exact (Option.filter_eq_some_iff.mp hfilter).1
  -- the path takes no more in the answer than it took in the request
  have hinput := Request.octets_input_le hdecode hgiven
  have hmessage : Response.messageSize (some ("Input file not found: " ++ input)) + 2
      = 24 + Text.octets (Json.quote input) := by
    have hprefix : Text.octets (Json.quote "Input file not found: ") = 24 := by decide
    rw [← hprefix]
    exact Json.octets_quote_append "Input file not found: " input
  have hsize := Response.size_encode_result_le reply
  have hlong := h.long
  have hmebibyte : mebibyte = 1048576 := rfl
  rw [hreply] at hsize hlong
  simp only [ConversionReply.failed, Conversion.missing] at hsize hlong
  omega

end Session

namespace Worker

variable {host : Host ε δ κ}

/-! ## Whole runs -/

/-- The files stay as they should be, and the sink goes on to take everything. -/
theorem sound_next (hm : host.Moderate) (m : Moment ε κ)
    (h : m.session.world.files.Sized ∧ m.session.sink.Accepts) :
    (m.next host).world.files.Sized ∧ (m.next host).sink.Accepts := by
  have hsized := Session.sized_turn hm h.1 (m.arrival host)
  have hsink : (m.turn host).session.sink = m.session.sink := Session.sink_turn ..
  constructor
  · obtain ⟨sink, log, hnext⟩ := m.next_eq host
    rw [hnext]
    exact hsized
  · exact Session.accepts_sendAll _ (hsink ▸ h.2)

/-- A turn that does not overflow ends as it was decided. -/
theorem finish_of_not_overflows (hm : host.Moderate) {m : Moment ε κ}
    (hs : m.session.world.files.Sized) (hk : m.session.sink.Accepts) (h : ¬ m.Overflows host) :
    (m.turn host).Fits ∧ (m.turn host).finish.1 = (m.turn host).reason := by
  have hfits : (m.turn host).Fits := (m.session.turn_fits hm hs (m.arrival host)).resolve_right h
  exact ⟨hfits, (Session.finish_of_accepts hk hfits rfl).1⟩

/-- A turn that overflows ends the worker. -/
theorem finish_of_overflows {m : Moment ε κ} (h : m.Overflows host) :
    (m.turn host).finish.1 = some .outputFailed := by
  obtain ⟨request, input, reply, hlong⟩ := h
  exact Turn.finish_of_oversized hlong.due hlong.long

/-- **Serving ends for want of output** exactly if a turn overflows, and every other turn ends as it
was decided. -/
theorem serve_outputFailed_iff (hm : host.Moderate) (m : Moment ε κ) :
    m.session.world.files.Sized → m.session.sink.Accepts →
    ((serve host m.session m.source).1 = .outputFailed
        ↔ ∃ m' ∈ turns host m.session m.source, m'.Overflows host)
      ∧ ∀ m' ∈ turns host m.session m.source, ¬ m'.Overflows host →
        (m'.turn host).Fits ∧ (m'.turn host).finish.1 = (m'.turn host).reason := by
  intro hs hk
  obtain ⟨hsound, -⟩ := keeps_serve host
    (P := fun s => s.world.files.Sized ∧ s.sink.Accepts) (sound_next hm) m ⟨hs, hk⟩
  have hothers : ∀ m' ∈ turns host m.session m.source, ¬ m'.Overflows host →
      (m'.turn host).Fits ∧ (m'.turn host).finish.1 = (m'.turn host).reason := by
    intro m' hm' hover
    exact finish_of_not_overflows hm (hsound m' hm').1 (hsound m' hm').2 hover
  refine ⟨?_, hothers⟩
  rw [serve_reason_iff]
  constructor
  · rintro ⟨m', hm', hfinish⟩
    by_contra hnone
    -- no turn is decided to end so, and this one ends as it was decided
    have hover : ¬ m'.Overflows host := fun hyes => hnone ⟨m', hm', hyes⟩
    rw [(hothers m' hm' hover).2] at hfinish
    exact Session.reason_turn_ne host (m'.arrival host) m'.session hfinish
  · rintro ⟨m', hm', hover⟩
    exact ⟨m', hm', finish_of_overflows hover⟩

/-- What a worker reads as a frame is no longer than its ceiling. -/
theorem size_le_of_arrival {m : Moment ε κ} {payload : ByteArray}
    (h : m.arrival host = .ok (.frame payload)) : payload.size ≤ host.settings.maxFrame := by
  have hread := (Frame.read_eq host.settings.maxFrame m.source).1
  obtain ⟨hsize, htold, -⟩ := Stream.next_eq_frame (hread.symm.trans h)
  omega

/-- **When a worker takes its supervisor for gone.** On a moderate host, with files of sizes that a
machine can tell and a sink that takes everything, a run ends for want of output exactly if one of
its turns repeats the path of a missing file in an answer that does not fit. Every other turn has an
answer that fits and ends as it was decided. Only a request within 31 mebibytes of the limit on
frames has such an answer, so a worker with a lower ceiling never takes its supervisor for gone. -/
theorem run_outputFailed_iff (hm : host.Moderate) (s : Session ε κ) (hs : s.world.files.Sized)
    (hk : s.sink.Accepts) (source : Source) :
    ((run host s source).1 = .outputFailed ↔ ∃ m ∈ turns host s source, m.Overflows host)
      ∧ (∀ m ∈ turns host s source, ¬ m.Overflows host →
        (m.turn host).Fits ∧ (m.turn host).finish.1 = (m.turn host).reason)
      ∧ (∀ m : Moment ε κ, m.Overflows host → ∃ payload, m.arrival host = .ok (.frame payload)
        ∧ Limits.frame < payload.size + 31 * mebibyte)
      ∧ (host.settings.maxFrame + 31 * mebibyte ≤ Limits.frame →
        (run host s source).1 ≠ .outputFailed) := by
  obtain ⟨hiff, hothers⟩ := serve_outputFailed_iff hm ⟨s, source⟩ hs hk
  have hnear : ∀ m : Moment ε κ, m.Overflows host → ∃ payload,
      m.arrival host = .ok (.frame payload) ∧ Limits.frame < payload.size + 31 * mebibyte := by
    rintro m ⟨request, input, reply, hlong⟩
    exact hlong.near
  refine ⟨hiff, hothers, hnear, ?_⟩
  intro hceiling hfailed
  obtain ⟨m, -, hover⟩ := hiff.mp hfailed
  obtain ⟨payload, harrival, hlarge⟩ := hnear m hover
  have hsize := size_le_of_arrival harrival
  omega

/-! ## A path that is too long -/

/-- A host whose engine starts and loads nothing. -/
def idle : Host Unit Empty Unit :=
  ⟨.linux, {}, { Engine.missing with launch := fun state _ _ _ => (.ok "24.8.0", state) }, .none⟩

theorem moderate_idle : idle.Moderate where
  version h := by
    cases h
    decide
  launchError h := by cases h
  loadError h := by
    cases h
    decide
  exportError h := by cases h
  loadFiles h := h
  exportFiles h := h
  caught := Nat.zero_le _

/-- A worker on it whose engine has started. -/
def started : Session Unit Unit :=
  ⟨.ready, none, ⟨{ entries := [], here := [] }, {}, (), (), #[]⟩, {}⟩

/-- A path of so many characters. -/
def longPath (n : Nat) : String := String.ofList (List.replicate n 'a')

/-- The request to convert the file at that path. -/
def longRequest (n : Nat) : FileRequest := { input := some (longPath n), output := some "o" }

/-- The frame of this request. -/
def longSource (n : Nat) : Source :=
  ⟨[.octets (Frame.encode (Request.convert (longRequest n)).encode)], 0⟩

/-- The answer to it. -/
def longReply (n : Nat) : ConversionReply := .failed 0 (Conversion.missing (longPath n)) []

theorem octets_quote_longPath (n : Nat) : Text.octets (Json.quote (longPath n)) = n + 2 := by
  have ha : Json.escape 'a' = ['a'] := rfl
  have hsize : ('a' : Char).utf8Size = 1 := rfl
  rw [Json.octets_quote, longPath, String.toList_ofList]
  induction n with
  | zero => rfl
  | succ n ih =>
      rw [List.replicate_succ, List.flatMap_cons, Text.octets_append, ha, Text.octets_cons,
        Text.octets_nil, hsize]
      omega

theorem size_longRequest (n : Nat) : (Request.convert (longRequest n)).encode.size = n + 73 := by
  have hinput : Json.memberSize ("input", .str (longPath n)) = n + 11 := by
    have hkey : Text.octets (Json.quote "input") = 7 := by decide
    have hvalue : (Json.str (longPath n)).size = n + 2 := octets_quote_longPath n
    simp only [Json.memberSize, hkey, hvalue]
    omega
  have hbefore : Json.memberSize ("type", .str "convert") + Json.memberSize ("id", .int 0)
      = 24 := by decide
  have hbehind : Json.memberSize ("output", .str "o") + (Json.memberSize ("format", .int 0)
      + Json.memberSize ("options", .obj [])) = 37 := by
    decide
  have hmembers : (Request.convert (longRequest n)).toJson = .obj [("type", .str "convert"),
      ("id", .int 0), ("input", .str (longPath n)), ("output", .str "o"), ("format", .int 0),
      ("options", .obj [])] := rfl
  rw [Request.encode, Json.size_encode, hmembers, Json.size_obj_cons]
  simp only [List.map_cons, List.map_nil, List.sum_cons, List.sum_nil, hinput]
  omega

theorem size_longReply (n : Nat) : (Response.result (longReply n)).encode.size = n + 113 := by
  have hmessage : Json.memberSize ("error_message", .str ("Input file not found: " ++ longPath n))
      = n + 41 := by
    have hkey : Text.octets (Json.quote "error_message") = 15 := by decide
    have hprefix : Text.octets (Json.quote "Input file not found: ") = 24 := by decide
    have hquote := Json.octets_quote_append "Input file not found: " (longPath n)
    have hvalue : (Json.str ("Input file not found: " ++ longPath n)).size
        = Text.octets (Json.quote ("Input file not found: " ++ longPath n)) := rfl
    have hpath := octets_quote_longPath n
    simp only [Json.memberSize, hkey, hvalue]
    omega
  have hbefore : Json.memberSize ("type", .str "result") + (Json.memberSize ("id", .int 0)
      + (Json.memberSize ("success", .bool false) + Json.memberSize ("error_code", .int 5)))
      = 54 := by decide
  have hbehind : Json.memberSize ("diagnostics", .arr []) = 17 := by decide
  have hmembers : (Response.result (longReply n)).toJson = .obj [("type", .str "result"),
      ("id", .int 0), ("success", .bool false), ("error_code", .int 5),
      ("error_message", .str ("Input file not found: " ++ longPath n)),
      ("diagnostics", .arr [])] := rfl
  rw [Response.encode, Json.size_encode, hmembers, Json.size_obj_cons]
  simp only [List.map_cons, List.map_nil, List.sum_cons, List.sum_nil, hmessage]
  omega

theorem given_longPath {n : Nat} (h : 0 < n) : given (some (longPath n)) = some (longPath n) := by
  have hne : longPath n ≠ "" := by
    intro heq
    have hlength := congrArg (fun path => path.toList.length) heq
    simp only [longPath, String.toList_ofList, List.length_replicate] at hlength
    exact absurd hlength (Nat.ne_of_gt h)
  exact Option.filter_eq_some_iff.mpr ⟨rfl, decide_eq_true hne⟩

/-- Nothing is found at a path that is too long for the system. -/
theorem missing_longPath {n : Nat} (h : FileTree.pathBound ≤ n) (files : FileTree) :
    files.holds (longPath n) = false := by
  refine FileTree.not_holds_of_long ?_
  have hlength := Text.length_le_utf8ByteSize (longPath n)
  rw [longPath, String.toList_ofList, List.length_replicate] at hlength
  exact Nat.le_trans h hlength

theorem given_output (n : Nat) : given (longRequest n).output = some "o" := by
  show given (some "o") = some "o"
  decide

theorem convert_longRequest {n : Nat} (h : FileTree.pathBound ≤ n) :
    (convert idle (longRequest n) .ready started.world).1 = longReply n := by
  have hgiven : given (longRequest n).input = some (longPath n) :=
    given_longPath (Nat.lt_of_lt_of_le (by decide) h)
  have hquiet : (captured idle (Conversion.convertFile idle (longPath n) "o" .unknown {})
      started.world).2.1 = [] := LogLine.ofOctets_empty
  rw [convert_of_missing hgiven (given_output n) (missing_longPath h _)]
  exact congrArg (ConversionReply.failed 0 (Conversion.missing (longPath n))) hquiet

/-- The request is a frame, and the answer is not. -/
theorem overflows_longSource {n : Nat} (hlong : FileTree.pathBound ≤ n)
    (hframe : n + 73 ≤ Limits.frame) (hover : Limits.frame < n + 113) :
    (Moment.mk started (longSource n)).Overflows idle := by
  have hsize := size_longRequest n
  have hlimit : Limits.frame < UInt32.size := by decide
  have hstream : (longSource n).stream.octets
      = (Frame.encode (Request.convert (longRequest n)).encode).data.toList ++ [] := rfl
  have harrival : (Moment.mk started (longSource n)).arrival idle
      = .ok (.frame (Request.convert (longRequest n)).encode) :=
    (Frame.read_eq Limits.frame (longSource n)).1.trans
      (Stream.next_of_encode (by omega) (by omega) hstream).1
  have hdecode : Request.decode (Request.convert (longRequest n)).encode
      = .ok (.request (.convert (longRequest n))) :=
    Request.decode_encode (.convert (longRequest n))
  have hdue : ((Moment.mk started (longSource n)).turn idle).response
      = some (.result (longReply n)) := by
    have hreply := convert_longRequest hlong
    rw [Moment.turn, harrival]
    show (started.messageTurn idle (Request.convert (longRequest n)).encode).response = _
    rw [Session.messageTurn, hdecode, ← hreply]
    rfl
  refine ⟨longRequest n, longPath n, longReply n, ⟨_, harrival, hdecode⟩, rfl, ?_, hdue, ?_⟩
  · refine ⟨rfl, ?_, ?_, missing_longPath hlong _, [], rfl, ?_⟩
    · exact given_longPath (Nat.lt_of_lt_of_le (by decide) hlong)
    · rw [given_output]
      rfl
    · decide
  · rw [size_longReply]
    exact hover

/-- **A supervisor that is there is taken for gone**: it asks for a file by a path that leaves room
for a hundred octets in a frame. -/
theorem run_outputFailed_of_long_path : idle.Moderate ∧ started.world.files.Sized
    ∧ started.sink.Accepts
    ∧ (run idle started (longSource (Limits.frame - 100))).1 = .outputFailed := by
  have hsized : started.world.files.Sized := fun _ _ hmem => absurd hmem List.not_mem_nil
  have haccepts : started.sink.Accepts := Sink.accepts_default .empty
  have hover : (Moment.mk started (longSource (Limits.frame - 100))).Overflows idle :=
    overflows_longSource (by decide) (by decide) (by decide)
  have hfirst : Moment.mk started (longSource (Limits.frame - 100))
      ∈ turns idle started (longSource (Limits.frame - 100)) := by
    rw [turns]
    exact List.mem_cons_self ..
  exact ⟨moderate_idle, hsized, haccepts,
    (run_outputFailed_iff moderate_idle started hsized haccepts _).1.mpr ⟨_, hfirst, hover⟩⟩

end Worker

end PdfWorker
