import PdfWorker.Capture.ErrorStream
import PdfWorker.Proofs.Capture.Drain
set_option autoImplicit false

/-! # What a capture of the error stream catches

A history of starts, stops, readings and writes tells by itself whether the stream is redirected
(`redirected`), what was caught and is still to be read (`caught`), and what went where the stream
led at first (`passed`). `after_history` says that a capture does just that, as long as the system
grants what it is asked for and no pipe runs full below the limit. The three shapes that a capture
may have are the constructors of `Told`, and each act leads from one of them to another
(`Follows.perform`).
-/

namespace PdfWorker.StderrCapture

/-! ## The limit -/

theorem limit_stop (s : StderrCapture) : s.stop.2.limit = s.limit := by
  unfold stop
  split
  · split <;> rfl
  · rfl

theorem limit_start (s : StderrCapture) : s.start.2.limit = s.limit := by
  have hstop := s.limit_stop
  unfold start
  split
  · rename_i heq
    rw [heq] at hstop
    exact hstop
  · rename_i heq
    rw [heq] at hstop
    dsimp only
    split <;> exact hstop

theorem limit_read (s : StderrCapture) : s.read.2.limit = s.limit := by
  unfold read
  dsimp only
  split <;> exact s.limit_stop

/-- **A reading keeps to the limit**, whatever is in the pipe. -/
theorem size_read_le (s : StderrCapture) : s.read.1.size ≤ s.limit := by
  unfold read
  dsimp only
  split
  · rw [Capture.drain_eq, List.size_toByteArray]
    exact List.length_take_le ..
  · exact Nat.zero_le _

/-! ## Histories -/

/-- What is done about the error stream. -/
inductive Act where
  | start
  | stop
  | read
  | write (octets : ByteArray)

/-- The process behind one act. -/
def perform (act : Act) (s : StderrCapture) : StderrCapture :=
  match act with
  | .start => s.start.2
  | .stop => s.stop.2
  | .read => s.read.2
  | .write octets => s.write octets

/-- The process behind a history. The newest act comes first. -/
def after (s : StderrCapture) (history : List Act) : StderrCapture := history.foldr perform s

/-- Whether the stream is redirected: behind a start, up to the next stop or reading. -/
def redirected : List Act → Bool
  | [] => false
  | .start :: _ => true
  | .stop :: _ => false
  | .read :: _ => false
  | .write _ :: earlier => redirected earlier

/-- **What was caught and is still to be read**: what was written to the redirected stream since the
last start, unless a reading has followed it. -/
def caught : List Act → List UInt8
  | [] => []
  | .start :: _ => []
  | .stop :: earlier => caught earlier
  | .read :: _ => []
  | .write octets :: earlier =>
    caught earlier ++ if redirected earlier then octets.data.toList else []

/-- **What went where the stream led at first**: what was written while it was not redirected. -/
def passed : List Act → List UInt8
  | [] => []
  | .write octets :: earlier =>
    passed earlier ++ if redirected earlier then [] else octets.data.toList
  | _ :: earlier => passed earlier

/-! ## Shapes of a capture -/

/-- The system grants what it is asked for, and a pipe takes what is written up to the limit. -/
structure Granted (s : StderrCapture) : Prop where
  answers : ∀ answer ∈ s.stream.answers, answer = none
  room : ∀ held octets, min octets.size (s.limit - held.size) ≤ s.stream.takes held octets

/-- What the pipe holds and what was caught have the same front, up to the limit. -/
def Holds (s : StderrCapture) (pipe : Nat) (history : List Act) : Prop :=
  (s.stream.held pipe).data.toList.take s.limit = (caught history).take s.limit

/-- **The shapes of a capture**, and what the history tells in each: there is none, it is going on,
or it was stopped and not read. In each the stream led where it led at first before the capture. -/
inductive Told (history : List Act) (s : StderrCapture) : Prop where
  | idle (catching : s.catching = none) (target : s.stream.target = .own)
      (plain : redirected history = false) (nothing : caught history = [])
  | active {pipe : Nat} (catching : s.catching = some ⟨.own, pipe, true⟩)
      (target : s.stream.target = .pipe pipe) (made : pipe < s.stream.pipes.size)
      (redirected : redirected history = true) (holds : s.Holds pipe history)
  | unread {pipe : Nat} (catching : s.catching = some ⟨.own, pipe, false⟩)
      (target : s.stream.target = .own) (plain : redirected history = false)
      (holds : s.Holds pipe history)

/-- **The process is what the history tells**, with the limit and the pipes of the first. -/
structure Follows (first : StderrCapture) (history : List Act) (s : StderrCapture) : Prop where
  told : s.Told history
  granted : s.Granted
  limit : s.limit = first.limit
  passed : s.stream.passed.data.toList = first.stream.passed.data.toList ++ passed history

variable {first s : StderrCapture} {history : List Act}

theorem redirect_of_granted {stream : ErrorStream} (h : ∀ answer ∈ stream.answers, answer = none)
    (target : Target) :
    stream.redirect target
      = (.ok (), { stream with target, answers := stream.answers.drop 1 }) := by
  unfold ErrorStream.redirect
  split
  · rename_i fault rest heq
    cases h _ (heq ▸ List.mem_cons_self ..)
  · rfl

theorem granted_drop {answers : List (Option Fault)} (h : ∀ answer ∈ answers, answer = none) :
    ∀ answer ∈ answers.drop 1, answer = none :=
  fun answer ha => h answer (List.mem_of_mem_drop ha)

/-- **Stopping** leads the stream back and keeps what was caught. -/
theorem Follows.stop (h : Follows first history s) :
    s.stop.1 = .ok () ∧ Follows first (.stop :: history) s.stop.2
      ∧ s.stop.2.stream.target = .own := by
  obtain ⟨told, granted, limit, hpassed⟩ := h
  cases told with
  | idle catching target plain nothing =>
      have hstop : s.stop = (.ok (), s) := by simp only [StderrCapture.stop, catching]
      rw [hstop]
      exact ⟨rfl, ⟨.idle catching target rfl nothing, granted, limit, hpassed⟩, target⟩
  | @active pipe catching target made redirected holds =>
      have hstop : s.stop = (.ok (), { s with
          catching := some ⟨.own, pipe, false⟩
          stream := { s.stream with target := .own, answers := s.stream.answers.drop 1 } }) := by
        simp only [StderrCapture.stop, catching, if_true, redirect_of_granted granted.answers]
      rw [hstop]
      exact ⟨rfl, ⟨.unread rfl rfl rfl holds, ⟨granted_drop granted.answers, granted.room⟩, limit,
        hpassed⟩, rfl⟩
  | unread catching target plain holds =>
      have hstop : s.stop = (.ok (), s) := by
        simp only [StderrCapture.stop, catching, Bool.false_eq_true, if_false]
      rw [hstop]
      exact ⟨rfl, ⟨.unread catching target rfl holds, granted, limit, hpassed⟩, target⟩

/-- **Starting** leads the stream into an empty pipe, whatever was caught before. -/
theorem Follows.start (h : Follows first history s) :
    s.start.1 = .ok () ∧ Follows first (.start :: history) s.start.2 := by
  obtain ⟨hok, ⟨-, granted, limit, hpassed⟩, target⟩ := h.stop
  rcases hstop : s.stop with ⟨result, stopped⟩
  rw [hstop] at hok granted limit hpassed target
  dsimp only at hok granted limit hpassed target
  -- the pipe is made behind the stop, so the stream that is remembered is the own one
  have hstart : s.start = (.ok (), { stopped with
      catching := some ⟨.own, stopped.stream.pipes.size, true⟩
      stream := { stopped.stream with
        target := .pipe stopped.stream.pipes.size
        pipes := stopped.stream.pipes.push .empty
        answers := stopped.stream.answers.drop 1 } }) := by
    have hanswers : ∀ answer ∈ stopped.stream.makePipe.2.answers, answer = none := granted.answers
    simp only [StderrCapture.start, hstop, hok, redirect_of_granted hanswers, target]
    rfl
  rw [hstart]
  refine ⟨rfl, ⟨.active rfl rfl ?_ rfl ?_, ⟨granted_drop granted.answers, granted.room⟩, limit,
    hpassed⟩⟩
  · rw [Array.size_push]
    omega
  · simp only [Holds, ErrorStream.held, Array.getElem?_push_size, Option.getD_some, caught]
    rfl

/-- **Reading** gives what was caught, up to the limit, and nothing is left. -/
theorem Follows.read (h : Follows first history s) :
    s.read.1 = ((caught history).take first.limit).toByteArray
      ∧ Follows first (.read :: history) s.read.2 := by
  obtain ⟨-, ⟨told, granted, limit, hpassed⟩, target⟩ := h.stop
  cases told with
  | idle catching _ plain nothing =>
      have hread : s.read = (.empty, s.stop.2) := by simp only [StderrCapture.read, catching]
      have hnothing : caught history = [] := nothing
      rw [hread, hnothing, List.take_nil]
      exact ⟨rfl, .idle catching target rfl rfl, granted, limit, hpassed⟩
  | active _ _ _ redirected _ => cases redirected
  | @unread pipe catching _ plain holds =>
      have hread : s.read = ((Capture.drain s.limit Limits.captureChunk
          (.ofOctets (s.stop.2.stream.held pipe))).1, { s.stop.2 with catching := none }) := by
        simp only [StderrCapture.read, catching]
      rw [hread]
      refine ⟨?_, .idle rfl target rfl rfl, ⟨granted.answers, granted.room⟩, limit, hpassed⟩
      have hholds : (s.stop.2.stream.held pipe).data.toList.take first.limit
          = (caught history).take first.limit := limit ▸ holds
      rw [Capture.drain_eq, Source.octets_stream_ofOctets, h.limit, hholds]

/-- What a pipe takes of a write does not matter behind the limit. -/
theorem take_append_takes {held octets : ByteArray} {before : List UInt8} {limit taken : Nat}
    (hfront : held.data.toList.take limit = before.take limit)
    (hroom : min octets.size (limit - held.size) ≤ taken) :
    (held ++ octets.extract 0 taken).data.toList.take limit
      = (before ++ octets.data.toList).take limit := by
  have htaken : (octets.extract 0 taken).data.toList = octets.data.toList.take taken := by
    rw [ByteArray.data_extract, Array.toList_extract, List.extract_eq_take_drop, Nat.sub_zero,
      List.drop_zero]
  have hsize : held.data.toList.length = held.size := held.data.length_toList
  have hlength := congrArg List.length hfront
  rw [List.length_take, List.length_take] at hlength
  rw [ByteArray.data_append, Array.toList_append, htaken, List.take_append, List.take_append,
    hfront]
  rcases Nat.lt_or_ge held.size limit with hlt | hge
  · -- nothing was cut off yet, so both are what is held
    have hoctets : octets.data.toList.length = octets.size := octets.data.length_toList
    have hbefore : before.length = held.data.toList.length := by omega
    have htake : (octets.data.toList.take taken).take (limit - held.size)
        = octets.data.toList.take (limit - held.size) := by
      rw [List.take_take, List.take_eq_take_iff]
      omega
    rw [hbefore, hsize, htake]
  · have hbefore : limit ≤ before.length := by omega
    rw [Nat.sub_eq_zero_of_le hbefore, Nat.sub_eq_zero_of_le (hsize ▸ hge), List.take_zero,
      List.take_zero]

/-- **Writing** goes where the stream leads. -/
theorem Follows.write (h : Follows first history s) (octets : ByteArray) :
    Follows first (.write octets :: history) (s.write octets) := by
  obtain ⟨told, granted, limit, hpassed⟩ := h
  have hplain : redirected history = false → s.stream.target = .own →
      s.write octets = { s with stream := { s.stream with passed := s.stream.passed ++ octets } }
        ∧ caught (.write octets :: history) = caught history
        ∧ (s.stream.passed ++ octets).data.toList
          = first.stream.passed.data.toList
            ++ StderrCapture.passed (.write octets :: history) := by
    intro plain target
    refine ⟨by simp only [StderrCapture.write, ErrorStream.write, target], ?_, ?_⟩
    · simp [caught, plain]
    · simp [StderrCapture.passed, plain, hpassed]
  cases told with
  | idle catching target plain nothing =>
      obtain ⟨hwrite, hcaught, hpassed⟩ := hplain plain target
      rw [hwrite]
      exact ⟨.idle catching target plain (hcaught.trans nothing), ⟨granted.answers, granted.room⟩,
        limit, hpassed⟩
  | unread catching target plain holds =>
      obtain ⟨hwrite, hcaught, hpassed⟩ := hplain plain target
      rw [hwrite]
      refine ⟨.unread catching target plain ?_, ⟨granted.answers, granted.room⟩, limit, hpassed⟩
      rw [Holds, hcaught]
      exact holds
  | @active pipe catching target made redirected holds =>
      have hwrite : s.stream.write octets = { s.stream with
          pipes := s.stream.pipes.modify pipe fun held =>
            held ++ octets.extract 0 (s.stream.takes held octets) } := by
        simp only [ErrorStream.write, target]
      have hheld : (s.stream.write octets).held pipe = s.stream.held pipe
          ++ octets.extract 0 (s.stream.takes (s.stream.held pipe) octets) := by
        simp only [hwrite, ErrorStream.held, Array.getElem?_modify, if_true,
          Array.getElem?_eq_getElem made, Option.map_some, Option.getD_some]
      refine ⟨.active catching ?_ ?_ redirected ?_, ⟨?_, ?_⟩, limit, ?_⟩
      · simp only [StderrCapture.write, hwrite, target]
      · simp only [StderrCapture.write, hwrite, Array.size_modify, made]
      · simp only [Holds, StderrCapture.write, hheld, caught, redirected, if_true]
        exact take_append_takes holds (granted.room _ _)
      · simpa only [StderrCapture.write, hwrite] using granted.answers
      · simpa only [StderrCapture.write, hwrite] using granted.room
      · simp only [StderrCapture.write, hwrite, StderrCapture.passed, redirected, if_true,
          List.append_nil, hpassed]

theorem Follows.perform (h : Follows first history s) (act : Act) :
    Follows first (act :: history) (s.perform act) := by
  cases act with
  | start => exact h.start.2
  | stop => exact h.stop.2.1
  | read => exact h.read.2
  | write octets => exact h.write octets

/-- The run lemma: every act leaves the process as the history tells. -/
theorem Follows.after (h : Follows first [] first) (history : List Act) :
    Follows first history (first.after history) := by
  induction history with
  | nil => exact h
  | cons act earlier ih => exact ih.perform act

theorem Follows.target_eq_own_iff (h : Follows first history s) :
    s.stream.target = .own ↔ redirected history = false := by
  cases h.told with
  | idle _ target plain _ => simp only [target, plain]
  | active _ target _ redirected _ =>
      simp only [target, redirected, reduceCtorEq, Bool.true_eq_false]
  | unread _ target plain _ => simp only [target, plain]

theorem Follows.isActive_eq (h : Follows first history s) : s.isActive = redirected history := by
  cases h.told with
  | idle catching _ plain _ => simp only [isActive, catching, plain, Option.any_none]
  | active catching _ _ redirected _ => simp only [isActive, catching, redirected, Option.any_some]
  | unread catching _ plain _ => simp only [isActive, catching, plain, Option.any_some]

/-- **A capture does what its history tells.** Behind every history of starts, stops, readings and
writes the stream is redirected just while a capture is going on; giving the capture up leads it
back; starting, stopping and reading succeed; a reading gives what was caught since the last start
and not yet read, up to the limit; and the rest went where the stream led at first. -/
theorem after_history (first : StderrCapture) (history : List Act) (granted : first.Granted)
    (idle : first.catching = none) (own : first.stream.target = .own) :
    let s := first.after history
    s.isRedirected = s.isActive ∧ s.isActive = redirected history
      ∧ s.drop.target = .own
      ∧ s.start.1 = .ok () ∧ s.stop.1 = .ok ()
      ∧ s.read.1 = ((caught history).take first.limit).toByteArray
      ∧ s.stream.passed.data.toList = first.stream.passed.data.toList ++ passed history := by
  have hfirst : Follows first [] first :=
    ⟨.idle idle own rfl rfl, granted, rfl, (List.append_nil _).symm⟩
  have h := hfirst.after history
  have hredirected : (first.after history).isRedirected = redirected history := by
    have := h.target_eq_own_iff
    cases hr : redirected history <;> simp_all [isRedirected]
  exact ⟨hredirected.trans h.isActive_eq.symm, h.isActive_eq, h.stop.2.2, h.start.1, h.stop.1,
    h.read.1, h.passed⟩

/-- What is written before the start and behind the stop passes, and of what is written between
them the limit leaves two octets. -/
theorem after_history_of_stopped :
    let first : StderrCapture := { limit := 2 }
    let s := first.after [.write ⟨#[5]⟩, .stop, .write ⟨#[2, 3, 4]⟩, .start, .write ⟨#[1]⟩]
    first.Granted ∧ s.isRedirected = false ∧ s.read.1.data.toList = [2, 3]
      ∧ s.stream.passed.data.toList = [1, 5] := by
  have granted : StderrCapture.Granted { limit := 2 } :=
    ⟨fun _ h => absurd h List.not_mem_nil, fun _ _ => Nat.min_le_left ..⟩
  obtain ⟨hactive, hredirected, -, -, -, hread, hpassed⟩ := after_history { limit := 2 }
    [.write ⟨#[5]⟩, .stop, .write ⟨#[2, 3, 4]⟩, .start, .write ⟨#[1]⟩] granted rfl rfl
  exact ⟨granted, hactive.trans hredirected, congrArg (·.data.toList) hread, hpassed⟩

end PdfWorker.StderrCapture
