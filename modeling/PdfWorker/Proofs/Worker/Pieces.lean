import PdfWorker.Proofs.Worker.Serve
set_option autoImplicit false

/-! # Input that comes in pieces

A pipe may cut its octets anywhere and interrupt any read. A worker sees nothing of that: it reads
frames, and what arrives where a frame is expected depends on the stream alone. Two sources whose
streams are `Stream.Alike` lead a worker through the same turns, and `run_eq_of_alike` says so of
whole runs. `Source.streamOf_cut` and `Source.streamOf_interrupted` are the two ways to take a
source to pieces.
-/

namespace PdfWorker

namespace Stream

/-- **The same octets, ended the same way**: by the end, or by a fault of the same kind. -/
structure Alike (a b : Stream) : Prop where
  octets : a.octets = b.octets
  fault : a.fault.map Fault.kind = b.fault.map Fault.kind

namespace Alike

variable {a b : Stream}

theorem drop (h : Alike a b) (n : Nat) : Alike (a.drop n) (b.drop n) :=
  ⟨by rw [octets_drop, octets_drop, h.octets], h.fault⟩

theorem told_eq (h : Alike a b) : a.told = b.told := by
  rw [told, told, h.octets]

theorem taken_eq (h : Alike a b) (max : Nat) : a.taken max = b.taken max := by
  rw [taken, taken, h.told_eq, h.octets]

/-- Both streams stop without a fault, or both with one of the same kind. -/
theorem broken (h : Alike a b) : a.broken = b.broken
    ∨ ∃ f g, a.broken = .error f ∧ b.broken = .error g ∧ f.kind = g.kind := by
  have hfault := h.fault
  unfold Stream.broken
  cases ha : a.fault with
  | none =>
      cases hb : b.fault with
      | none => exact .inl rfl
      | some g =>
          rw [ha, hb] at hfault
          cases hfault
  | some f =>
      cases hb : b.fault with
      | none =>
          rw [ha, hb] at hfault
          cases hfault
      | some g =>
          rw [ha, hb] at hfault
          exact .inr ⟨f, g, rfl, rfl, Option.some.inj hfault⟩

/-- The same arrives, but for what a fault tells about itself. -/
theorem next (h : Alike a b) (max : Nat) : a.next max = b.next max
    ∨ ∃ f g, a.next max = .error f ∧ b.next max = .error g ∧ f.kind = g.kind := by
  unfold Stream.next
  rw [h.told_eq, h.octets]
  split
  · exact h.broken
  · split
    · exact .inl rfl
    · split
      · exact h.broken
      · exact .inl rfl

end Alike

end Stream

namespace Source

/-! ## Taking a source to pieces -/

/-- What comes first does not change what the rest adds to the stream. -/
theorem streamOf_append_congr (front : List Delivery) {back back' : List Delivery}
    (h : streamOf back = streamOf back') : streamOf (front ++ back) = streamOf (front ++ back') := by
  induction front with
  | nil => exact h
  | cons d front ih =>
      cases d with
      | octets data start => simp only [List.cons_append, streamOf, ih]
      | fault f => simp only [List.cons_append, streamOf, ih]

/-- A piece may come in two, wherever it stands. -/
theorem streamOf_cut (front : List Delivery) (data : ByteArray) {start mid : Nat}
    (h : start ≤ mid) (rest : List Delivery) :
    streamOf (front ++ .octets (data.extract start mid) :: .octets data mid :: rest)
      = streamOf (front ++ .octets data start :: rest) := by
  have hfirst : pending (data.extract start mid) 0 = (pending data start).take (mid - start) := by
    have hmid : start + (mid - start) = mid := by omega
    rw [← hmid, extract_eq_toByteArray, Nat.add_sub_cancel_left, pending, List.drop_zero,
      List.data_toByteArray]
  have hsecond : pending data mid = (pending data start).drop (mid - start) := by
    rw [← pending_add]
    congr 1
    omega
  refine streamOf_append_congr front ?_
  simp only [streamOf, hfirst, hsecond]
  rw [← List.append_assoc, List.take_append_drop]

/-- An interruption may come between any two pieces. -/
theorem streamOf_interrupted (front : List Delivery) {fault : Fault}
    (h : fault.kind = .interrupted) (rest : List Delivery) :
    streamOf (front ++ .fault fault :: rest) = streamOf (front ++ rest) :=
  streamOf_append_congr front (if_pos h)

end Source

namespace Session

variable {ε δ κ : Type}

/-- A turn asks of what arrives only whether it is a frame, and else how it ends the session. -/
theorem turn_eq_of_ending (host : Host ε δ κ) {arrival arrival' : Except Fault Frame.Arrival}
    (h : ending arrival = ending arrival') (s : Session ε κ) :
    s.turn host arrival = s.turn host arrival' := by
  unfold turn
  rw [h]

end Session

namespace Moment

variable {ε δ κ : Type} {host : Host ε δ κ} {m : Moment ε κ} {source : Source}

/-- The turn is the same for a source like the one that is read. -/
theorem turn_of_alike (h : m.source.stream.Alike source.stream) :
    (Moment.mk m.session source).turn host = m.turn host := by
  have hm : m.arrival host = m.source.stream.next host.settings.maxFrame :=
    (Frame.read_eq host.settings.maxFrame m.source).1
  have hs : (Moment.mk m.session source).arrival host
      = source.stream.next host.settings.maxFrame :=
    (Frame.read_eq host.settings.maxFrame source).1
  refine Session.turn_eq_of_ending host ?_ m.session
  rw [hm, hs]
  rcases h.next host.settings.maxFrame with heq | ⟨f, g, hf, hg, -⟩
  · rw [heq]
  · rw [hf, hg]
    rfl

/-- Behind a frame the two sources are alike again. -/
theorem rest_of_alike (h : m.source.stream.Alike source.stream) {payload : ByteArray}
    (hp : m.arrival host = .ok (.frame payload)) :
    (m.rest host).stream.Alike ((Moment.mk m.session source).rest host).stream := by
  obtain ⟨hread, hrest⟩ := Frame.read_eq host.settings.maxFrame m.source
  have hm : m.source.stream.next host.settings.maxFrame = .ok (.frame payload) := hread ▸ hp
  have hs : source.stream.next host.settings.maxFrame = .ok (.frame payload) := by
    rcases h.next host.settings.maxFrame with heq | ⟨f, g, hf, -⟩
    · rw [← heq, hm]
    · rw [hm] at hf
      cases hf
  have hsource := ((Frame.read_eq host.settings.maxFrame source).2 payload hs).1
  rw [rest, rest, (hrest payload hm).1, hsource]
  exact h.drop _

/-- As many octets are taken from the one source as from the other. -/
theorem consumed_of_alike (host : Host ε δ κ) (m : Moment ε κ)
    (h : m.source.stream.Alike source.stream) :
    ∃ n, (m.rest host).consumed = m.source.consumed + n
      ∧ ((Moment.mk m.session source).rest host).consumed = source.consumed + n := by
  refine ⟨m.source.stream.taken host.settings.maxFrame, ?_, ?_⟩
  · exact Frame.consumed_read host.settings.maxFrame m.source
  · rw [h.taken_eq]
    exact Frame.consumed_read host.settings.maxFrame source

end Moment

namespace Worker

variable {ε δ κ : Type}

/-! ## Whole runs -/

/-- **Two sources in step**: turn by turn a worker does the same with either of them, and takes as
many octets from the one as from the other. -/
theorem serve_of_alike (host : Host ε δ κ) (m : Moment ε κ) : ∀ source : Source,
    m.source.stream.Alike source.stream →
    (serve host m.session m.source).1 = (serve host m.session source).1
      ∧ (serve host m.session m.source).2.1 = (serve host m.session source).2.1
      ∧ ∃ n, (serve host m.session m.source).2.2.consumed = m.source.consumed + n
        ∧ (serve host m.session source).2.2.consumed = source.consumed + n := by
  induction m using serve_induction host with
  | stops m reason next h =>
      intro source halike
      have h' : ((Moment.mk m.session source).turn host).finish = (some reason, next) := by
        rw [m.turn_of_alike halike, h]
      obtain ⟨n, hm, hs⟩ := m.consumed_of_alike host halike
      rw [(serve_of_stops h).1, (serve_of_stops h').1]
      exact ⟨rfl, rfl, n, hm, hs⟩
  | continues m next h ih =>
      intro source halike
      have h' : ((Moment.mk m.session source).turn host).finish = (none, next) := by
        rw [m.turn_of_alike halike, h]
      obtain ⟨payload, hp⟩ := m.arrival_of_continues h
      -- this turn has taken a frame from both sources, and the rest follows from there
      obtain ⟨n, hm, hs⟩ := m.consumed_of_alike host halike
      obtain ⟨hreason, hsession, later, hmlater, hslater⟩ := ih _ (m.rest_of_alike halike hp)
      rw [(serve_of_continues h).1, (serve_of_continues h').1]
      refine ⟨hreason, hsession, n + later, ?_, ?_⟩
      · rw [hmlater, hm, Nat.add_assoc]
      · rw [hslater, hs, Nat.add_assoc]

/-- **How the input is cut does not matter.** Two sources that deliver the same octets and end the
same way, wherever they cut them and however often they interrupt, give the same run: the same
reason to stop, the same session in the end (its phase, its world with all that has happened, and
what its sink has taken), and as many octets taken from the one as from the other. -/
theorem run_eq_of_alike (host : Host ε δ κ) (s : Session ε κ) {a b : Source}
    (h : a.stream.Alike b.stream) :
    (run host s a).1 = (run host s b).1
      ∧ (run host s a).2.1 = (run host s b).2.1
      ∧ ∃ n, (run host s a).2.2.consumed = a.consumed + n
        ∧ (run host s b).2.2.consumed = b.consumed + n := by
  obtain ⟨hreason, hsession, hconsumed⟩ := serve_of_alike host ⟨s, a⟩ b h
  refine ⟨hreason, ?_, hconsumed⟩
  show (serve host s a).2.1.close host = (serve host s b).2.1.close host
  simp only at hsession
  rw [hsession]

/-- The octets of a frame that holds an empty list, and of half a header. -/
def begun : ByteArray := ⟨#[2, 0, 0, 0, 91, 93, 7, 0]⟩

/-- They come in one piece, and then the pipe breaks. -/
def wholeSource : Source := ⟨[.octets begun, .fault ⟨.brokenPipe, "broken pipe"⟩], 0⟩

/-- They come in three pieces, with an interruption within the payload, and the pipe breaks with
other words. -/
def piecedSource : Source :=
  ⟨[.octets (begun.extract 0 3), .octets (begun.extract 3 5), .fault ⟨.interrupted, ""⟩,
    .octets begun 5, .fault ⟨.brokenPipe, "gone"⟩], 0⟩

/-- A frame and half a header, whole and in pieces. -/
theorem run_eq_of_pieces :
    wholeSource.stream.Alike piecedSource.stream
      ∧ (run .scripted (.fresh {}) wholeSource).1 = (run .scripted (.fresh {}) piecedSource).1
      ∧ (run .scripted (.fresh {}) wholeSource).2.1 = (run .scripted (.fresh {}) piecedSource).2.1
      ∧ ∃ n, (run .scripted (.fresh {}) wholeSource).2.2.consumed = 0 + n
        ∧ (run .scripted (.fresh {}) piecedSource).2.2.consumed = 0 + n := by
  let first : Delivery := .octets (begun.extract 0 3)
  let second : Delivery := .octets (begun.extract 3 5)
  let last : List Delivery := [.fault ⟨.brokenPipe, "gone"⟩]
  have hinterrupted : piecedSource.stream
      = Source.streamOf ([first, second] ++ .octets begun 5 :: last) :=
    Source.streamOf_interrupted [first, second]
      (rfl : (Fault.mk .interrupted "").kind = .interrupted) (.octets begun 5 :: last)
  have hpieces : piecedSource.stream = Source.streamOf (.octets begun :: last) :=
    calc piecedSource.stream
        = Source.streamOf ([first, second] ++ .octets begun 5 :: last) := hinterrupted
      _ = Source.streamOf ([first] ++ .octets begun 3 :: last) :=
          Source.streamOf_cut [first] begun (by decide : 3 ≤ 5) last
      _ = Source.streamOf (.octets begun :: last) :=
          Source.streamOf_cut [] begun (by decide : 0 ≤ 3) last
  have halike : wholeSource.stream.Alike piecedSource.stream := by
    rw [hpieces]
    exact ⟨rfl, rfl⟩
  exact ⟨halike, run_eq_of_alike .scripted (.fresh {}) halike⟩

end Worker

end PdfWorker
