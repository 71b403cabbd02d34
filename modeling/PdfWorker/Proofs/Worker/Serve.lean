import Mathlib.Tactic.ByContra
import PdfWorker.Capture.Scripted
import PdfWorker.Engine.Scripted
import PdfWorker.Proofs.Stream.Frame
import PdfWorker.Proofs.Worker.Turn
set_option autoImplicit false

/-! # Serving, turn by turn

`Worker.turns` lists the moments at which a worker takes its turns. `serve_of_continues` and
`serve_of_stops` say what serving is in terms of one turn, and `serve_induction` is induction over
the turns, so that nothing else has to open the loop.
-/

namespace PdfWorker

/-- A worker that is about to take a turn, and its input. -/
structure Moment (ε κ : Type) where
  session : Session ε κ
  source : Source

namespace Moment

variable {ε δ κ : Type}

/-- What arrives. -/
def arrival (host : Host ε δ κ) (m : Moment ε κ) : Except Fault Frame.Arrival :=
  (Frame.read host.settings.maxFrame m.source).1

/-- The input behind what arrives. -/
def rest (host : Host ε δ κ) (m : Moment ε κ) : Source :=
  (Frame.read host.settings.maxFrame m.source).2

/-- The turn, with nothing written yet. -/
def turn (host : Host ε δ κ) (m : Moment ε κ) : Turn ε κ :=
  m.session.turn host (m.arrival host)

/-- The session behind the turn. -/
def next (host : Host ε δ κ) (m : Moment ε κ) : Session ε κ := (m.turn host).finish.2

/-- Writing what is due changes the sink and the log, and nothing else of what was decided. -/
theorem next_eq (host : Host ε δ κ) (m : Moment ε κ) :
    ∃ sink log, m.next host
      = { (m.turn host).session with sink, world := { (m.turn host).session.world with log } } :=
  (m.turn host).session.sendAll_session (m.turn host).frames

/-- The worker behind the turn, and the input that is left. -/
def behind (host : Host ε δ κ) (m : Moment ε κ) : Moment ε κ := ⟨m.next host, m.rest host⟩

/-- A worker that does not stop has read a frame. -/
theorem arrival_of_continues {host : Host ε δ κ} {m : Moment ε κ} {next : Session ε κ}
    (h : (m.turn host).finish = (none, next)) : ∃ payload, m.arrival host = .ok (.frame payload) := by
  by_contra hne
  rw [not_exists] at hne
  have hstop : (m.session.take host (m.arrival host)).1 ≠ none := Session.take_ne_none hne
  rw [Session.take_eq] at hstop
  rw [turn] at h
  exact hstop (by rw [h])

end Moment

namespace Worker

variable {ε δ κ : Type}

/-- **The moments at which a worker takes its turns**, the first of them at `s` and `source`. -/
def turns (host : Host ε δ κ) (s : Session ε κ) (source : Source) : List (Moment ε κ) :=
  ⟨s, source⟩ ::
    match _h : Frame.read host.settings.maxFrame source with
    | (.ok (.frame payload), rest) =>
      match s.take host (.ok (.frame payload)) with
      | (none, next) => turns host next rest
      | (some _, _) => []
    | _ => []
termination_by source.weight
decreasing_by exact Frame.weight_read_lt _h

theorem mem_turns_self (host : Host ε δ κ) (m : Moment ε κ) :
    m ∈ turns host m.session m.source := by
  rw [turns]
  exact List.mem_cons_self ..

/-! ## One turn -/

theorem serve_of_continues {host : Host ε δ κ} {m : Moment ε κ} {next : Session ε κ}
    (h : (m.turn host).finish = (none, next)) :
    serve host m.session m.source = serve host next (m.rest host)
      ∧ turns host m.session m.source = m :: turns host next (m.rest host) := by
  obtain ⟨payload, hp⟩ := m.arrival_of_continues h
  have hr : Frame.read host.settings.maxFrame m.source = (.ok (.frame payload), m.rest host) :=
    Prod.ext hp rfl
  have ht : m.session.take host (.ok (.frame payload)) = (none, next) := by
    rw [Session.take_eq, ← hp]; exact h
  constructor
  · rw [serve]
    split
    · rename_i p rest heq
      rw [hr] at heq
      cases heq
      rw [ht]
    · rename_i hne heq
      rw [hr] at heq
      cases heq
      exact absurd rfl (hne payload)
  · rw [turns]
    split
    · rename_i p rest heq
      rw [hr] at heq
      cases heq
      rw [ht]
    · rename_i hne
      exact absurd hr (hne payload _)

theorem serve_of_stops {host : Host ε δ κ} {m : Moment ε κ} {reason : ExitReason}
    {next : Session ε κ} (h : (m.turn host).finish = (some reason, next)) :
    serve host m.session m.source = (reason, next, m.rest host)
      ∧ turns host m.session m.source = [m] := by
  have ht : m.session.take host (m.arrival host) = (some reason, next) := by
    rw [Session.take_eq]; exact h
  have hr : Frame.read host.settings.maxFrame m.source = (m.arrival host, m.rest host) := rfl
  constructor
  · rw [serve]
    split
    · rename_i p rest heq
      rw [hr] at heq
      simp only [Prod.mk.injEq] at heq
      rw [← heq.1, ht, ← heq.2]
    · rename_i hne heq
      rw [hr] at heq
      cases heq
      rw [ht]
      rfl
  · rw [turns]
    split
    · rename_i p rest heq
      rw [hr] at heq
      simp only [Prod.mk.injEq] at heq
      rw [← heq.1, ht]
    · rfl

/-- **Induction over the turns of a worker.** -/
@[elab_as_elim]
theorem serve_induction (host : Host ε δ κ) {motive : Moment ε κ → Prop}
    (stops : ∀ m reason next, (m.turn host).finish = (some reason, next) → motive m)
    (continues : ∀ m next, (m.turn host).finish = (none, next) →
      motive ⟨next, m.rest host⟩ → motive m)
    (m : Moment ε κ) : motive m := by
  generalize hw : m.source.weight = w
  -- the induction is on the reads that the source can still answer
  induction w using Nat.strongRecOn generalizing m with
  | ind w ih =>
      cases h : (m.turn host).finish with
      | mk reason next =>
          cases reason with
          | some r => exact stops m r next h
          | none =>
              refine continues m next h (ih (m.rest host).weight ?_ ⟨next, m.rest host⟩ rfl)
              obtain ⟨payload, hp⟩ := m.arrival_of_continues h
              rw [← hw]
              exact Frame.weight_read_lt (Prod.ext hp rfl)

/-- **What every turn keeps** holds at all turns of a run, and behind the last of them. -/
theorem keeps_serve (host : Host ε δ κ) {P : Session ε κ → Prop}
    (hturn : ∀ m : Moment ε κ, P m.session → P (m.next host)) (m : Moment ε κ)
    (h : P m.session) :
    (∀ m' ∈ turns host m.session m.source, P m'.session)
      ∧ P (serve host m.session m.source).2.1 := by
  induction m using serve_induction host with
  | stops m reason next hfinish =>
      obtain ⟨hserve, hturns⟩ := serve_of_stops hfinish
      have hnext := hturn m h
      rw [Moment.next, hfinish] at hnext
      rw [hserve, hturns]
      exact ⟨List.forall_mem_singleton.mpr h, hnext⟩
  | continues m next hfinish ih =>
      obtain ⟨hserve, hturns⟩ := serve_of_continues hfinish
      have hnext := hturn m h
      rw [Moment.next, hfinish] at hnext
      obtain ⟨hall, hlast⟩ := ih hnext
      rw [hserve, hturns]
      exact ⟨List.forall_mem_cons.mpr ⟨h, hall⟩, hlast⟩

/-- **Why serving ends**: it is the reason that one of its turns gives. -/
theorem serve_reason_iff (host : Host ε δ κ) (why : ExitReason) (m : Moment ε κ) :
    (serve host m.session m.source).1 = why
      ↔ ∃ m' ∈ turns host m.session m.source, (m'.turn host).finish.1 = some why := by
  induction m using serve_induction host with
  | stops m reason next hfinish =>
      obtain ⟨hserve, hturns⟩ := serve_of_stops hfinish
      rw [hserve, hturns]
      simp only [List.mem_singleton, exists_eq_left, hfinish, Option.some.injEq]
  | continues m next hfinish ih =>
      obtain ⟨hserve, hturns⟩ := serve_of_continues hfinish
      rw [hserve, hturns, ih]
      simp only [List.mem_cons, exists_eq_or_imp, hfinish, reduceCtorEq, false_or]

end Worker

/-! ## Frames that a worker takes -/

/-- The worker takes these frames, one after the other, and goes on. -/
inductive Session.Takes {ε δ κ : Type} (host : Host ε δ κ) :
    Session ε κ → List ByteArray → Session ε κ → Prop where
  | nil {s} : Takes host s [] s
  | cons {s payload next rest last} : payload.size ≤ Limits.frame →
      (s.turn host (.ok (.frame payload))).finish = (none, next) →
      Takes host next rest last → Takes host s (payload :: rest) last

namespace Session.Takes

variable {ε δ κ : Type} {host : Host ε δ κ} {s mid last : Session ε κ}

theorem append {front back : List ByteArray} (h : Takes host s front mid)
    (hback : Takes host mid back last) : Takes host s (front ++ back) last := by
  induction h with
  | nil => exact hback
  | cons hsize hfinish _ ih => exact .cons hsize hfinish (ih hback)

/-- **A worker that reads these frames** takes them, however they come in pieces. -/
theorem serve_eq (hmax : host.settings.maxFrame = Limits.frame) {frames : List ByteArray}
    (h : Takes host s frames last) {source : Source} {more : List UInt8}
    (hs : source.stream.octets = (Frame.encodeAll frames).data.toList ++ more) :
    ∃ rest : Source, rest.stream.octets = more
      ∧ Worker.serve host s source = Worker.serve host last rest := by
  induction h generalizing source with
  | nil => exact ⟨source, hs, rfl⟩
  | @cons s payload next frames last hsize hfinish _ ih =>
      rw [Frame.toList_encodeAll_cons, List.append_assoc] at hs
      have hlt : payload.size < UInt32.size := Nat.lt_of_le_of_lt hsize (by decide)
      obtain ⟨hnext, hdrop⟩ := Stream.next_of_encode (hmax ▸ hsize) hlt hs
      obtain ⟨hread, hrest⟩ := Frame.read_eq host.settings.maxFrame source
      -- the first frame arrives, and the turn is the one that the worker takes
      let m : Moment ε κ := ⟨s, source⟩
      have harrival : m.arrival host = .ok (.frame payload) := hread.trans hnext
      have hturn : (m.turn host).finish = (none, next) := by
        rw [Moment.turn, harrival]
        exact hfinish
      have hbehind : (m.rest host).stream.octets = (Frame.encodeAll frames).data.toList ++ more := by
        rw [← hdrop]
        exact congrArg Stream.octets (hrest payload hnext).1
      obtain ⟨rest, hmore, hserve⟩ := ih hbehind
      exact ⟨rest, hmore, (Worker.serve_of_continues hturn).1.trans hserve⟩

/-- A worker that reads these frames and one that stops it does just that. -/
theorem run_eq (hmax : host.settings.maxFrame = Limits.frame) {frames : List ByteArray}
    (h : Takes host s frames mid) {payload : ByteArray} (hsize : payload.size ≤ Limits.frame)
    {reason : ExitReason} (hstops : (mid.turn host (.ok (.frame payload))).finish
      = (some reason, last)) {source : Source} {more : List UInt8}
    (hs : source.stream.octets
      = (Frame.encodeAll (frames ++ [payload])).data.toList ++ more) :
    (Worker.run host s source).1 = reason
      ∧ (Worker.run host s source).2.1 = last.close host := by
  rw [Frame.encodeAll_append, ByteArray.data_append, Array.toList_append, List.append_assoc] at hs
  -- what is behind the frames begins with the payload that stops the worker
  obtain ⟨rest, hrest, hserve⟩ := h.serve_eq hmax hs
  rw [Frame.encodeAll_singleton] at hrest
  have hlt : payload.size < UInt32.size := Nat.lt_of_le_of_lt hsize (by decide)
  obtain ⟨hnext, -⟩ := Stream.next_of_encode (hmax ▸ hsize) hlt hrest
  let m : Moment ε κ := ⟨mid, rest⟩
  have harrival : m.arrival host = .ok (.frame payload) :=
    (Frame.read_eq host.settings.maxFrame rest).1.trans hnext
  have hturn : (m.turn host).finish = (some reason, last) := by
    rw [Moment.turn, harrival]
    exact hstops
  have hstop : Worker.serve host mid rest = (reason, last, m.rest host) :=
    (Worker.serve_of_stops hturn).1
  rw [Worker.run, hserve, hstop]
  exact ⟨rfl, rfl⟩

end Session.Takes

/-! ## A scripted worker -/

/-- A host whose engine and capture do as a script tells. -/
def Host.scripted : Host ScriptedEngine ScriptedConversion ScriptedCapture :=
  ⟨.linux, {}, .scripted, .scripted⟩

/-- A worker that has just started on it. -/
def Session.fresh (sink : Sink) : Session ScriptedEngine ScriptedCapture :=
  ⟨.uninitialized, none, ⟨{ entries := [], here := [] }, {}, {}, {}, #[]⟩, sink⟩

end PdfWorker
