import PdfWorker.Proofs.Request
import PdfWorker.Proofs.Response
import PdfWorker.Proofs.Supervisor.Finished
set_option autoImplicit false

/-! # Answers that are taken for others

A supervisor takes the first frame that comes in, once its request is out, for the answer
(`Step.Reads`), and does not look at the number that the answer tells. With a worker that answers
every request once at most (`Honest`), it takes a wrong answer only behind a conversion that it did
not understand the answer to and after which it kept the worker: that conversion's answer is late
(`Supervisor.steps_mistakes`).
-/

namespace PdfWorker

variable {π : Type}

/-! ## Numbers -/

/-- The number of a request to convert. -/
def Request.number? : Request → Option Int64
  | .convert r => some r.id
  | .convertBuffer r => some r.id
  | .init _ | .quit => none

/-- The number that an answer to a conversion tells. -/
def Response.number? : Response → Option Int64
  | .result reply => some reply.id
  | .bufferResult reply => some reply.id
  | .ready _ | .error _ => none

/-- The number with which a conversion goes out. -/
def Operation.number? (s : Supervisor π) : Operation → Option Int64
  | .convert request => some (s.number request.id).1
  | .convertDocument request _ => some (s.number request.id).1
  | .startEngine _ | .sendFrame _ | .readResponse | .shutdownWithin _ => none

/-- The number that the answer of a conversion tells. -/
def Operation.Value.number? : Operation.Value → Option Int64
  | .conversion reply => some reply.id
  | .document answer => some answer.reply.id
  | .version _ | .done | .response _ | .status _ => none

namespace LinkEvent

/-- The frame that went out. -/
def out? : LinkEvent → Option ByteArray
  | .sent payload (.ok ()) => some payload
  | _ => none

/-- The frame that came in. -/
def came? : LinkEvent → Option ByteArray
  | .received (.arrived (.ok (.frame payload))) => some payload
  | _ => none

theorem out?_eq_some {event : LinkEvent} {payload : ByteArray} (h : event.out? = some payload) :
    event = .out payload := by
  unfold out? at h
  split at h
  · cases h
    rfl
  · cases h

end LinkEvent

namespace Step

/-- The number of the request that goes out in a step: it is the first frame that does. -/
def asked? (step : Step π) : Option Int64 :=
  (step.events.findSome? LinkEvent.out?).bind fun payload =>
    match Request.decode payload with
    | .ok (.request request) => request.number?
    | _ => none

/-- The number that the answer tells that comes in in a step: it is the first frame that does. -/
def answered? (step : Step π) : Option Int64 :=
  (step.events.findSome? LinkEvent.came?).bind fun payload =>
    match Response.decode payload with
    | .ok response => response.number?
    | .error _ => none

theorem asked?_of_out {step : Step π} {request : Request} {events : List LinkEvent}
    (h : step.events = .out request.encode :: events) : step.asked? = request.number? := by
  have hfirst : step.events.findSome? LinkEvent.out? = some request.encode := by
    rw [h, List.findSome?_cons_of_isSome] <;> rfl
  rw [asked?, hfirst, Option.bind_some, Request.decode_encode]
  cases request <;> rfl

theorem exists_out_of_asked? {step : Step π} {id : Int64} (h : step.asked? = some id) :
    ∃ payload, .out payload ∈ step.events
      ∧ ∀ request : Request, payload = request.encode → request.number? = some id := by
  obtain ⟨payload, hfirst, hid⟩ := Option.bind_eq_some_iff.mp h
  obtain ⟨event, hevent, hout⟩ := List.exists_of_findSome?_eq_some hfirst
  refine ⟨payload, LinkEvent.out?_eq_some hout ▸ hevent, ?_⟩
  rintro request rfl
  rw [Request.decode_encode] at hid
  rw [← hid]
  cases request <;> rfl

theorem answered?_of_came {step : Step π} (frames : List ByteArray) {payload : ByteArray}
    {events : List LinkEvent} {response : Response}
    (h : step.events = frames.map .out ++ .came payload :: events)
    (hdecode : Response.decode payload = .ok response) : step.answered? = response.number? := by
  have hnone : (frames.map LinkEvent.out).findSome? LinkEvent.came? = none := by
    rw [List.findSome?_eq_none_iff]
    intro event hevent
    obtain ⟨frame, -, rfl⟩ := List.mem_map.mp hevent
    rfl
  have hfirst : step.events.findSome? LinkEvent.came? = some payload := by
    rw [h, List.findSome?_append, hnone, Option.none_or]
    rfl
  rw [answered?, hfirst, Option.bind_some, hdecode]

/-! ## What an answer is read from -/

open Supervisor (TellsReply TellsConversion)

/-- **The answer of a conversion** is read from the first frame that comes in, once the request, and
the document if there is one, are out. -/
structure Reads (step : Step π) : Prop where
  file : ∀ request reply, step.operation = .convert request →
    step.result = .ok (.conversion reply) →
    ∃ events, TellsReply events reply ∧ step.events
      = .out (Request.convert { request with id := (step.before.number request.id).1 }).encode
        :: events
  document : ∀ request document conversion, step.operation = .convertDocument request document →
    step.result = .ok (.document conversion) →
    ∃ events, TellsConversion events conversion ∧ step.events
      = .out (Request.convertBuffer { request with
          id := (step.before.number request.id).1
          dataSize := some (UInt64.ofNat document.size) }).encode :: .out document :: events

/-! ## Mistakes -/

/-- **A wrong answer is taken**: a conversion gives an answer that tells this number, and went out
with another one. -/
def Mistakes (step : Step π) (id : Int64) : Prop :=
  ∃ value, step.result = .ok value ∧ value.number? = some id
    ∧ step.operation.number? step.before ≠ some id

/-- An answer is outstanding: a request with this number went out, it was not answered in the same
step, and the worker was kept. -/
structure Owes (step : Step π) (id : Int64) : Prop where
  asked : step.asked? = some id
  unanswered : step.answered? ≠ some id
  kept : step.after.finished = false

/-- A request to convert is sent that is none of a conversion. -/
def IsByHand (step : Step π) : Prop :=
  (∃ payload, step.operation = .sendFrame payload)
    ∨ ∃ request : Request, step.operation = .startEngine request ∧ request.number? ≠ none

/-- **What lets an answer be late**: the answer to a conversion was not understood and the worker
was kept, or the request was sent by hand. -/
def LeavesOpen (step : Step π) : Prop :=
  (∃ id, step.Owes id)
    ∧ (step.IsByHand ∨ ∃ e, step.result = .error e ∧ e.IsMisunderstanding)

/-- What a step says about mistakes and answers that are outstanding. -/
structure Accounts (step : Step π) : Prop where
  mistakes : ∀ id, step.Mistakes id →
    step.before.finished = false ∧ step.answered? = some id ∧ step.asked? ≠ some id
  owes : ∀ id, step.Owes id → step.LeavesOpen ∨ ∃ other, step.Mistakes other

end Step

/-- **The worker answers every request once at most**, with its number, and none before it is
asked: over the first so many steps of a session, no number comes in more often than it went out. -/
def Honest (steps : List (Step π)) : Prop :=
  ∀ front, front <+: steps → ∀ id,
    (front.filterMap Step.answered?).count id ≤ (front.filterMap Step.asked?).count id

namespace Supervisor

/-! ## Steps -/

/-- The events behind the frames of a conversion tell its value. -/
theorem Converting.ok {α : Type} {s : Supervisor (Overheard π)} {frames : List ByteArray}
    {Tells : List LinkEvent → α → Prop} {r : Except LinkError α × Supervisor (Overheard π)}
    (h : Converting s frames Tells r) {events : List LinkEvent}
    (hevents : r.2.process.events = s.process.events ++ events) {value : α} (hv : r.1 = .ok value) :
    ∃ behind, Tells behind value ∧ events = frames.map .out ++ behind := by
  cases h with
  | unsent => cases hv
  | sent hsent =>
      cases hsent with
      | lost => cases hv
      | misunderstood => cases hv
      | @done behind _ _ hends htells =>
          cases hv
          exact ⟨behind, htells, hends.eq_of_heard hevents⟩

/-- A conversion that fails once something went out for it leaves the worker given up, or what came
in was not understood. -/
theorem Converting.error {α : Type} {s : Supervisor (Overheard π)} {frames : List ByteArray}
    {Tells : List LinkEvent → α → Prop} {r : Except LinkError α × Supervisor (Overheard π)}
    (h : Converting s frames Tells r) {events : List LinkEvent}
    (hevents : r.2.process.events = s.process.events ++ events) {e : LinkError}
    (he : r.1 = .error e) {payload : ByteArray} (hout : .out payload ∈ events) :
    r.2.finished = true ∨ e.IsMisunderstanding := by
  cases h with
  | unsent hends hnone =>
      cases hends.eq_of_heard hevents
      exact absurd hout (hnone payload)
  | sent hsent =>
      cases hsent with
      | lost _ hgiven => exact .inl hgiven
      | misunderstood _ hmis =>
          cases he
          exact .inr hmis
      | done => cases he

theorem valued_ok {α : Type} {value : α → Operation.Value} {r : Except LinkError α × Supervisor π}
    {v : Operation.Value} (h : (valued value r).1 = .ok v) : ∃ a, r.1 = .ok a ∧ value a = v := by
  rcases r with ⟨e | a, s⟩
  · cases h
  · cases h
    exact ⟨a, rfl, rfl⟩

theorem valued_error {α : Type} {value : α → Operation.Value}
    {r : Except LinkError α × Supervisor π} {e : LinkError} (h : (valued value r).1 = .error e) :
    r.1 = .error e := by
  rcases r with ⟨e' | a, s⟩
  · cases h
    rfl
  · cases h

variable (link : Link π) {s : Supervisor π}

/-- The number is the same on the overheard link. -/
theorem number_overheard (id : Int64) : (s.overheard.number id).1 = (s.number id).1 :=
  congrArg Prod.fst (unheard_number s.overheard id)

theorem reads_step (hs : s.Sound) (op : Operation) : (s.step link op).Reads := by
  constructor
  · rintro request reply ⟨⟩ hresult
    obtain ⟨_, hok, ⟨⟩⟩ := valued_ok hresult
    have hheard := unheard_convert link s.overheard request
    obtain ⟨events, htells, hevents⟩ :=
      (convert_cases link (s := s.overheard) hs request).ok rfl
        ((congrArg Prod.fst hheard).trans hok)
    rw [number_overheard] at hevents
    exact ⟨events, htells, hevents⟩
  · rintro request document conversion ⟨⟩ hresult
    obtain ⟨_, hok, ⟨⟩⟩ := valued_ok hresult
    have hheard := unheard_convertDocument link s.overheard request document
    obtain ⟨events, htells, hevents⟩ :=
      (convertDocument_cases link (s := s.overheard) hs request document).ok rfl
        ((congrArg Prod.fst hheard).trans hok)
    rw [number_overheard] at hevents
    exact ⟨events, htells, hevents⟩

/-- A conversion that gives an answer went out with its own number, and the number of the answer is
the one that came in. -/
theorem numbers_of_ok (hs : s.Sound) {op : Operation} {value : Operation.Value} {id : Int64}
    (hresult : (s.step link op).result = .ok value) (hid : value.number? = some id) :
    (s.step link op).asked? = op.number? s ∧ (s.step link op).answered? = some id := by
  have hreads := reads_step link hs op
  cases op with
  | convert request =>
      obtain ⟨reply, -, rfl⟩ := valued_ok hresult
      obtain ⟨_, ⟨payload, hdecode, rfl⟩, hevents⟩ := hreads.file request reply rfl hresult
      exact ⟨Step.asked?_of_out hevents, (Step.answered?_of_came [_] hevents hdecode).trans hid⟩
  | convertDocument request document =>
      obtain ⟨conversion, -, rfl⟩ := valued_ok hresult
      obtain ⟨_, ⟨payload, hdecode, rfl⟩, hevents⟩ :=
        hreads.document request document conversion rfl hresult
      exact ⟨Step.asked?_of_out hevents, (Step.answered?_of_came [_, _] hevents hdecode).trans hid⟩
  | startEngine | sendFrame | readResponse | shutdownWithin =>
      obtain ⟨_, -, rfl⟩ := valued_ok hresult
      cases hid

/-- A worker that was given up gives no answer to a conversion. -/
theorem kept_of_ok (hs : s.Sound) {op : Operation} {value : Operation.Value} {id : Int64}
    (hresult : (s.step link op).result = .ok value) (hid : value.number? = some id) :
    s.finished = false := by
  refine Bool.eq_false_iff.mpr fun hf => ?_
  by_cases hop : op.NeedsWorker
  · obtain ⟨status, hfailed, -⟩ := perform_of_finished link hs hf hop
    cases hfailed.symm.trans hresult
  · cases op with
    | startEngine | convert => exact hop trivial
    | convertDocument request document =>
        obtain ⟨conversion, hok, -⟩ := valued_ok hresult
        rw [convertDocument, if_pos (Nat.not_le.mp hop)] at hok
        cases hok
    | sendFrame | readResponse | shutdownWithin =>
        obtain ⟨_, -, rfl⟩ := valued_ok hresult
        cases hid

theorem mistakes_step (hs : s.Sound) (op : Operation) {id : Int64}
    (h : (s.step link op).Mistakes id) :
    (s.step link op).before.finished = false ∧ (s.step link op).answered? = some id
      ∧ (s.step link op).asked? ≠ some id := by
  obtain ⟨value, hresult, hid, hother⟩ := h
  obtain ⟨hasked, hanswered⟩ := numbers_of_ok link hs hresult hid
  exact ⟨kept_of_ok link hs hresult hid, hanswered, hasked ▸ hother⟩

/-- A conversion whose answer is outstanding has not understood what came in, or it has taken the
answer to another request. -/
theorem owes_conversion (hs : s.Sound) {op : Operation} {id : Int64}
    (h : (s.step link op).Owes id) {α : Type} {value : α → Operation.Value}
    {frames : List ByteArray} {Tells : List LinkEvent → α → Prop}
    {r : Except LinkError α × Supervisor (Overheard π)}
    (hperform : s.overheard.perform link.overheard op = valued value r)
    (hconverting : Converting s.overheard frames Tells r) (hvalue : ∀ a, (value a).number? ≠ none) :
    (s.step link op).LeavesOpen ∨ ∃ other, (s.step link op).Mistakes other := by
  obtain ⟨events, hends⟩ := perform_cases link (s := s.overheard) hs op
  obtain ⟨hevents, hfinished, -, hsame⟩ := step_ends link hends
  rw [hperform] at hfinished hsame
  rcases hresult : (s.step link op).result with e | v
  · obtain ⟨payload, hout, -⟩ := Step.exists_out_of_asked? h.asked
    rcases hconverting.error (by rw [hperform] at hends; exact hends.heard)
      (valued_error (hsame.trans hresult)) (hevents ▸ hout) with hgiven | hmis
    · have hkept := hfinished.symm.trans h.kept
      exact absurd hgiven (Bool.eq_false_iff.mp hkept)
    · exact .inl ⟨⟨id, h⟩, .inr ⟨e, hresult, hmis⟩⟩
  · obtain ⟨a, -, rfl⟩ := valued_ok (hsame.trans hresult)
    obtain ⟨other, hother⟩ := Option.ne_none_iff_exists'.mp (hvalue a)
    obtain ⟨hasked, hanswered⟩ := numbers_of_ok link hs hresult hother
    refine .inr ⟨other, _, hresult, hother, ?_⟩
    -- the answer is to another request, since the request of the step is not answered
    intro hown
    have hid : some id = some other := h.asked.symm.trans (hasked.trans hown)
    exact h.unanswered (hanswered.trans hid.symm)

/-- Nothing goes out to read an answer. -/
theorem not_out_readResponse (s : Supervisor (Overheard π)) {events : List LinkEvent}
    (hevents : (s.readResponse link.overheard).2.process.events = s.process.events ++ events)
    (payload : ByteArray) : .out payload ∉ events := by
  have hread := readResponse_cases link s
  generalize s.readResponse link.overheard = r at hread hevents
  cases hread with
  | failed _ hends => simp [hends.eq_of_heard hevents]
  | came hends => simp [hends.eq_of_heard hevents]

theorem owes_step (hs : s.Sound) (op : Operation) {id : Int64} (h : (s.step link op).Owes id) :
    (s.step link op).LeavesOpen ∨ ∃ other, (s.step link op).Mistakes other := by
  obtain ⟨payload, hout, hnumber⟩ := Step.exists_out_of_asked? h.asked
  cases op with
  | startEngine request =>
      obtain ⟨events, hends, hfirst⟩ := startEngine_cases link (s := s.overheard) hs request
      have hevents : (s.step link (.startEngine request)).events = events := hends.heard
      rw [hevents] at hout
      have hrequest : request.number? = some id := hnumber request (hfirst payload hout)
      exact .inl ⟨⟨id, h⟩, .inl (.inr ⟨request, rfl, by simp [hrequest]⟩)⟩
  | convert request =>
      refine owes_conversion link hs h rfl (convert_cases link (s := s.overheard) hs request) ?_
      rintro reply ⟨⟩
  | convertDocument request document =>
      refine owes_conversion link hs h rfl
        (convertDocument_cases link (s := s.overheard) hs request document) ?_
      rintro conversion ⟨⟩
  | sendFrame payload => exact .inl ⟨⟨id, h⟩, .inl (.inl ⟨payload, rfl⟩)⟩
  | readResponse => exact absurd hout (not_out_readResponse link s.overheard rfl payload)
  | shutdownWithin milliseconds =>
      obtain ⟨_, -, hgiven⟩ := shutdownWithin_cases link s.overheard milliseconds
      obtain ⟨_, hends⟩ :=
        perform_cases link (s := s.overheard) hs (.shutdownWithin milliseconds)
      obtain ⟨-, hfinished, -⟩ := step_ends link hends
      exact absurd (hfinished.trans hgiven) (Bool.eq_false_iff.mp h.kept)

theorem accounts_step (hs : s.Sound) (op : Operation) : (s.step link op).Accounts :=
  ⟨fun _ => mistakes_step link hs op, fun _ => owes_step link hs op⟩

end Supervisor

/-! ## Sessions -/

/-- Where one function gives a value more often than another, it gives it somewhere where the other
does not. -/
theorem exists_of_count_lt {α β : Type} [DecidableEq β] {f g : α → Option β} {l : List α} {b : β}
    (h : (l.filterMap f).count b < (l.filterMap g).count b) :
    ∃ a ∈ l, g a = some b ∧ f a ≠ some b := by
  apply Classical.byContradiction
  intro hnone
  rw [List.count_filterMap, List.count_filterMap] at h
  refine absurd (List.countP_mono_left ?_) (Nat.not_le.mpr h)
  intro a ha hg
  have hg : g a = some b := beq_iff_eq.mp hg
  exact beq_iff_eq.mpr (Classical.byContradiction fun hf => hnone ⟨a, ha, hg, hf⟩)

variable {front back : List (Step π)} {step : Step π} {id : Int64}

/-- **A wrong answer is a late one**: it is the answer to an earlier request that is outstanding. -/
theorem owes_of_mistakes (haccounts : ∀ x ∈ front ++ step :: back, x.Accounts)
    (hpairs : (front ++ step :: back).Pairwise fun earlier later =>
      earlier.after.finished = true → later.before.finished = true)
    (hhonest : Honest (front ++ step :: back)) (h : step.Mistakes id) :
    ∃ earlier ∈ front, earlier.Owes id := by
  obtain ⟨hkept, hanswered, hasked⟩ :=
    (haccounts step (List.mem_append_right _ (List.mem_cons_self ..))).mistakes id h
  -- the number has come in once more than it went out, but for the requests before
  have hcount := hhonest (front ++ [step]) ⟨back, List.append_assoc ..⟩ id
  have hin : [step].filterMap Step.answered? = [id] := by
    rw [List.filterMap_cons_some hanswered, List.filterMap_nil]
  have hout : ([step].filterMap Step.asked?).count id = 0 := by
    rw [List.count_eq_zero, List.mem_filterMap]
    rintro ⟨_, hmem, hid⟩
    cases List.mem_singleton.mp hmem
    exact hasked hid
  rw [List.filterMap_append, List.filterMap_append, List.count_append, List.count_append, hin, hout,
    List.count_singleton_self] at hcount
  obtain ⟨earlier, hmem, hout, hin⟩ := exists_of_count_lt (Nat.lt_of_succ_le hcount)
  refine ⟨earlier, hmem, hout, hin, ?_⟩
  refine Bool.eq_false_iff.mpr fun hgiven => ?_
  have hlost : step.before.finished = true :=
    (List.pairwise_append.mp hpairs).2.2 earlier hmem step (List.mem_cons_self ..) hgiven
  exact absurd hlost (Bool.eq_false_iff.mp hkept)

/-- The first mistake is behind an answer that was left outstanding. -/
theorem leavesOpen_of_mistakes (haccounts : ∀ x ∈ front ++ step :: back, x.Accounts)
    (hpairs : (front ++ step :: back).Pairwise fun earlier later =>
      earlier.after.finished = true → later.before.finished = true)
    (hhonest : Honest (front ++ step :: back)) (h : step.Mistakes id) :
    ∃ earlier ∈ front, earlier.LeavesOpen := by
  generalize hn : front.length = n
  induction n using Nat.strongRecOn generalizing front back step id with
  | ind n ih =>
      obtain ⟨earlier, hmem, howes⟩ := owes_of_mistakes haccounts hpairs hhonest h
      have hall : earlier ∈ front ++ step :: back := List.mem_append_left _ hmem
      rcases (haccounts earlier hall).owes id howes with hopen | ⟨other, hmistake⟩
      · exact ⟨earlier, hmem, hopen⟩
      · -- the earlier step has itself taken a wrong answer
        obtain ⟨before, between, rfl⟩ := List.append_of_mem hmem
        rw [List.append_assoc, List.cons_append] at haccounts hpairs hhonest
        have hlt : before.length < n := by
          rw [← hn, List.length_append, List.length_cons]
          omega
        obtain ⟨first, hfirst, hopen⟩ := ih before.length hlt haccounts hpairs hhonest hmistake rfl
        exact ⟨first, List.mem_append_left _ hfirst, hopen⟩

namespace Supervisor

/-- **Whose answer a supervisor takes.** In every session, on every link: the answer of a conversion
is read from the first frame that comes in once the request is out, so its number is that of the
request exactly if this frame tells it. With a worker that answers every request once at most, a
conversion whose answer has another number has taken the answer to an earlier request, which is
late; and before it there was a conversion whose answer was not understood while the worker was
kept, or a request that was sent by hand. -/
theorem steps_mistakes (link : Link π) (process : π) (timeout : Nat) (ops : List Operation) :
    (∀ step ∈ steps link ops (spawned process timeout), step.Reads)
      ∧ (Honest (steps link ops (spawned process timeout)) →
        ∀ front step back, steps link ops (spawned process timeout) = front ++ step :: back →
          ∀ id, step.Mistakes id →
            (∃ earlier ∈ front, earlier.Owes id) ∧ ∃ earlier ∈ front, earlier.LeavesOpen) := by
  have hsound := sound_spawned process timeout
  have haccounts := forall_mem_steps link (fun _ op hs => accounts_step link hs op) hsound ops
  have hpairs := steps_pairwise link hsound ops
  refine ⟨forall_mem_steps link (fun _ op hs => reads_step link hs op) hsound ops, ?_⟩
  intro hhonest front step back hsteps id h
  rw [hsteps] at haccounts hpairs hhonest
  exact ⟨owes_of_mistakes haccounts hpairs hhonest h,
    leavesOpen_of_mistakes haccounts hpairs hhonest h⟩

end Supervisor

/-! ## A late answer

A worker is asked to convert two files, one after the other. Before its answer to the first it has
written a frame that is no answer. -/

/-- A process that takes all frames and has written these. -/
def Link.replay : Link (List ByteArray) where
  send _ frames := (.ok (), frames)
  receive _ frames :=
    match frames with
    | [] => (.late, [])
    | payload :: rest => (.arrived (.ok (.frame payload)), rest)
  hangUp frames := frames
  status _ := .ok none
  outlast _ frames := (.ok none, frames)
  kill frames := (.ok (), frames)
  reap frames := (.ok (), frames)

namespace Supervisor

/-- The conversion of a file, if this frame comes in. -/
theorem convert_of_frame (link : Link π) {s : Supervisor π} {request : FileRequest}
    (hid : request.id ≠ 0) (hconnected : s.connected = true) {p₁ p₂ : π} {payload : ByteArray}
    (hsend : link.send (Request.convert request).encode s.process = (.ok (), p₁))
    (hreceive : link.receive s.timeout p₁ = (.arrived (.ok (.frame payload)), p₂)) :
    s.convert link request = (match Response.decode payload with
      | .error e => .error e
      | .ok (.result reply) => .ok reply
      | .ok other => .error (unexpected "result" other), { s with process := p₂ }) := by
  rw [convert, number, if_neg hid]
  simp only [ask, send, sendFrame, if_pos hconnected, hsend, readResponse, readPayload, hreceive]
  rcases Response.decode payload with e | (version | message | reply | reply) <;> rfl

/-- The step that converts a file, if this frame is next. -/
theorem step_replay {request : FileRequest} (hid : request.id ≠ 0) (payload : ByteArray)
    (rest : List ByteArray) (timeout : Nat) :
    ((spawned (payload :: rest) timeout).step .replay (.convert request)).events
        = [.out (Request.convert request).encode, .came payload]
      ∧ ((spawned (payload :: rest) timeout).step .replay (.convert request)).after
        = spawned rest timeout
      ∧ ∀ response, Response.decode payload = response →
        ((spawned (payload :: rest) timeout).step .replay (.convert request)).result
          = (match response with
            | .error e => .error e
            | .ok (.result reply) => .ok (.conversion reply)
            | .ok other => .error (unexpected "result" other)) := by
  have hplain := convert_of_frame .replay (s := spawned (payload :: rest) timeout) hid rfl rfl rfl
  have hheard := convert_of_frame Link.replay.overheard
    (s := (spawned (payload :: rest) timeout).overheard) hid rfl rfl rfl
  refine ⟨?_, ?_, ?_⟩
  · show (convert Link.replay.overheard request _).2.process.events = _
    rw [hheard]
    rfl
  · show (convert Link.replay request _).2 = _
    rw [hplain]
    rfl
  · rintro response rfl
    show (convert Link.replay request _).1.map _ = _
    rw [hplain]
    rcases Response.decode payload with e | (version | message | reply | reply) <;> rfl

def firstFile : FileRequest := { id := 1, input := some "a.docx", output := some "a.pdf" }

def secondFile : FileRequest := { id := 2, input := some "b.docx", output := some "b.pdf" }

/-- A frame that is no answer. -/
def garbled : ByteArray := "oops".toUTF8

/-- The answer to the first file. -/
def lateReply : ConversionReply := .ok 1 []

def firstStep : Step (List ByteArray) :=
  (spawned [garbled, (Response.result lateReply).encode] Limits.answerTimeout).step .replay
    (.convert firstFile)

def secondStep : Step (List ByteArray) :=
  (spawned [(Response.result lateReply).encode] Limits.answerTimeout).step .replay
    (.convert secondFile)

/-- The answer to the first file is not understood, and it is still to come. -/
theorem firstStep_open : firstStep.result = .error .json ∧ firstStep.asked? = some 1
    ∧ firstStep.answered? = none := by
  have hparse : (Json.parse? garbled).isNone = true := by decide +kernel
  have hdecode : Response.decode garbled = .error .json := by
    rw [Response.decode, Option.isNone_iff_eq_none.mp hparse]
    rfl
  have hid : firstFile.id ≠ 0 := by decide
  obtain ⟨hevents, -, hresult⟩ := step_replay hid garbled [(Response.result lateReply).encode]
    Limits.answerTimeout
  refine ⟨hresult _ hdecode, Step.asked?_of_out hevents, ?_⟩
  show (List.findSome? LinkEvent.came? firstStep.events).bind _ = none
  rw [show firstStep.events = _ from hevents]
  show (match Response.decode garbled with
    | .ok response => response.number?
    | .error _ => none) = none
  rw [hdecode]

/-- It is taken for the answer to the second. -/
theorem secondStep_mistakes : secondStep.Mistakes 1 ∧ secondStep.asked? = some 2
    ∧ secondStep.answered? = some 1 := by
  have hid : secondFile.id ≠ 0 := by decide
  obtain ⟨hevents, -, hresult⟩ := step_replay hid (Response.result lateReply).encode []
    Limits.answerTimeout
  have hdecode := Response.decode_encode (.result lateReply)
  refine ⟨⟨_, hresult _ hdecode, rfl, ?_⟩, Step.asked?_of_out hevents,
    Step.answered?_of_came [_] hevents hdecode⟩
  decide

/-- The worker answers only what it is asked, and only once. -/
theorem honest_late : Honest [firstStep, secondStep] := by
  obtain ⟨-, hasked₁, hanswered₁⟩ := firstStep_open
  obtain ⟨-, hasked₂, hanswered₂⟩ := secondStep_mistakes
  intro front hfront id
  rcases List.prefix_cons_iff.mp hfront with rfl | ⟨rest, rfl, hrest⟩
  · exact Nat.le_refl _
  · rw [List.filterMap_cons_none hanswered₁, List.filterMap_cons_some hasked₁]
    rcases List.prefix_cons_iff.mp hrest with rfl | ⟨last, rfl, hlast⟩
    · exact Nat.zero_le _
    · rw [List.prefix_nil.mp hlast, List.filterMap_cons_some hanswered₂,
        List.filterMap_cons_some hasked₂]
      exact (List.Sublist.cons_cons 1 (List.nil_sublist [2])).count_le id

/-- **A late answer is taken for another's**: the answer to the first file comes in for the second,
because the worker was kept when its first answer was not understood. -/
theorem steps_mistakes_of_late :
    steps .replay [.convert firstFile, .convert secondFile]
        (spawned [garbled, (Response.result lateReply).encode] Limits.answerTimeout)
      = [firstStep, secondStep]
    ∧ Honest [firstStep, secondStep] ∧ secondStep.Mistakes 1 ∧ firstStep.Owes 1
    ∧ firstStep.LeavesOpen := by
  have hid : firstFile.id ≠ 0 := by decide
  obtain ⟨-, hafter, -⟩ := step_replay hid garbled [(Response.result lateReply).encode]
    Limits.answerTimeout
  have hsteps : steps .replay [.convert firstFile, .convert secondFile]
      (spawned [garbled, (Response.result lateReply).encode] Limits.answerTimeout)
      = [firstStep] ++ [secondStep] := by
    rw [steps, steps, steps, hafter]
    rfl
  obtain ⟨hmistake, -⟩ := secondStep_mistakes
  obtain ⟨-, hlate⟩ := steps_mistakes .replay
    [garbled, (Response.result lateReply).encode] Limits.answerTimeout
    [.convert firstFile, .convert secondFile]
  rw [hsteps] at hlate
  obtain ⟨⟨earlier, hmem, howes⟩, first, hfirst, hopen⟩ :=
    hlate honest_late [firstStep] secondStep [] rfl 1 hmistake
  cases List.mem_singleton.mp hmem
  cases List.mem_singleton.mp hfirst
  exact ⟨hsteps, honest_late, hmistake, howes, hopen⟩

end Supervisor

end PdfWorker
