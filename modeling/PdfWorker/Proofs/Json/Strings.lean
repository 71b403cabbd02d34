import PdfWorker.Proofs.Json.Grammar
import PdfWorker.Proofs.Json.Size
set_option autoImplicit false

/-! # Strings in a value that is read

A text can hold a string only as it would be written, or longer: `parse?_holds` says that every
string in a value that is read takes, written in quotes, at most as many octets as the text. The
grammar bounds the strings of the tokens (`TextOf.holds`), and the parser puts only such strings
into values (`State.step_holds`).
-/

namespace PdfWorker.Json

open Text (octets octets_append octets_cons octets_nil length_le_octets)

/-! ## What a string takes -/

namespace Token

theorem octets_escape_of_shortEscape? {e c : Char} (h : shortEscape? e = some c) :
    octets (escape c) ≤ 2 := by
  unfold shortEscape? at h
  split at h
  case h_9 => cases h
  all_goals
    cases h
    decide

/-- A character that may stand bare in a string is written bare. -/
theorem escape_of_bare {c : Char} (hquote : c ≠ '"') (hslash : c ≠ '\\') (h : 0x20 ≤ c.toNat) :
    escape c = [c] := by
  have hcontrol : ∀ d : Char, d.toNat < 0x20 → c ≠ d := by
    rintro d hd rfl
    exact absurd hd (Nat.not_lt.mpr h)
  rw [escape, if_neg hquote, if_neg hslash, if_neg (hcontrol _ (by decide)),
    if_neg (hcontrol _ (by decide)), if_neg (hcontrol _ (by decide)),
    if_neg (hcontrol _ (by decide)), if_neg (hcontrol _ (by decide)), if_neg (Nat.not_lt.mpr h)]

/-- No spelling of a character is shorter than the one that is written. -/
theorem CharSpelling.octets_le {c : Char} {written : List Char} (h : CharSpelling c written) :
    octets (escape c) ≤ octets written := by
  cases h with
  | bare hquote hslash hcontrol => rw [escape_of_bare hquote hslash hcontrol]
  | @letter e c h =>
      exact Nat.le_trans (octets_escape_of_shortEscape? h) (length_le_octets ['\\', e])
  | @unit a b c d u =>
      have hlong := length_le_octets ['\\', 'u', a, b, c, d]
      exact Nat.le_trans (octets_escape_le _) hlong
  | @pair a b c d _ a' b' c' d' =>
      have hlong := length_le_octets ['\\', 'u', a, b, c, d, '\\', 'u', a', b', c', d']
      exact Nat.le_trans (octets_escape_le _) (Nat.le_trans (by decide : 6 ≤ 12) hlong)

/-- **A string takes at least what it takes when it is written.** -/
theorem CharsSpelling.octets_le {cs written : List Char} (h : CharsSpelling cs written) :
    octets (cs.flatMap escape) ≤ octets written := by
  induction h with
  | nil => exact Nat.le_refl 0
  | cons h _ ih =>
      rw [List.flatMap_cons, octets_append, octets_append]
      exact Nat.add_le_add h.octets_le ih

end Token

/-! ## Strings of a value -/

/-- Every string that stands for a value in `v` has the property. -/
inductive Holds (P : String → Prop) : Json → Prop where
  | null : Holds P .null
  | bool {b} : Holds P (.bool b)
  | int {n} : Holds P (.int n)
  | real {l} : Holds P (.real l)
  | str {s} : P s → Holds P (.str s)
  | arr {items} : (∀ v ∈ items, Holds P v) → Holds P (.arr items)
  | obj {members} : (∀ m ∈ members, Holds P m.2) → Holds P (.obj members)

variable {P : String → Prop}

theorem Holds.of_mem {members : List (String × Json)} (h : Holds P (.obj members)) :
    ∀ m ∈ members, Holds P m.2 := by
  cases h with
  | obj h => exact h

theorem Holds.of_str {s : String} (h : Holds P (.str s)) : P s := by
  cases h with
  | str h => exact h

/-! ## Tokens of a text -/

namespace Token

/-- What the token gives has the property. -/
def Holds (P : String → Prop) : Token → Prop
  | string s => P s
  | atom v => v.Holds P
  | _ => True

/-- A token gives no string that takes more than the token. -/
theorem Spelling.holds {Fits : Literal → Prop} {t : Token} {written : List Char} {most : Nat}
    (h : Spelling Fits t written) (hmost : octets written ≤ most) :
    t.Holds fun s => octets (quote s) ≤ most := by
  cases h with
  | @string cs written h =>
      have htakes := h.octets_le
      have hmark : ('"' : Char).utf8Size = 1 := rfl
      rw [List.cons_append, octets_cons, octets_append, octets_cons, octets_nil, hmark] at hmost
      show octets (quote (String.ofList cs)) ≤ most
      rw [octets_quote, String.toList_ofList]
      omega
  | null => exact .null
  | truth | falsity => exact .bool
  | @number l =>
      show l.json.Holds _
      unfold Literal.json
      split
      · exact .int
      · exact .real
  | _ => trivial

end Token

/-- **No string in the tokens of a text takes more than the text.** -/
theorem TextOf.holds {Fits : Literal → Prop} {ts : List Token} {text : List Char} {most : Nat}
    (h : TextOf Fits ts text) (hmost : octets text ≤ most) :
    ∀ t ∈ ts, t.Holds fun s => octets (quote s) ≤ most := by
  induction h with
  | nil => exact List.forall_mem_nil _
  | cons _ h _ ih =>
      rw [octets_append, octets_append] at hmost
      exact List.forall_mem_cons.mpr ⟨h.holds (by omega), ih (by omega)⟩

/-! ## The parser -/

/-- What an open container holds has the property. -/
def Level.Holds (P : String → Prop) : Level → Prop
  | arr items => ∀ v ∈ items, v.Holds P
  | obj members _ => ∀ m ∈ members, m.2.Holds P

namespace State

/-- What the parser has put together has the property. -/
def Holds (P : String → Prop) : State → Prop
  | value around => ∀ l ∈ around, l.Holds P
  | firstItem around => ∀ l ∈ around, l.Holds P
  | afterItem items around => (∀ v ∈ items, v.Holds P) ∧ ∀ l ∈ around, l.Holds P
  | firstKey around => ∀ l ∈ around, l.Holds P
  | key members around => (∀ m ∈ members, m.2.Holds P) ∧ ∀ l ∈ around, l.Holds P
  | colon members _ around => (∀ m ∈ members, m.2.Holds P) ∧ ∀ l ∈ around, l.Holds P
  | afterMember members around => (∀ m ∈ members, m.2.Holds P) ∧ ∀ l ∈ around, l.Holds P
  | complete v => v.Holds P

theorem deliver_holds {v : Json} {around : List Level} (hv : v.Holds P)
    (h : ∀ l ∈ around, l.Holds P) : (deliver v around).Holds P := by
  cases around with
  | nil => exact hv
  | cons l around =>
      obtain ⟨hl, haround⟩ := List.forall_mem_cons.mp h
      cases l with
      | arr items =>
          have hitems : ∀ w ∈ v :: items, w.Holds P := List.forall_mem_cons.mpr ⟨hv, hl⟩
          exact ⟨hitems, haround⟩
      | obj members k =>
          have hmembers : ∀ m ∈ (k, v) :: members, m.2.Holds P :=
            List.forall_mem_cons.mpr ⟨hv, hl⟩
          exact ⟨hmembers, haround⟩

theorem begin_holds {depth : Option Nat} {around : List Level} {t : Token} {next : State}
    (h : begin depth around t = some next) (ht : t.Holds P) (ha : ∀ l ∈ around, l.Holds P) :
    next.Holds P := by
  unfold begin at h
  split at h
  · cases h
    exact deliver_holds ht ha
  · cases h
    exact deliver_holds (.str ht) ha
  · split at h
    · cases h
      exact ha
    · cases h
  · split at h
    · cases h
      exact ha
    · cases h
  · cases h

/-- **One token** leaves only strings that it gives or that were there. -/
theorem step_holds {depth : Option Nat} {state next : State} {t : Token}
    (h : step depth state t = some next) (ht : t.Holds P) (hs : state.Holds P) : next.Holds P := by
  unfold step at h
  split at h
  case h_1 => exact begin_holds h ht hs
  case h_2 =>
    cases h
    exact deliver_holds (.arr (List.forall_mem_nil _)) hs
  case h_3 =>
    have hempty : (Level.arr []).Holds P := List.forall_mem_nil _
    exact begin_holds h ht (List.forall_mem_cons.mpr ⟨hempty, hs⟩)
  case h_4 =>
    cases h
    exact List.forall_mem_cons.mpr hs
  case h_5 =>
    cases h
    exact deliver_holds (.arr fun v hv => hs.1 v (List.mem_reverse.mp hv)) hs.2
  case h_6 =>
    cases h
    exact deliver_holds (.obj (List.forall_mem_nil _)) hs
  case h_7 =>
    cases h
    exact ⟨List.forall_mem_nil _, hs⟩
  case h_8 =>
    cases h
    exact hs
  case h_9 =>
    cases h
    exact List.forall_mem_cons.mpr hs
  case h_10 =>
    cases h
    exact hs
  case h_11 =>
    cases h
    exact deliver_holds (.obj fun m hm => hs.1 m (List.mem_reverse.mp hm)) hs.2
  case h_12 => cases h

/-- All tokens together leave only strings that they give or that were there. -/
theorem foldlM_step_holds {depth : Option Nat} {state last : State} {tokens : List Token}
    (h : tokens.foldlM (step depth) state = some last) (ht : ∀ t ∈ tokens, t.Holds P)
    (hs : state.Holds P) : last.Holds P := by
  induction tokens generalizing state with
  | nil =>
      cases h
      exact hs
  | cons t tokens ih =>
      rw [List.foldlM_cons] at h
      obtain ⟨mid, hmid, hlast⟩ := Option.bind_eq_some_iff.mp h
      obtain ⟨hfirst, hothers⟩ := List.forall_mem_cons.mp ht
      exact ih hlast hothers (step_holds hmid hfirst hs)

end State

/-- **Every string in a value that is read** takes, in quotes, at most as many octets as the
text. -/
theorem parse?_holds {payload : ByteArray} {v : Json} (h : parse? payload = some v) :
    v.Holds fun s => octets (quote s) ≤ payload.size := by
  obtain ⟨⟨text, rfl, htext⟩, hnests⟩ := parse?_eq_some_iff.mp h
  have hsize : octets text = (String.ofList text).toUTF8.size :=
    (Text.utf8ByteSize_ofList text).symm
  have hvalue : ofTokens? v.tokens = some v :=
    (ofTokens?_eq_some_iff htext.flat).mpr ⟨rfl, hnests⟩
  obtain ⟨last, hlast, hresult⟩ := Option.bind_eq_some_iff.mp hvalue
  have hstart : (State.value []).Holds
      fun s => octets (quote s) ≤ (String.ofList text).toUTF8.size := List.forall_mem_nil _
  have hholds := State.foldlM_step_holds hlast (htext.holds (Nat.le_of_eq hsize)) hstart
  cases last with
  | complete w =>
      cases hresult
      exact hholds
  | _ => cases hresult

end PdfWorker.Json
