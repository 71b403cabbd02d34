import PdfWorker.Proofs.Json.Spelling
import PdfWorker.Proofs.Json.Structure
set_option autoImplicit false

/-! # Texts of a value

A text of a value spells its tokens one after the other, with blanks between them
(`Json.TextOf`). `parse?_eq_some_iff` says that the reader takes the texts of a value and no others,
if no number in them is too large for a double and containers do not nest too deep.
-/

namespace PdfWorker.Json

open Token (isBlank cutFrom next? length_next?)

/-- The text spells the tokens, with blanks before, between and after them. -/
inductive TextOf (Fits : Literal → Prop) : List Token → List Char → Prop where
  | nil {blanks} (h : ∀ c ∈ blanks, isBlank c) : TextOf Fits [] blanks
  | cons {blanks t written ts text} (hblanks : ∀ c ∈ blanks, isBlank c)
      (h : t.Spelling Fits written) (hs : TextOf Fits ts text) :
      TextOf Fits (t :: ts) (blanks ++ written ++ text)

/-! ## Cutting a text -/

/-- One more blank in front. -/
theorem TextOf.blank {Fits : Literal → Prop} {ts : List Token} {text : List Char} {c : Char}
    (h : TextOf Fits ts text) (hc : isBlank c) : TextOf Fits ts (c :: text) := by
  cases h with
  | nil h => exact .nil (List.forall_mem_cons.mpr ⟨hc, h⟩)
  | cons hblanks h hs => exact .cons (List.forall_mem_cons.mpr ⟨hc, hblanks⟩) h hs

theorem textOf_of_cutFrom {done pieces : List Token} {text : List Char}
    (h : cutFrom next? length_next? done text = some pieces) :
    ∃ ts, pieces = done.reverse ++ ts ∧ TextOf (·.tooLarge = false) ts text := by
  fun_induction cutFrom next? length_next? done text with
  | case1 done =>
      cases h
      exact ⟨[], by simp, .nil (List.forall_mem_nil _)⟩
  | case2 done c rest hblank ih =>
      obtain ⟨ts, hts, htext⟩ := ih h
      exact ⟨ts, hts, htext.blank hblank⟩
  | case3 => cases h
  | case4 done c rest hblank t rest' hnext ih =>
      obtain ⟨written, heq, ht⟩ := Token.spelling_of_next? hnext
      obtain ⟨ts, rfl, htext⟩ := ih h
      rw [heq]
      exact ⟨t :: ts, by simp, .cons (List.forall_mem_nil _) ht htext⟩

theorem cutFrom_blanks {blanks : List Char} (h : ∀ c ∈ blanks, isBlank c) (done : List Token)
    (text : List Char) :
    cutFrom next? length_next? done (blanks ++ text) = cutFrom next? length_next? done text := by
  induction blanks with
  | nil => rfl
  | cons c blanks ih =>
      obtain ⟨hc, hothers⟩ := List.forall_mem_cons.mp h
      rw [List.cons_append, cutFrom, if_pos hc, ih hothers]

theorem cutFrom_cons {c : Char} {text rest : List Char} {t : Token} (hc : isBlank c = false)
    (h : next? (c :: text) = some (t, rest)) (done : List Token) :
    cutFrom next? length_next? done (c :: text) = cutFrom next? length_next? (t :: done) rest := by
  rw [cutFrom, if_neg (by simp [hc])]
  split
  · rename_i hn
    rw [h] at hn
    cases hn
  · rename_i a rest' hs
    rw [h] at hs
    cases hs
    rfl

/-! ## What stands behind a number -/

/-- The tokens may follow a value: there are none, or the first one is a comma or a closing
bracket. -/
def Follows (ts : List Token) : Prop :=
  ∀ t ∈ ts.head?, t = .comma ∨ t = .closeArray ∨ t = .closeObject

/-- Behind every atom there is what may follow a value. -/
def Parted : List Token → Prop
  | [] => True
  | .atom _ :: ts => Follows ts ∧ Parted ts
  | _ :: ts => Parted ts

theorem follows_cons {t : Token} (h : t = .comma ∨ t = .closeArray ∨ t = .closeObject)
    (ts : List Token) : Follows (t :: ts) := by
  intro u hu
  cases hu
  exact h

mutual

/-- Tokens of a value are parted. -/
theorem parted_tokens (v : Json) {rest : List Token} (hf : Follows rest) (hp : Parted rest) :
    Parted (v.tokens ++ rest) := by
  cases v with
  | null | bool | int | real => exact ⟨hf, hp⟩
  | str => exact hp
  | arr items =>
      rw [tokens, List.cons_append, List.cons_append, List.append_assoc]
      exact parted_itemsTokens items (follows_cons (.inr (.inl rfl)) rest) hp
  | obj members =>
      rw [tokens, List.cons_append, List.cons_append, List.append_assoc]
      exact parted_membersTokens members (follows_cons (.inr (.inr rfl)) rest) hp

theorem parted_itemsTokens (items : List Json) {rest : List Token} (hf : Follows rest)
    (hp : Parted rest) : Parted (itemsTokens items ++ rest) := by
  match items with
  | [] => exact hp
  | [v] => exact parted_tokens v hf hp
  | v :: w :: more =>
      rw [itemsTokens, List.append_assoc, List.cons_append]
      exact parted_tokens v (follows_cons (.inl rfl) _) (parted_itemsTokens (w :: more) hf hp)

theorem parted_membersTokens (members : List (String × Json)) {rest : List Token}
    (hf : Follows rest) (hp : Parted rest) : Parted (membersTokens members ++ rest) := by
  match members with
  | [] => exact hp
  | [(k, v)] => exact parted_tokens v hf hp
  | (k, v) :: m :: more =>
      rw [membersTokens, List.append_assoc, List.cons_append]
      exact parted_tokens v (follows_cons (.inl rfl) _) (parted_membersTokens (m :: more) hf hp)

end

/-- What spells the tokens behind a number does not belong to it. -/
theorem TextOf.ends {Fits : Literal → Prop} {ts : List Token} {text : List Char}
    (h : TextOf Fits ts text) (hf : Follows ts) : Literal.Ends text := by
  have hblank : ∀ c, isBlank c → c.isDigit = false ∧ c ≠ '.' ∧ c ≠ 'e' ∧ c ≠ 'E' := by
    intro c hc
    simp only [isBlank, Bool.or_eq_true, decide_eq_true_eq] at hc
    rcases hc with ((rfl | rfl) | rfl) | rfl <;> decide
  intro c hc
  cases h with
  | nil h => exact hblank c (h c (List.mem_of_mem_head? hc))
  | @cons blanks t written ts text hblanks h hs =>
      cases blanks with
      | cons b blanks =>
          cases hc
          exact hblank c (hblanks c (List.mem_cons_self ..))
      | nil =>
          rcases hf t rfl with rfl | rfl | rfl
          all_goals
            cases h
            cases hc
            decide

theorem cutFrom_of_textOf {ts : List Token} {text : List Char}
    (h : TextOf (·.tooLarge = false) ts text) (hp : Parted ts) (done : List Token) :
    cutFrom next? length_next? done text = some (done.reverse ++ ts) := by
  induction h generalizing done with
  | nil h =>
      rename_i blanks
      have hcut := cutFrom_blanks h done []
      rw [List.append_nil] at hcut
      rw [hcut, cutFrom, List.append_nil]
  | @cons blanks t written ts text hblanks h hs ih =>
      have hends : ∀ v, t = .atom v → Literal.Ends text := by
        rintro v rfl
        exact hs.ends hp.1
      have hmore : Parted ts := by
        cases t with
        | atom => exact hp.2
        | _ => exact hp
      have hnext := Token.next?_append h hends
      obtain ⟨c, more, rfl, hc⟩ := h.eq_cons
      rw [List.cons_append] at hnext
      rw [List.append_assoc, cutFrom_blanks hblanks, List.cons_append, cutFrom_cons hc hnext,
        ih hmore]
      simp

/-! ## Whole texts -/

theorem TextOf.flat {Fits : Literal → Prop} {ts : List Token} {text : List Char}
    (h : TextOf Fits ts text) : ∀ t ∈ ts, t.Flat := by
  induction h with
  | nil => exact List.forall_mem_nil _
  | cons _ h _ ih =>
      refine List.forall_mem_cons.mpr ⟨?_, ih⟩
      cases h with
      | @number l =>
          unfold Literal.json
          split <;> rfl
      | null | truth | falsity => rfl
      | _ => trivial

theorem ofText?_eq_some_iff {text : List Char} {v : Json} :
    ofText? text = some v ↔ TextOf (·.tooLarge = false) v.tokens text ∧ Nests maxDepth v := by
  constructor
  · intro h
    obtain ⟨ts, hts, hvalue⟩ := Option.bind_eq_some_iff.mp h
    obtain ⟨ts', rfl, htext⟩ := textOf_of_cutFrom hts
    obtain ⟨heq, hnests⟩ := (ofTokens?_eq_some_iff htext.flat).mp hvalue
    exact ⟨heq ▸ htext, hnests⟩
  · rintro ⟨htext, hnests⟩
    have hparted : Parted (v.tokens ++ []) := parted_tokens v (fun t ht => by cases ht) trivial
    rw [List.append_nil] at hparted
    rw [ofText?, Token.ofText?, cutFrom_of_textOf htext hparted, Option.bind_some]
    exact (ofTokens?_eq_some_iff htext.flat).mpr ⟨rfl, hnests⟩

/-- The octets are a JSON text of the value, where the numbers that fit may stand in it. -/
def Writes (Fits : Literal → Prop) (payload : ByteArray) (v : Json) : Prop :=
  ∃ text, payload = (String.ofList text).toUTF8 ∧ TextOf Fits v.tokens text

/-- **The reader takes the texts of a value and no others**, if their numbers are not too large for
a double and the value does not nest too deep. -/
theorem parse?_eq_some_iff {payload : ByteArray} {v : Json} :
    parse? payload = some v ↔ Writes (·.tooLarge = false) payload v ∧ Nests maxDepth v := by
  constructor
  · intro h
    obtain ⟨s, hutf8, htext⟩ := Option.bind_eq_some_iff.mp h
    obtain ⟨hs, hnests⟩ := ofText?_eq_some_iff.mp htext
    refine ⟨⟨s.toList, ?_, hs⟩, hnests⟩
    unfold String.fromUTF8? at hutf8
    split at hutf8
    · cases hutf8
      rw [String.ofList_toList]
      rfl
    · cases hutf8
  · rintro ⟨⟨text, rfl, htext⟩, hnests⟩
    have hutf8 : String.fromUTF8? (String.ofList text).toUTF8 = some (String.ofList text) := by
      have hvalid := (String.ofList text).isValidUTF8
      rw [String.toUTF8_eq_toByteArray, String.fromUTF8?, dif_pos hvalid]
      rfl
    rw [parse?, hutf8, Option.bind_some, String.toList_ofList]
    exact ofText?_eq_some_iff.mpr ⟨htext, hnests⟩

end PdfWorker.Json
