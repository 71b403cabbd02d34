import PdfWorker.Proofs.Json.Grammar
import PdfWorker.Proofs.Json.Token
set_option autoImplicit false

/-! # Values that are written and read

`parse?_encode` says that a value that is written is read again, if its integers fit 64 bits, it
holds no other numbers and its containers do not nest too deep (`Json.Plain`): what is written is
one of the texts of the value (`Plain.textOf`).
-/

namespace PdfWorker.Json

/-- A value that can be written and read: its integers fit 64 bits, signed or unsigned, it holds
no other numbers, and at most so many containers stand inside one another. -/
inductive Plain : Nat → Json → Prop where
  | null {depth} : Plain depth .null
  | bool {depth b} : Plain depth (.bool b)
  | int {depth n} (hl : Int64.minValue.toInt ≤ n) (hu : n < UInt64.size) : Plain depth (.int n)
  | str {depth s} : Plain depth (.str s)
  | arr {depth items} (h : ∀ v ∈ items, Plain depth v) : Plain (depth + 1) (.arr items)
  | obj {depth members} (h : ∀ m ∈ members, Plain depth m.2) : Plain (depth + 1) (.obj members)

theorem Plain.nests {depth : Nat} {v : Json} (h : Plain depth v) : Nests depth v := by
  induction h with
  | null => exact .null
  | bool => exact .bool
  | int => exact .int
  | str => exact .str
  | arr _ ih => exact .arr ih
  | obj _ ih => exact .obj ih

/-! ## Writing a text -/

/-- **What is written for the value spells its tokens**, whatever follows them. -/
def Writable (v : Json) : Prop :=
  ∀ {ts : List Token} {rest : List Char}, TextOf (·.tooLarge = false) ts rest →
    TextOf (·.tooLarge = false) (v.tokens ++ ts) (v.text ++ rest)

/-- A token without blanks before it. -/
theorem TextOf.token {Fits : Literal → Prop} {t : Token} {written rest : List Char}
    {ts : List Token} (h : t.Spelling Fits written) (hs : TextOf Fits ts rest) :
    TextOf Fits (t :: ts) (written ++ rest) :=
  .cons (List.forall_mem_nil _) h hs

theorem textOf_items {items : List Json} (h : ∀ v ∈ items, Writable v) {ts : List Token}
    {rest : List Char} (hs : TextOf (·.tooLarge = false) ts rest) :
    TextOf (·.tooLarge = false) (itemsTokens items ++ ts) (itemsText items ++ rest) := by
  induction items with
  | nil => exact hs
  | cons v vs ih =>
      obtain ⟨hv, hvs⟩ := List.forall_mem_cons.mp h
      cases vs with
      | nil => exact hv hs
      | cons w ws =>
          have hall := hv (.token .comma (ih hvs))
          rw [itemsTokens, itemsText, List.append_assoc, List.append_assoc]
          exact hall

theorem textOf_members {members : List (String × Json)} (h : ∀ m ∈ members, Writable m.2)
    {ts : List Token} {rest : List Char} (hs : TextOf (·.tooLarge = false) ts rest) :
    TextOf (·.tooLarge = false) (membersTokens members ++ ts) (membersText members ++ rest) := by
  induction members with
  | nil => exact hs
  | cons m ms ih =>
      obtain ⟨k, v⟩ := m
      obtain ⟨hv, hms⟩ := List.forall_mem_cons.mp h
      cases ms with
      | nil =>
          have hall := TextOf.token (Token.spelling_quote k) (.token .colon (hv hs))
          rw [membersText, List.append_assoc]
          exact hall
      | cons m ms =>
          have hall := TextOf.token (Token.spelling_quote k)
            (.token .colon (hv (.token .comma (ih hms))))
          simpa [membersTokens, membersText] using hall

theorem Plain.textOf {depth : Nat} {v : Json} (h : Plain depth v) : Writable v := by
  induction h with
  | null => exact .token .null
  | @bool _ b =>
      cases b with
      | true => exact .token .truth
      | false => exact .token .falsity
  | int hl hu => exact .token (Token.spelling_digits hl hu)
  | @str _ s => exact .token (Token.spelling_quote s)
  | arr _ ih =>
      intro ts rest hs
      have hall := TextOf.token .openArray (textOf_items ih (.token .closeArray hs))
      simpa [tokens, text] using hall
  | obj _ ih =>
      intro ts rest hs
      have hall := TextOf.token .openObject (textOf_members ih (.token .closeObject hs))
      simpa [tokens, text] using hall

/-- **A plain value that is written is read again.** -/
theorem parse?_encode {v : Json} (h : Plain maxDepth v) : parse? v.encode = some v := by
  have htext := h.textOf (.nil (List.forall_mem_nil _))
  rw [List.append_nil, List.append_nil] at htext
  exact parse?_eq_some_iff.mpr ⟨⟨v.text, rfl, htext⟩, h.nests⟩

end PdfWorker.Json
