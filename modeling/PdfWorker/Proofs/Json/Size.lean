import PdfWorker.Proofs.Json.Token
import PdfWorker.Proofs.Text.Octets
set_option autoImplicit false

/-! # How long written values are

`Json.size` is the length of a value's text. An escape takes at most six octets, which bounds a
string (`octets_quote_le`); an array and an object take what they hold (`size_arr_le`,
`size_obj_cons`).
-/

namespace PdfWorker.Json

open Text (octets octets_nil octets_cons octets_append)

/-- The octets of a value's text. -/
def size (v : Json) : Nat := octets v.text

theorem size_encode (v : Json) : v.encode.size = v.size := by
  rw [encode, String.toUTF8_eq_toByteArray, String.size_toByteArray, Text.utf8ByteSize_ofList, size]

/-! ## Strings -/

theorem utf8Size_hexDigit {n : Nat} (h : n < 16) : (hexDigit n).utf8Size = 1 := by
  revert n
  decide

/-- An escaped character takes at most six octets. -/
theorem octets_escape_le (c : Char) : octets (escape c) ≤ 6 := by
  rcases Token.escape_cases c with ⟨e, he, -, -⟩ | ⟨hsmall, he⟩ | ⟨-, -, -, he⟩
  · have hletter := e.utf8Size_le_four
    have hmark : ('\\' : Char).utf8Size = 1 := rfl
    rw [he, octets_cons, octets_cons, octets_nil, hmark]
    omega
  · have hhigh : (hexDigit (c.toNat / 16)).utf8Size = 1 := utf8Size_hexDigit (by omega)
    have hlow : (hexDigit (c.toNat % 16)).utf8Size = 1 := utf8Size_hexDigit (by omega)
    rw [he]
    simp only [octets_cons, octets_nil, hhigh, hlow]
    decide
  · have hchar := c.utf8Size_le_four
    rw [he, octets_cons, octets_nil]
    omega

theorem octets_flatMap_escape_le (cs : List Char) :
    octets (cs.flatMap escape) ≤ 6 * cs.length := by
  induction cs with
  | nil => exact Nat.le_refl 0
  | cons c cs ih =>
      have hc := octets_escape_le c
      rw [List.flatMap_cons, octets_append, List.length_cons]
      omega

theorem octets_quote (s : String) : octets (quote s) = octets (s.toList.flatMap escape) + 2 := by
  have hmark : ('"' : Char).utf8Size = 1 := rfl
  simp only [quote, List.cons_append, octets_cons, octets_append, octets_nil, hmark]
  omega

/-- **A string in quotes** is at most six times as long as the string, and two octets longer. -/
theorem octets_quote_le (s : String) : octets (quote s) ≤ 6 * s.toList.length + 2 := by
  have h := octets_flatMap_escape_le s.toList
  rw [octets_quote]
  omega

theorem octets_quote_append (s t : String) :
    octets (quote (s ++ t)) + 2 = octets (quote s) + octets (quote t) := by
  rw [octets_quote, octets_quote, octets_quote, String.toList_append, List.flatMap_append,
    octets_append]
  omega

/-! ## Numbers -/

theorem utf8Size_of_isDigit {c : Char} (h : c.isDigit = true) : c.utf8Size = 1 := by
  rw [Char.utf8Size_eq_one_iff]
  simp only [Char.isDigit, Bool.and_eq_true, decide_eq_true_eq] at h
  exact UInt32.le_trans h.2 (by decide)

theorem octets_toDigits (n : Nat) : octets (Nat.toDigits 10 n) = (Nat.toDigits 10 n).length := by
  have hdigit : ∀ c ∈ Nat.toDigits 10 n, c.utf8Size = 1 := fun c hc =>
    utf8Size_of_isDigit (Nat.isDigit_of_mem_toDigits (by decide) (by decide) hc)
  generalize Nat.toDigits 10 n = ds at hdigit
  induction ds with
  | nil => rfl
  | cons d ds ih =>
      rw [octets_cons, List.length_cons, hdigit d (List.mem_cons_self ..),
        ih fun c hc => hdigit c (List.mem_cons_of_mem _ hc)]
      omega

/-- A number takes its digits and perhaps a sign. -/
theorem size_int_le {n : Int} {k : Nat} (h : (Nat.toDigits 10 n.natAbs).length ≤ k) :
    (int n).size ≤ k + 1 := by
  have hdigits : octets (Nat.toDigits 10 n.natAbs) ≤ k := by
    rw [octets_toDigits]
    exact h
  have hsign : ('-' : Char).utf8Size = 1 := rfl
  rw [size, text, digits]
  split
  · rw [octets_cons, hsign]
    omega
  · omega

/-! ## Containers -/

theorem octets_itemsText_le (items : List Json) :
    octets (itemsText items) ≤ (items.map fun v => v.size + 1).sum := by
  induction items with
  | nil => exact Nat.le_refl 0
  | cons v rest ih =>
      cases rest with
      | nil =>
          rw [itemsText, List.map_cons, List.map_nil, List.sum_cons, List.sum_nil, size]
          omega
      | cons w rest =>
          have hcomma : (',' : Char).utf8Size = 1 := rfl
          rw [itemsText, octets_append, octets_cons, hcomma, List.map_cons, List.sum_cons, size]
          omega

/-- **An array** takes what its items take, and one octet more for each. -/
theorem size_arr_le (items : List Json) :
    (arr items).size ≤ (items.map fun v => v.size + 1).sum + 2 := by
  have h := octets_itemsText_le items
  have hopen : ('[' : Char).utf8Size = 1 := rfl
  have hclose : (']' : Char).utf8Size = 1 := rfl
  rw [size, text, List.cons_append, octets_cons, octets_append, octets_cons, octets_nil, hopen,
    hclose]
  omega

/-- What a member takes, with a colon and a comma. -/
def memberSize (m : String × Json) : Nat := octets (quote m.1) + m.2.size + 2

/-- The last member has no comma behind it. -/
theorem octets_membersText (m : String × Json) (rest : List (String × Json)) :
    octets (membersText (m :: rest)) + 1 = ((m :: rest).map memberSize).sum := by
  have hcolon : (':' : Char).utf8Size = 1 := rfl
  have hcomma : (',' : Char).utf8Size = 1 := rfl
  induction rest generalizing m with
  | nil =>
      obtain ⟨k, v⟩ := m
      rw [membersText, octets_append, octets_cons, hcolon, List.map_cons, List.map_nil,
        List.sum_cons, List.sum_nil, memberSize, size]
      simp only
      omega
  | cons m' rest ih =>
      obtain ⟨k, v⟩ := m
      have hrest := ih m'
      rw [membersText, octets_append, octets_append, octets_cons, octets_cons, hcolon, hcomma,
        List.map_cons, List.sum_cons, memberSize, size]
      simp only
      omega

/-- **An object** takes what its members take, and one octet more. -/
theorem size_obj_cons (m : String × Json) (rest : List (String × Json)) :
    (obj (m :: rest)).size = ((m :: rest).map memberSize).sum + 1 := by
  have h := octets_membersText m rest
  have hopen : ('\x7b' : Char).utf8Size = 1 := rfl
  have hclose : ('\x7d' : Char).utf8Size = 1 := rfl
  rw [size, text, List.cons_append, octets_cons, octets_append, octets_cons, octets_nil, hopen,
    hclose]
  omega

end PdfWorker.Json
