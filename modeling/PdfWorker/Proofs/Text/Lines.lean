import PdfWorker.Proofs.Text.Octets
set_option autoImplicit false

/-! # Lines of octets and lines of text

A text is decoded as a whole and cut into lines afterwards. An octet below 0x80 belongs to no longer
sequence: it ends a begun one and stands for itself, whatever octets are around it
(`decodeLossy_append_cons`). So the lines of the decoded text are the decoded lines of the octets
(`lines_decodeLossy`).
-/

namespace PdfWorker.Text

/-! ## Cutting at a mark -/

theorem modifyHead_nil_append (pieces : List (List Char)) :
    pieces.modifyHead ([] ++ ·) = pieces := by
  cases pieces <;> rfl

theorem splitFrom_eq_splitOn (mark : Char) (done : List (List Char)) (begun text : List Char) :
    splitFrom mark done begun text
      = done.reverse ++ (text.splitOn mark).modifyHead (begun.reverse ++ ·) := by
  induction text generalizing done begun with
  | nil => simp [splitFrom]
  | cons c cs ih =>
      rw [splitFrom, List.splitOn_cons_eq_if_modifyHead]
      by_cases h : c = mark
      · have hsame := modifyHead_nil_append (cs.splitOn mark)
        simp only [List.nil_append] at hsame
        simp [h, ih, hsame]
      · simp [h, ih, List.modifyHead_modifyHead, Function.comp_def]

/-- The pieces between marks are those of the library's function. -/
theorem split_eq_splitOn (mark : Char) (text : List Char) :
    split mark text = text.splitOn mark := by
  rw [split, splitFrom_eq_splitOn, List.reverse_nil, List.nil_append]
  exact modifyHead_nil_append (text.splitOn mark)

theorem lines_eq_splitOn (text : List Char) : lines text = text.splitOn '\n' :=
  split_eq_splitOn '\n' text

/-- The pieces of a beginning are pieces of the whole, but for the last one, which may go on. -/
theorem splitOn_append {α : Type} [DecidableEq α] (mark : α) (front back : List α) :
    ∃ whole cut more rest, front.splitOn mark = whole ++ [cut]
      ∧ (front ++ back).splitOn mark = whole ++ (cut ++ more) :: rest := by
  induction front with
  | nil =>
      obtain ⟨more, rest, hback⟩ := List.exists_cons_of_ne_nil (List.splitOn_ne_nil mark back)
      exact ⟨[], [], more, rest, List.splitOn_nil mark, hback⟩
  | cons c front ih =>
      obtain ⟨whole, cut, more, rest, hfront, hall⟩ := ih
      rw [List.cons_append, List.splitOn_cons_eq_if_modifyHead, List.splitOn_cons_eq_if_modifyHead,
        hfront, hall]
      split
      · exact ⟨[] :: whole, cut, more, rest, rfl, rfl⟩
      · -- the character belongs to the first piece, which is the cut one if there is no other
        cases whole with
        | nil => exact ⟨[], c :: cut, more, rest, rfl, rfl⟩
        | cons first whole => exact ⟨(c :: first) :: whole, cut, more, rest, rfl, rfl⟩

/-! ## Octets that stand for themselves -/

namespace Lossy

/-- A begun sequence is wide: neither an octet that continues it nor the character that it stands
for is below 0x80. -/
structure Begun.Wide (p : Begun) : Prop where
  low : 0x80 ≤ p.low.toNat
  high : p.high.toNat < 0xC0
  least : 0x80 ≤ (p.bits * 64 + p.low.toNat % 64) * 64 ^ (p.need - 1)

theorem wide_continuing {need bits : Nat} (h : 0x80 ≤ bits * 64 * 64 ^ (need - 1)) :
    (continuing need bits).Wide where
  low := Nat.le_refl 0x80
  high := by
    show 0xBF < 0xC0
    decide
  least := by
    show 0x80 ≤ (bits * 64 + 0x80 % 64) * 64 ^ (need - 1)
    exact h

theorem wide_beginning {b : UInt8} {p : Begun} (h : beginning b = some p) : p.Wide := by
  simp only [beginning, UInt8.le_iff_toNat_le, UInt8.reduceToNat] at h
  repeat' split at h
  all_goals cases h
  · exact wide_continuing (by simp only [Nat.sub_self, Nat.pow_zero]; omega)
  · exact ⟨by decide, by decide, by decide⟩
  · exact ⟨by decide, by decide, by decide⟩
  · exact wide_continuing (by omega)
  · exact ⟨by decide, by decide, by decide⟩
  · exact wide_continuing (by omega)
  · exact ⟨by decide, by decide, by decide⟩

/-- A state is sound if the sequence that it has begun is wide. -/
def State.Sound (s : State) : Prop := ∀ p ∈ s.begun, p.Wide

theorem sound_start : start.Sound := by
  intro p hp
  cases hp

theorem sound_fresh (found : List Char) (b : UInt8) : (fresh found b).Sound := by
  intro p hp
  unfold fresh at hp
  split at hp
  · cases hp
  · split at hp
    · rename_i q hq
      cases hp
      exact wide_beginning hq
    · cases hp

theorem sound_octet {s : State} (h : s.Sound) (b : UInt8) : (octet s b).Sound := by
  obtain ⟨found, begun⟩ := s
  cases begun with
  | none => exact sound_fresh found b
  | some p =>
      obtain ⟨hlow, hhigh, hleast⟩ := h p rfl
      simp only [octet]
      split
      · rename_i hb
        split
        · intro q hq
          cases hq
        · rename_i hneed
          intro q hq
          cases hq
          have hbits : p.bits * 64 + p.low.toNat % 64 ≤ p.bits * 64 + b.toNat % 64 := by
            rw [UInt8.le_iff_toNat_le, UInt8.le_iff_toNat_le] at hb
            omega
          have hpow : 64 * 64 ^ (p.need - 1 - 1) = 64 ^ (p.need - 1) := by
            have hsucc : (p.need - 1 - 1).succ = p.need - 1 := by omega
            rw [← Nat.pow_succ', hsucc]
          refine wide_continuing ?_
          calc 0x80 ≤ (p.bits * 64 + p.low.toNat % 64) * 64 ^ (p.need - 1) := hleast
            _ ≤ (p.bits * 64 + b.toNat % 64) * 64 ^ (p.need - 1) := Nat.mul_le_mul_right _ hbits
            _ = (p.bits * 64 + b.toNat % 64) * 64 * 64 ^ (p.need - 1 - 1) := by
                rw [Nat.mul_assoc, hpow]
      · exact sound_fresh _ b

theorem sound_foldl {s : State} (h : s.Sound) (raw : List UInt8) : (raw.foldl octet s).Sound := by
  induction raw generalizing s with
  | nil => exact h
  | cons b rest ih => exact ih (sound_octet h b)

/-- **An octet below 0x80** ends what is begun and stands for itself. -/
theorem octet_of_lt {s : State} (h : s.Sound) {b : UInt8} (hb : b < 0x80) :
    octet s b = ⟨Char.ofNat b.toNat :: s.text.reverse, none⟩ := by
  obtain ⟨found, begun⟩ := s
  cases begun with
  | none => simp [octet, fresh, hb, State.text]
  | some p =>
      have hlow := (h p rfl).low
      have hnot : ¬ (p.low ≤ b ∧ b ≤ p.high) := by
        rw [UInt8.le_iff_toNat_le]
        have : b.toNat < 0x80 := hb
        omega
      simp [octet, hnot, fresh, hb, State.text]

/-- The state with further characters found before. -/
def State.behind (before : List Char) (s : State) : State := ⟨s.found ++ before.reverse, s.begun⟩

theorem octet_behind (before : List Char) (s : State) (b : UInt8) :
    octet (s.behind before) b = (octet s b).behind before := by
  obtain ⟨found, begun⟩ := s
  have hfresh : ∀ found, fresh (found ++ before.reverse) b = (fresh found b).behind before := by
    intro found
    unfold fresh
    split
    · rfl
    · split <;> rfl
  cases begun with
  | none => exact hfresh found
  | some p =>
      simp only [octet, State.behind]
      split
      · split <;> rfl
      · exact hfresh (replacement :: found)

theorem foldl_behind (before : List Char) (s : State) (raw : List UInt8) :
    raw.foldl octet (s.behind before) = (raw.foldl octet s).behind before := by
  induction raw generalizing s with
  | nil => rfl
  | cons b rest ih => rw [List.foldl_cons, octet_behind, ih, List.foldl_cons]

theorem text_behind (before : List Char) (s : State) :
    (s.behind before).text = before ++ s.text := by
  obtain ⟨found, begun⟩ := s
  cases begun <;> simp [State.behind, State.text]

end Lossy

/-- **An octet below 0x80 stands for itself**, and what stands before it and behind it is read as if
the other were not there. -/
theorem decodeLossy_append_cons (front back : List UInt8) {b : UInt8} (hb : b < 0x80) :
    decodeLossy (front ++ b :: back)
      = decodeLossy front ++ Char.ofNat b.toNat :: decodeLossy back := by
  have hfront := Lossy.sound_foldl Lossy.sound_start front
  have hstate : Lossy.octet (front.foldl Lossy.octet Lossy.start) b
      = Lossy.start.behind (decodeLossy front ++ [Char.ofNat b.toNat]) := by
    rw [Lossy.octet_of_lt hfront hb]
    simp [Lossy.State.behind, Lossy.start, decodeLossy]
  rw [decodeLossy, List.foldl_append, List.foldl_cons, hstate, Lossy.foldl_behind,
    Lossy.text_behind, List.append_assoc, List.singleton_append]
  rfl

/-! ## Lines -/

/-- The octet that ends a line. -/
def lineFeed : UInt8 := 0x0A

theorem ofNat_ne_lineFeed {n : Nat} (h : n ≠ 0x0A) : Char.ofNat n ≠ '\n' := by
  intro he
  by_cases hv : n.isValidChar
  · have hchar : Char.ofNat n = Char.ofNatAux n hv := dif_pos hv
    exact h (congrArg Char.toNat (hchar.symm.trans he))
  · have hchar : Char.ofNat n = '\x00' := dif_neg hv
    exact absurd (hchar.symm.trans he) (by decide)

namespace Lossy

theorem lineFeed_notMem_fresh {found : List Char} (h : '\n' ∉ found) {b : UInt8}
    (hb : b ≠ lineFeed) : '\n' ∉ (fresh found b).found := by
  have hnat : b.toNat ≠ 0x0A := fun he => hb (UInt8.toNat_inj.mp he)
  unfold fresh
  split
  · exact List.not_mem_cons_of_ne_of_not_mem (ofNat_ne_lineFeed hnat).symm h
  · split
    · exact h
    · exact List.not_mem_cons_of_ne_of_not_mem (by decide) h

theorem lineFeed_notMem_octet {s : State} (hs : s.Sound) (h : '\n' ∉ s.found) {b : UInt8}
    (hb : b ≠ lineFeed) : '\n' ∉ (octet s b).found := by
  obtain ⟨found, begun⟩ := s
  cases begun with
  | none => exact lineFeed_notMem_fresh h hb
  | some p =>
      have hp := hs p rfl
      simp only [octet]
      split
      · rename_i hrange
        split
        · -- the last octet of a wide sequence completes a character that is no line feed
          rename_i hneed
          have hone : p.need - 1 = 0 := by omega
          have hleast := hp.least
          rw [hone, Nat.pow_zero, Nat.mul_one] at hleast
          rw [UInt8.le_iff_toNat_le, UInt8.le_iff_toNat_le] at hrange
          have hlow := hp.low
          have hhigh := hp.high
          exact List.not_mem_cons_of_ne_of_not_mem (ofNat_ne_lineFeed (by omega)).symm h
        · exact h
      · exact lineFeed_notMem_fresh (List.not_mem_cons_of_ne_of_not_mem (by decide) h) hb

theorem lineFeed_notMem_foldl {s : State} (hs : s.Sound) (h : '\n' ∉ s.found) {raw : List UInt8}
    (hraw : lineFeed ∉ raw) : '\n' ∉ (raw.foldl octet s).found := by
  induction raw generalizing s with
  | nil => exact h
  | cons b rest ih =>
      obtain ⟨hb, hrest⟩ := not_or.mp (mt List.mem_cons.mpr hraw)
      exact ih (sound_octet hs b) (lineFeed_notMem_octet hs h (Ne.symm hb)) hrest

end Lossy

/-- Without a line feed among the octets there is none in the text. -/
theorem lineFeed_notMem_decodeLossy {raw : List UInt8} (h : lineFeed ∉ raw) :
    '\n' ∉ decodeLossy raw := by
  have hfound := Lossy.lineFeed_notMem_foldl Lossy.sound_start (by simp [Lossy.start]) h
  rw [decodeLossy, Lossy.State.text]
  split
  · rwa [List.mem_reverse]
  · rw [List.mem_reverse]
    exact List.not_mem_cons_of_ne_of_not_mem (by decide) hfound

/-- **The lines of the decoded text are the decoded lines of the octets.** -/
theorem lines_decodeLossy (raw : List UInt8) :
    lines (decodeLossy raw) = (raw.splitOn lineFeed).map decodeLossy := by
  by_cases h : lineFeed ∈ raw
  · obtain ⟨line, rest, rfl, hline⟩ := List.eq_append_cons_of_mem h
    have hrest := lines_decodeLossy rest
    have hbreak : Char.ofNat lineFeed.toNat = '\n' := rfl
    have hfirst := lineFeed_notMem_decodeLossy hline
    rw [decodeLossy_append_cons line rest (by decide), hbreak, lines_eq_splitOn,
      List.splitOn_append_cons_self_of_not_mem hfirst, ← lines_eq_splitOn, hrest,
      List.splitOn_append_cons_self_of_not_mem hline, List.map_cons]
  · have hone := lineFeed_notMem_decodeLossy h
    rw [lines_eq_splitOn, List.splitOn_eq_singleton hone, List.splitOn_eq_singleton h]
    rfl
termination_by raw.length

end PdfWorker.Text
