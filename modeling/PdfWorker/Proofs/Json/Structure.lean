import PdfWorker.Json.Parser
set_option autoImplicit false

/-! # Tokens of a value

A value is written as one sequence of tokens, `Json.tokens`. The parser reads that sequence as the
value and no other (`ofTokens?_eq_some_iff`), if at most `maxDepth` containers stand inside one
another (`Json.Nests`). In one direction this is an induction on the value; in the other, each state
of the parser stands for the tokens that led to it (`State.tokens`), and one token is one more
(`State.step_tokens`).
-/

namespace PdfWorker.Json

/-! ## The tokens -/

mutual

/-- The tokens that write a value. -/
def tokens : Json → List Token
  | null => [.atom .null]
  | bool b => [.atom (.bool b)]
  | int n => [.atom (.int n)]
  | real l => [.atom (.real l)]
  | str s => [.string s]
  | arr items => .openArray :: itemsTokens items ++ [.closeArray]
  | obj members => .openObject :: membersTokens members ++ [.closeObject]

/-- Values with commas between them. -/
def itemsTokens : List Json → List Token
  | [] => []
  | [v] => tokens v
  | v :: w :: rest => tokens v ++ .comma :: itemsTokens (w :: rest)

/-- Keys and values with commas between them. -/
def membersTokens : List (String × Json) → List Token
  | [] => []
  | [(k, v)] => .string k :: .colon :: tokens v
  | (k, v) :: m :: rest => .string k :: .colon :: tokens v ++ .comma :: membersTokens (m :: rest)

end

/-- At most so many containers stand inside one another. -/
inductive Nests : Nat → Json → Prop where
  | null {depth} : Nests depth .null
  | bool {depth b} : Nests depth (.bool b)
  | int {depth n} : Nests depth (.int n)
  | real {depth l} : Nests depth (.real l)
  | str {depth s} : Nests depth (.str s)
  | arr {depth items} (h : ∀ v ∈ items, Nests depth v) : Nests (depth + 1) (.arr items)
  | obj {depth members} (h : ∀ m ∈ members, Nests depth m.2) : Nests (depth + 1) (.obj members)

/-- An atom is a value that has no other tokens. -/
def Token.Flat : Token → Prop
  | .atom v => v.tokens = [.atom v]
  | _ => True

theorem Nests.of_flat {depth : Nat} {v : Json} (h : (Token.atom v).Flat) : Nests depth v := by
  cases v with
  | null => exact .null
  | bool => exact .bool
  | int => exact .int
  | real => exact .real
  | str => exact .str
  | arr | obj => cases h

/-! ## Reading the tokens of a value -/

/-- The parser takes the tokens one after the other. -/
def run (state : State) (tokens : List Token) : Option State :=
  tokens.foldlM (State.step (some maxDepth)) state

theorem run_append (state : State) (front back : List Token) :
    run state (front ++ back) = (run state front).bind fun mid => run mid back :=
  List.foldlM_append

theorem run_openArray {around : List Level} (h : around.length < maxDepth) (tokens : List Token) :
    run (.value around) (.openArray :: tokens) = run (.firstItem around) tokens := by
  have hmay : State.mayOpen (some maxDepth) around = true := decide_eq_true h
  have hstep : State.step (some maxDepth) (.value around) .openArray = some (.firstItem around) :=
    if_pos hmay
  rw [run, List.foldlM_cons, hstep]
  rfl

theorem run_openObject {around : List Level} (h : around.length < maxDepth)
    (tokens : List Token) :
    run (.value around) (.openObject :: tokens) = run (.firstKey around) tokens := by
  have hmay : State.mayOpen (some maxDepth) around = true := decide_eq_true h
  have hstep : State.step (some maxDepth) (.value around) .openObject = some (.firstKey around) :=
    if_pos hmay
  rw [run, List.foldlM_cons, hstep]
  rfl

/-- The first value of an array may be read as any other. -/
theorem run_firstItem {tokens : List Token} {v : Json} {around : List Level}
    (h : run (.value (.arr [] :: around)) tokens = some (State.deliver v around)) :
    run (.firstItem around) tokens = some (State.deliver v around) := by
  cases tokens with
  | nil =>
      rcases around with _ | ⟨_ | _, around⟩ <;> cases h
  | cons t tokens =>
      cases t with
      | closeArray => cases h
      | openArray | closeObject | openObject | comma | colon | string | atom => exact h

/-- The parser reads the tokens of the value as the value, wherever one with so many containers
inside one another may stand. -/
def Reads (depth : Nat) (v : Json) : Prop :=
  ∀ around : List Level, depth + around.length ≤ maxDepth →
    run (.value around) v.tokens = some (State.deliver v around)

theorem reads_items {depth : Nat} {v : Json} {vs : List Json} (h : ∀ w ∈ v :: vs, Reads depth w)
    (seen : List Json) {around : List Level} (hd : depth + (around.length + 1) ≤ maxDepth) :
    run (.value (.arr seen :: around)) (itemsTokens (v :: vs) ++ [.closeArray])
      = some (State.deliver (.arr (seen.reverse ++ v :: vs)) around) := by
  have hv := h v (List.mem_cons_self ..) (.arr seen :: around) hd
  induction vs generalizing v seen with
  | nil =>
      -- the last item stands before the bracket that closes the array
      rw [itemsTokens, run_append, hv]
      simp [run, State.deliver, State.step]
  | cons w ws ih =>
      -- an item stands before a comma, and the parser has seen it when the next one comes
      have hothers : ∀ u ∈ w :: ws, Reads depth u := fun u hu => h u (List.mem_cons_of_mem _ hu)
      have hnext := ih hothers (v :: seen)
        (hothers w (List.mem_cons_self ..) (.arr (v :: seen) :: around) hd)
      rw [List.reverse_cons, List.append_assoc, List.singleton_append] at hnext
      rw [itemsTokens, List.append_assoc, run_append, hv]
      exact hnext

theorem reads_members {depth : Nat} {k : String} {v : Json} {ms : List (String × Json)}
    (h : ∀ m ∈ (k, v) :: ms, Reads depth m.2) (seen : List (String × Json)) {around : List Level}
    (hd : depth + (around.length + 1) ≤ maxDepth) :
    run (.key seen around) (membersTokens ((k, v) :: ms) ++ [.closeObject])
      = some (State.deliver (.obj (seen.reverse ++ (k, v) :: ms)) around) := by
  have hv := h (k, v) (List.mem_cons_self ..) (.obj seen k :: around) hd
  induction ms generalizing k v seen with
  | nil =>
      -- the last member stands before the brace that closes the object
      show run (.value (.obj seen k :: around)) (v.tokens ++ [.closeObject]) = _
      rw [run_append, hv]
      simp [run, State.deliver, State.step]
  | cons m ms ih =>
      -- a member stands before a comma, and the next key follows it
      obtain ⟨k', v'⟩ := m
      have hothers : ∀ m ∈ (k', v') :: ms, Reads depth m.2 :=
        fun m hm => h m (List.mem_cons_of_mem _ hm)
      have hnext := ih hothers ((k, v) :: seen)
        (hothers _ (List.mem_cons_self ..) (.obj ((k, v) :: seen) k' :: around) hd)
      rw [List.reverse_cons, List.append_assoc, List.singleton_append] at hnext
      show run (.value (.obj seen k :: around))
        (v.tokens ++ .comma :: membersTokens ((k', v') :: ms) ++ [.closeObject]) = _
      rw [List.append_assoc, run_append, hv]
      exact hnext

/-- Every value is read from its tokens. -/
theorem Nests.reads {depth : Nat} {v : Json} (h : Nests depth v) : Reads depth v := by
  have hatom : ∀ (depth : Nat) (t : Token) (v : Json), v.tokens = [t] →
      (∀ around, State.begin (some maxDepth) around t = some (State.deliver v around)) →
      Reads depth v := by
    intro depth t v hv hbegin around _
    rw [hv]
    simp [run, State.step, hbegin]
  induction h with
  | null => exact hatom _ (.atom .null) .null rfl fun _ => rfl
  | @bool _ b => exact hatom _ (.atom (.bool b)) (.bool b) rfl fun _ => rfl
  | @int _ n => exact hatom _ (.atom (.int n)) (.int n) rfl fun _ => rfl
  | @real _ l => exact hatom _ (.atom (.real l)) (.real l) rfl fun _ => rfl
  | @str _ s => exact hatom _ (.string s) (.str s) rfl fun _ => rfl
  | @arr depth items _ ih =>
      intro around hd
      cases items with
      | nil => exact run_openArray (by omega) [.closeArray]
      | cons v vs =>
          rw [tokens, List.cons_append, run_openArray (by omega)]
          exact run_firstItem (reads_items ih [] (by omega))
  | @obj depth members _ ih =>
      intro around hd
      cases members with
      | nil => exact run_openObject (by omega) [.closeObject]
      | cons m ms =>
          have hfirst : run (.firstKey around) (membersTokens (m :: ms) ++ [.closeObject])
              = run (.key [] around) (membersTokens (m :: ms) ++ [.closeObject]) := by
            cases ms <;> rfl
          rw [tokens, List.cons_append, run_openObject (by omega), hfirst]
          exact reads_members ih [] (by omega)

/-! ## Reading nothing else -/

/-- The values that an open container holds. -/
def Level.values : Level → List Json
  | arr items => items
  | obj members _ => members.map (·.2)

/-- The tokens of an open container. -/
def Level.tokens : Level → List Token
  | arr items => .openArray :: items.reverse.flatMap fun v => v.tokens ++ [.comma]
  | obj members key =>
    .openObject :: (members.reverse.flatMap fun m => .string m.1 :: .colon :: m.2.tokens ++ [.comma])
      ++ [.string key, .colon]

/-- The tokens of open containers, innermost first. -/
def openTokens : List Level → List Token
  | [] => []
  | level :: around => openTokens around ++ level.tokens

/-- Open containers that do not nest too deep, nor do the values in them. -/
def Sound : List Level → Prop
  | [] => True
  | level :: around => around.length < maxDepth
    ∧ (∀ v ∈ level.values, Nests (maxDepth - (around.length + 1)) v) ∧ Sound around

theorem itemsTokens_concat (items : List Json) (v : Json) :
    itemsTokens (items ++ [v]) = (items.flatMap fun w => w.tokens ++ [.comma]) ++ v.tokens := by
  induction items with
  | nil => rw [List.nil_append, itemsTokens]; rfl
  | cons w rest ih =>
      rw [List.flatMap_cons, List.append_assoc, ← ih]
      cases rest <;> simp [itemsTokens]

theorem membersTokens_concat (members : List (String × Json)) (k : String) (v : Json) :
    membersTokens (members ++ [(k, v)])
      = (members.flatMap fun m => .string m.1 :: .colon :: m.2.tokens ++ [.comma])
        ++ .string k :: .colon :: v.tokens := by
  induction members with
  | nil => rw [List.nil_append, membersTokens]; rfl
  | cons m rest ih =>
      obtain ⟨k', w⟩ := m
      rw [List.flatMap_cons, List.append_assoc, ← ih]
      cases rest <;> simp [membersTokens]

namespace State

/-- The tokens that lead to a state. -/
def tokens : State → List Token
  | value around => openTokens around
  | firstItem around => openTokens (.arr [] :: around)
  | afterItem items around => openTokens around ++ .openArray :: itemsTokens items.reverse
  | firstKey around => openTokens around ++ [.openObject]
  | key members around => openTokens around ++ .openObject ::
      members.reverse.flatMap fun m => .string m.1 :: .colon :: m.2.tokens ++ [.comma]
  | colon members k around => openTokens around ++ .openObject ::
      (members.reverse.flatMap fun m => .string m.1 :: .colon :: m.2.tokens ++ [.comma])
        ++ [.string k]
  | afterMember members around => openTokens around ++ .openObject :: membersTokens members.reverse
  | complete v => v.tokens

/-- What has been read does not nest too deep, and a value stands before a comma or an end. -/
def Sound : State → Prop
  | value around => Json.Sound around
  | firstItem around => Json.Sound (.arr [] :: around)
  | afterItem items around => items ≠ [] ∧ Json.Sound (.arr items :: around)
  | firstKey around => Json.Sound (.obj [] "" :: around)
  | key members around => Json.Sound (.obj members "" :: around)
  | colon members k around => Json.Sound (.obj members k :: around)
  | afterMember members around => members ≠ [] ∧ Json.Sound (.obj members "" :: around)
  | complete v => Nests maxDepth v

theorem deliver_tokens {v : Json} {around : List Level} (hv : Nests (maxDepth - around.length) v)
    (h : Json.Sound around) :
    (deliver v around).Sound ∧ (deliver v around).tokens = openTokens around ++ v.tokens := by
  cases around with
  | nil => exact ⟨hv, rfl⟩
  | cons level around =>
      obtain ⟨hlength, hvalues, haround⟩ := h
      have hall := List.forall_mem_cons.mpr ⟨hv, hvalues⟩
      cases level with
      | arr items =>
          refine ⟨⟨List.cons_ne_nil _ _, hlength, hall, haround⟩, ?_⟩
          simp [deliver, tokens, openTokens, Level.tokens, itemsTokens_concat]
      | obj members k =>
          refine ⟨⟨List.cons_ne_nil _ _, hlength, hall, haround⟩, ?_⟩
          simp [deliver, tokens, openTokens, Level.tokens, membersTokens_concat]

theorem begin_tokens {around : List Level} {t : Token} {next : State}
    (h : begin (some maxDepth) around t = some next) (ht : t.Flat) (ha : Json.Sound around) :
    next.Sound ∧ next.tokens = openTokens around ++ [t] := by
  have hopen : mayOpen (some maxDepth) around = true → around.length < maxDepth :=
    of_decide_eq_true
  unfold begin at h
  split at h
  · rename_i v
    cases h
    have hdeliver := deliver_tokens (Nests.of_flat ht) ha
    rw [ht] at hdeliver
    exact hdeliver
  · cases h
    exact deliver_tokens .str ha
  · split at h
    · rename_i hmay
      cases h
      exact ⟨⟨hopen hmay, List.forall_mem_nil _, ha⟩, rfl⟩
    · cases h
  · split at h
    · rename_i hmay
      cases h
      exact ⟨⟨hopen hmay, List.forall_mem_nil _, ha⟩, rfl⟩
    · cases h
  · cases h

/-- What one token adds behind items that are there. -/
theorem openTokens_arr {items : List Json} (h : items ≠ []) (around : List Level) :
    openTokens (.arr items :: around) = (afterItem items around).tokens ++ [.comma] := by
  obtain ⟨v, seen, rfl⟩ := List.exists_cons_of_ne_nil h
  simp [openTokens, Level.tokens, tokens, itemsTokens_concat]

theorem key_tokens {members : List (String × Json)} (h : members ≠ []) (around : List Level) :
    (key members around).tokens = (afterMember members around).tokens ++ [.comma] := by
  obtain ⟨⟨k, v⟩, seen, rfl⟩ := List.exists_cons_of_ne_nil h
  simp [tokens, membersTokens_concat]

/-- A container that closes nests one deeper than what it holds. -/
theorem nests_of_sound {level : Level} {around : List Level} (h : Json.Sound (level :: around))
    {v : Json} (hv : ∀ {depth}, (∀ w ∈ level.values, Nests depth w) → Nests (depth + 1) v) :
    Nests (maxDepth - around.length) v := by
  obtain ⟨hlength, hvalues, -⟩ := h
  have hdepth : maxDepth - around.length = maxDepth - (around.length + 1) + 1 := by omega
  rw [hdepth]
  exact hv hvalues

/-- **One token more** leads to the next state. -/
theorem step_tokens {state next : State} {t : Token}
    (h : step (some maxDepth) state t = some next) (ht : t.Flat) (hs : state.Sound) :
    next.Sound ∧ next.tokens = state.tokens ++ [t] := by
  -- a value may begin in two of the states, and in four a container may close and is delivered
  unfold step at h
  split at h
  case h_1 => exact begin_tokens h ht hs
  case h_2 around =>
    cases h
    have hdeliver := deliver_tokens (v := .arr []) (nests_of_sound hs fun _ =>
      .arr (List.forall_mem_nil _)) hs.2.2
    refine ⟨hdeliver.1, hdeliver.2.trans ?_⟩
    simp [tokens, openTokens, Level.tokens, Json.tokens, itemsTokens]
  case h_3 => exact begin_tokens h ht hs
  case h_4 items around =>
    cases h
    exact ⟨hs.2, openTokens_arr hs.1 around⟩
  case h_5 items around =>
    cases h
    have hdeliver := deliver_tokens (v := .arr items.reverse)
      (nests_of_sound hs.2 fun hall => .arr fun v hv => hall v (List.mem_reverse.mp hv)) hs.2.2.2
    refine ⟨hdeliver.1, hdeliver.2.trans ?_⟩
    simp [tokens, Json.tokens]
  case h_6 around =>
    cases h
    have hdeliver := deliver_tokens (v := .obj []) (nests_of_sound hs fun _ =>
      .obj (List.forall_mem_nil _)) hs.2.2
    refine ⟨hdeliver.1, hdeliver.2.trans ?_⟩
    simp [tokens, Json.tokens, membersTokens]
  case h_7 around k =>
    cases h
    exact ⟨hs, by simp [tokens]⟩
  case h_8 members around k =>
    cases h
    exact ⟨hs, by simp [tokens]⟩
  case h_9 members k around =>
    cases h
    exact ⟨hs, by simp [tokens, openTokens, Level.tokens]⟩
  case h_10 members around =>
    cases h
    exact ⟨hs.2, key_tokens hs.1 around⟩
  case h_11 members around =>
    cases h
    have hdeliver := deliver_tokens (v := .obj members.reverse) (nests_of_sound hs.2 fun hall =>
      .obj fun m hm => hall _ (List.mem_map_of_mem (List.mem_reverse.mp hm))) hs.2.2.2
    refine ⟨hdeliver.1, hdeliver.2.trans ?_⟩
    simp [tokens, Json.tokens]
  case h_12 => cases h

theorem run_tokens {state last : State} {ts : List Token} (h : run state ts = some last)
    (ht : ∀ t ∈ ts, t.Flat) (hs : state.Sound) :
    last.Sound ∧ last.tokens = state.tokens ++ ts := by
  induction ts generalizing state with
  | nil =>
      cases h
      exact ⟨hs, (List.append_nil _).symm⟩
  | cons t ts ih =>
      rw [run, List.foldlM_cons] at h
      obtain ⟨mid, hmid, hlast⟩ := Option.bind_eq_some_iff.mp h
      obtain ⟨hfirst, hothers⟩ := List.forall_mem_cons.mp ht
      obtain ⟨hsound, hmore⟩ := step_tokens hmid hfirst hs
      obtain ⟨hend, hall⟩ := ih hlast hothers hsound
      refine ⟨hend, ?_⟩
      rw [hall, hmore, List.append_assoc, List.singleton_append]

end State

/-- **The parser reads a value from its tokens and from no other**, if it does not nest too
deep. -/
theorem ofTokens?_eq_some_iff {ts : List Token} (ht : ∀ t ∈ ts, t.Flat) {v : Json} :
    ofTokens? ts = some v ↔ ts = v.tokens ∧ Nests maxDepth v := by
  constructor
  · intro h
    obtain ⟨last, hlast, hresult⟩ := Option.bind_eq_some_iff.mp h
    obtain ⟨hsound, htokens⟩ := State.run_tokens hlast ht trivial
    cases last with
    | complete w =>
        cases hresult
        exact ⟨htokens.symm, hsound⟩
    | _ => cases hresult
  · rintro ⟨rfl, hnests⟩
    have hstate := hnests.reads [] (Nat.le_refl _)
    rw [run] at hstate
    show (v.tokens.foldlM (State.step (some maxDepth)) (.value [])).bind State.result? = some v
    rw [hstate]
    rfl

end PdfWorker.Json
