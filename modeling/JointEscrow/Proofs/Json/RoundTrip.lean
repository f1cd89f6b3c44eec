import JointEscrow.Json.Parser
import JointEscrow.Json.Printer
import JointEscrow.Proofs.Bytes.Hex

/-!
# Reading back written values

The compact text of a value is read back as that value (`parse_compact`), as long as the value is
plain: made of constants, whole numbers from zero on, texts, lists and objects. Every form of a
record is. So two plain values with one text are one value, and the text of a value says where it
ends: whatever may follow a value in a list or an object is left over by its reader
(`readBack_of_plain`).
-/

namespace JointEscrow.Json

/-- Made of constants, whole numbers, texts, lists and objects. -/
inductive Plain : Json → Prop
  | null : Plain .null
  | bool (b : Bool) : Plain (.bool b)
  | num (n : UInt64) : Plain (.num n)
  | str (s : String) : Plain (.str s)
  | arr {items : List Json} (h : ∀ x ∈ items, Plain x) : Plain (.arr items)
  | obj {members : List (String × Json)} (h : ∀ m ∈ members, Plain m.2) : Plain (.obj members)

theorem skipGap_cons {c : Char} (h : isGap c = false) (r : List Char) :
    skipGap (c :: r) = c :: r := by
  unfold skipGap
  rw [List.dropWhile_cons_of_neg (by simp [h])]

/-! ## Numbers -/

/-- What may follow a value in a text: nothing, a comma or a closing bracket. -/
def Delimited (rest : List Char) : Prop := ∀ c ∈ rest.head?, c = ',' ∨ c = ']' ∨ c = '\x7d'

theorem delimited_cons {c : Char} {r : List Char} :
    Delimited (c :: r) ↔ c = ',' ∨ c = ']' ∨ c = '\x7d' := by
  simp [Delimited]

theorem not_isDigit_of_delimited {rest : List Char} (h : Delimited rest) :
    ∀ c ∈ rest.head?, c.isDigit = false := by
  intro c hc
  rcases h c hc with rfl | rfl | rfl <;> decide

theorem takeWhile_isDigit {ds rest : List Char} (hds : ∀ c ∈ ds, c.isDigit = true)
    (hrest : Delimited rest) :
    (ds ++ rest).takeWhile Char.isDigit = ds ∧ (ds ++ rest).dropWhile Char.isDigit = rest := by
  rw [List.takeWhile_append_of_pos hds, List.dropWhile_append_of_pos hds]
  cases rest with
  | nil => simp
  | cons c r =>
    have hc : c.isDigit = false := not_isDigit_of_delimited hrest c rfl
    simp [hc]

theorem digitsValue_toDigits (n : Nat) : digitsValue (Nat.toDigits 10 n) = n := by
  have hfold : ∀ (ds : List Char) (start : Nat),
      ds.foldl (fun n c => n * 10 + digitValue c) start = Nat.ofDigitChars 10 ds start := by
    intro ds start
    simp only [Nat.ofDigitChars_eq_foldl, Nat.mul_comm, digitValue]
    rfl
  rw [digitsValue, hfold, Nat.ofDigitChars_ten_toDigits]

/-- A number is written without leading zeros. -/
theorem toDigits_ne_zero_cons {n : Nat} {c : Char} {r : List Char} :
    Nat.toDigits 10 n ≠ '0' :: c :: r := by
  have hpos : ∀ n, 0 < n → ∀ r, Nat.toDigits 10 n ≠ '0' :: r := by
    intro n
    induction n using Nat.strongRecOn with
    | ind n ih =>
      intro hn r heq
      by_cases hsmall : n < 10
      · rw [Nat.toDigits_of_lt_base hsmall] at heq
        have hdigit : n.digitChar = '0' := (List.cons.inj heq).1
        interval_cases n <;> simp at hdigit
      · rw [Nat.toDigits_of_base_le (by decide) (by omega)] at heq
        -- the first digit is that of the number without its last digit
        cases hfront : Nat.toDigits 10 (n / 10) with
        | nil => exact Nat.toDigits_ne_nil hfront
        | cons d ds =>
          rw [hfront] at heq
          have hd : d = '0' := (List.cons.inj heq).1
          exact ih (n / 10) (by omega) (by omega) ds (hd ▸ hfront)
  intro heq
  by_cases hn : n = 0
  · rw [hn, Nat.toDigits_zero] at heq
    cases heq
  · exact hpos n (by omega) _ heq

theorem readNumber_toDigits (n : UInt64) {rest : List Char} (hrest : Delimited rest) :
    readNumber (Nat.toDigits 10 n.toNat ++ rest) = some (.num n, rest) := by
  have hds : ∀ c ∈ Nat.toDigits 10 n.toNat, c.isDigit = true := by
    intro c hc
    exact Nat.isDigit_of_mem_toDigits (by decide) (by decide) hc
  obtain ⟨htake, hdrop⟩ := takeWhile_isDigit hds hrest
  have hfraction : readFraction rest = some (none, rest) := by
    cases rest with
    | nil => rfl
    | cons c r => rcases delimited_cons.1 hrest with rfl | rfl | rfl <;> rfl
  have hexponent : readExponent rest = some (none, rest) := by
    cases rest with
    | nil => rfl
    | cons c r => rcases delimited_cons.1 hrest with rfl | rfl | rfl <;> rfl
  have hwhole : wholeOf false (Nat.toDigits 10 n.toNat) = .num n := by
    have hsize := n.toNat_lt_size
    unfold wholeOf
    simp only [digitsValue_toDigits, Bool.false_eq_true, if_false, if_pos hsize,
      UInt64.ofNat_toNat]
  cases hcons : Nat.toDigits 10 n.toNat with
  | nil => exact absurd hcons Nat.toDigits_ne_nil
  | cons d ds =>
    have hd : d.isDigit = true := hds d (hcons ▸ List.mem_cons_self)
    have hminus : d ≠ '-' := by
      rintro rfl
      exact absurd hd (by decide)
    have hzero : ∀ c r, d :: ds ≠ '0' :: c :: r := by
      intro c r heq
      exact toDigits_ne_zero_cons (hcons.trans heq)
    rw [hcons] at htake hdrop hwhole
    rw [readNumber, htake, hdrop, hfraction]
    · split
      · next h => cases h
      · next c r h => exact absurd h (hzero c r)
      · simp [hexponent, hwhole]
    · intro r heq
      exact hminus (List.cons.inj heq).1

/-! ## Texts -/

/-- The part of a quoted text stands for the character alone, whatever its neighbours are. -/
def Piece.Denotes (p : Piece) (c : Char) : Prop :=
  p = .char c ∨ p = .unit c.toNat ∧ c.toNat < 0xD800

theorem joinPieces_cons {p : Piece} {c : Char} (h : p.Denotes c) (r : List Piece) :
    joinPieces (p :: r) = (joinPieces r).map (c :: ·) := by
  rcases h with rfl | ⟨rfl, hlow⟩
  · rw [joinPieces]
  · -- a code unit that is no surrogate leaves the next part to itself
    have hsingle : ¬ (0xD800 ≤ c.toNat ∧ c.toNat < 0xE000) := by omega
    have hfirst : ¬ (0xD800 ≤ c.toNat ∧ c.toNat < 0xDC00) := by omega
    have hsecond : ¬ (0xDC00 ≤ c.toNat ∧ c.toNat < 0xE000) := by omega
    cases r with
    | nil => simp only [joinPieces, if_neg hsingle, Char.ofNat_toNat, Option.map_some]
    | cons q r =>
      cases q with
      | char d => simp only [joinPieces, if_neg hsingle, Char.ofNat_toNat]
      | unit m => rw [joinPieces, if_neg hfirst, if_neg hsecond, Char.ofNat_toNat]

theorem digitOf?_digit {n : Nat} (h : n < 16) : Hex.digitOf? (Hex.digit n) = some n := by
  unfold Hex.digitOf?
  rw [if_pos (Hex.toNat_digit_lt h), Hex.digitValue?_digit h]

theorem hexUnit?_of_lt {c : Char} (h : c.toNat < 0x20) :
    hexUnit? '0' '0' (Hex.digit (c.toNat / 16)) (Hex.digit (c.toNat % 16)) = some c.toNat := by
  have hhigh : Hex.digitOf? (Hex.digit (c.toNat / 16)) = some (c.toNat / 16) :=
    digitOf?_digit (by omega)
  have hlow : Hex.digitOf? (Hex.digit (c.toNat % 16)) = some (c.toNat % 16) :=
    digitOf?_digit (by omega)
  have hzero : Hex.digitOf? '0' = some 0 := by decide
  unfold hexUnit?
  rw [hhigh, hlow, hzero]
  simp only [Option.bind_eq_bind, Option.bind_some, Option.pure_def, Option.some.injEq]
  omega

/-- A written character is read as one part that denotes it. -/
theorem readPieces_escapeChar (c : Char) {s rest : List Char} {ps : List Piece}
    (h : readPieces s = some (ps, rest)) :
    ∃ p, p.Denotes c ∧ readPieces (escapeChar c ++ s) = some (p :: ps, rest) := by
  unfold escapeChar
  split
  · next hc => exact ⟨.char c, .inl rfl, by simp [hc, readPieces, shortEscape?, h]⟩
  split
  · next hc => exact ⟨.char c, .inl rfl, by simp [hc, readPieces, shortEscape?, h]⟩
  split
  · next hc => exact ⟨.char c, .inl rfl, by simp [hc, readPieces, shortEscape?, h]⟩
  split
  · next hc => exact ⟨.char c, .inl rfl, by simp [hc, readPieces, shortEscape?, h]⟩
  split
  · next hc => exact ⟨.char c, .inl rfl, by simp [hc, readPieces, shortEscape?, h]⟩
  split
  · next hc => exact ⟨.char c, .inl rfl, by simp [hc, readPieces, shortEscape?, h]⟩
  split
  · next hc => exact ⟨.char c, .inl rfl, by simp [hc, readPieces, shortEscape?, h]⟩
  split
  · next hcontrol =>
    -- the other control characters are written by their number
    refine ⟨.unit c.toNat, .inr ⟨rfl, by omega⟩, ?_⟩
    simp [readPieces, hexUnit?_of_lt hcontrol, h]
  · next hquote hbackslash _ _ _ _ _ hcontrol =>
    refine ⟨.char c, .inl rfl, ?_⟩
    rw [List.singleton_append, readPieces]
    · simp [hcontrol, hbackslash, h]
    · exact hquote
    · exact fun _ _ _ _ _ hc _ => hbackslash hc
    · exact fun _ _ hc _ => hbackslash hc

theorem readPieces_flatMap_escapeChar (cs rest : List Char) :
    ∃ ps, readPieces (cs.flatMap escapeChar ++ '"' :: rest) = some (ps, rest) ∧
      joinPieces ps = some cs := by
  induction cs with
  | nil => exact ⟨[], rfl, rfl⟩
  | cons c cs ih =>
    obtain ⟨ps, hread, hjoin⟩ := ih
    obtain ⟨p, hdenotes, hfirst⟩ := readPieces_escapeChar c hread
    refine ⟨p :: ps, ?_, ?_⟩
    · rw [List.flatMap_cons, List.append_assoc, hfirst]
    · rw [joinPieces_cons hdenotes, hjoin, Option.map_some]

theorem renderText_ofList (cs : List Char) :
    renderText (String.ofList cs) = '"' :: cs.flatMap escapeChar ++ ['"'] := by
  unfold renderText
  rw [String.toList_ofList]

theorem length_le_renderText (s : String) : s.toList.length ≤ (renderText s).length := by
  have hescape : ∀ c, escapeChar c ≠ [] := by
    intro c
    unfold escapeChar
    repeat' split
    all_goals exact List.cons_ne_nil _ _
  have hchars := length_le_length_flatMap hescape s.toList
  unfold renderText
  simp only [List.length_cons, List.length_append]
  omega

/-- A written text is read back after its opening quote. -/
theorem readText_renderText (s : String) (rest : List Char) :
    ∃ body, renderText s ++ rest = '"' :: body ∧ readText body = some (some s, rest) := by
  obtain ⟨ps, hread, hjoin⟩ := readPieces_flatMap_escapeChar s.toList rest
  refine ⟨s.toList.flatMap escapeChar ++ '"' :: rest, ?_, ?_⟩
  · unfold renderText
    simp
  · unfold readText
    rw [hread]
    simp [hjoin]

/-! ## Values -/

/-- The value is read back from the front of any text in which it is followed by nothing, a comma or
a closing bracket. -/
def ReadBack (j : Json) : Prop :=
  ∀ n rest, j.render.length ≤ n → Delimited rest → readValue n (j.render ++ rest) = some (j, rest)

theorem isGap_of_isDigit {c : Char} (h : c.isDigit = true) : isGap c = false := by
  by_contra hgap
  simp only [isGap, Bool.not_eq_false, Bool.or_eq_true, decide_eq_true_eq] at hgap
  rcases hgap with ((rfl | rfl) | rfl) | rfl <;> exact absurd h (by decide)

theorem toDigits_eq_cons (n : Nat) :
    ∃ d ds, Nat.toDigits 10 n = d :: ds ∧ d.isDigit = true := by
  cases hcons : Nat.toDigits 10 n with
  | nil => exact absurd hcons Nat.toDigits_ne_nil
  | cons d ds =>
    have hmem : d ∈ Nat.toDigits 10 n := hcons ▸ List.mem_cons_self
    exact ⟨d, ds, rfl, Nat.isDigit_of_mem_toDigits (by decide) (by decide) hmem⟩

/-- A written value starts with a character that is neither a gap nor the end of a list. -/
theorem render_eq_cons {j : Json} (h : Plain j) :
    ∃ c r, j.render = c :: r ∧ isGap c = false ∧ c ≠ ']' := by
  cases h with
  | null => exact ⟨'n', _, rfl, by decide⟩
  | bool b => cases b <;> exact ⟨_, _, rfl, by decide⟩
  | num n =>
    obtain ⟨d, ds, hcons, hd⟩ := toDigits_eq_cons n.toNat
    refine ⟨d, ds, hcons, isGap_of_isDigit hd, ?_⟩
    rintro rfl
    exact absurd hd (by decide)
  | str s => exact ⟨'"', _, rfl, by decide⟩
  | @arr items => cases items <;> exact ⟨'[', _, rfl, by decide⟩
  | @obj members => cases members <;> exact ⟨'\x7b', _, rfl, by decide⟩

theorem readBack_num (n : UInt64) : ReadBack (.num n) := by
  intro fuel rest hfuel hrest
  obtain ⟨d, ds, hcons, hd⟩ := toDigits_eq_cons n.toNat
  have hread := readNumber_toDigits n hrest
  change (Nat.toDigits 10 n.toNat).length ≤ fuel at hfuel
  change readValue fuel (Nat.toDigits 10 n.toNat ++ rest) = _
  rw [hcons] at hfuel hread ⊢
  cases fuel with
  | zero => cases hfuel
  | succ fuel =>
    rw [List.cons_append] at hread ⊢
    rw [readValue, skipGap_cons (isGap_of_isDigit hd)]
    -- a digit is the first character of no other value
    split
    case h_7 => exact hread
    all_goals
      next heq =>
        obtain ⟨rfl, -⟩ := List.cons.inj heq
        exact absurd hd (by decide)

/-! ### Lists -/

theorem readItems_last {x : Json} (hx : ReadBack x) {n : Nat} (hsize : x.render.length ≤ n)
    (rest : List Char) : readItems (n + 1) (x.render ++ ']' :: rest) = some ([x], rest) := by
  have hfirst := hx n (']' :: rest) hsize (delimited_cons.2 (.inr (.inl rfl)))
  rw [readItems, hfirst]
  rfl

theorem readItems_more {x : Json} (hx : ReadBack x) {n : Nat} (hsize : x.render.length ≤ n)
    {s rest : List Char} {xs : List Json} (hmore : readItems n s = some (xs, rest)) :
    readItems (n + 1) (x.render ++ ',' :: s) = some (x :: xs, rest) := by
  have hfirst := hx n (',' :: s) hsize (delimited_cons.2 (.inl rfl))
  rw [readItems, hfirst]
  simp only [Option.bind_eq_bind, Option.bind_some, skipGap_cons (c := ',') (by decide), hmore]
  rfl

/-- The items of a list are read up to its closing bracket. -/
theorem readItems_render {x : Json} {r : List Json} (hx : ReadBack x) (hr : ∀ y ∈ r, ReadBack y)
    {n : Nat} (hfuel : x.render.length + (renderItems r).length ≤ n) (rest : List Char) :
    readItems (n + 1) (x.render ++ (renderItems r ++ ']' :: rest)) = some (x :: r, rest) := by
  induction r generalizing x n with
  | nil => exact readItems_last hx (Nat.le_of_add_right_le hfuel) rest
  | cons y r ih =>
    simp only [renderItems, List.length_append, List.length_cons] at hfuel
    cases n with
    | zero => omega
    | succ n =>
      have hy : ReadBack y := hr y List.mem_cons_self
      have hmore := ih hy (fun z hz => hr z (List.mem_cons_of_mem y hz)) (n := n) (by omega)
      have hitems := readItems_more hx (n := n + 1) (by omega) hmore
      rwa [renderItems, List.cons_append, List.cons_append, List.append_assoc]

theorem readBack_arr {items : List Json} (hplain : Plain (.arr items))
    (hitems : ∀ x ∈ items, ReadBack x) : ReadBack (.arr items) := by
  intro fuel rest hfuel hrest
  cases items with
  | nil =>
    obtain ⟨n, rfl⟩ : ∃ n, fuel = n + 1 := ⟨fuel - 1, by simp [render] at hfuel; omega⟩
    rfl
  | cons x r =>
    simp only [render, List.length_append, List.length_cons, List.length_nil] at hfuel
    obtain ⟨n, rfl⟩ : ∃ n, fuel = n + 2 := ⟨fuel - 2, by omega⟩
    have hread := readItems_render (hitems x List.mem_cons_self)
      (fun y hy => hitems y (List.mem_cons_of_mem x hy)) (n := n) (by omega) rest
    have htext : (Json.arr (x :: r)).render ++ rest =
        '[' :: (x.render ++ (renderItems r ++ ']' :: rest)) := by
      simp [render]
    -- what follows the bracket is the first item and not the end of an empty list
    have hx : Plain x := by
      cases hplain with
      | arr h => exact h x List.mem_cons_self
    obtain ⟨c, s, hcons, hgap, hend⟩ := render_eq_cons hx
    rw [hcons, List.cons_append] at hread htext
    rw [htext, readValue, skipGap_cons (by decide)]
    simp only [skipGap_cons hgap]
    split
    · next heq => exact absurd (List.cons.inj heq).1 hend
    · rw [hread]
      rfl

/-! ### Objects -/

theorem readMembers_last (k : String) {x : Json} (hx : ReadBack x) {n : Nat}
    (hsize : x.render.length ≤ n) (rest : List Char) :
    readMembers (n + 1) (renderText k ++ ':' :: (x.render ++ '\x7d' :: rest)) =
      some ([(some k, x)], rest) := by
  obtain ⟨body, hbody, hkey⟩ := readText_renderText k (':' :: (x.render ++ '\x7d' :: rest))
  have hvalue := hx n ('\x7d' :: rest) hsize (delimited_cons.2 (.inr (.inr rfl)))
  rw [hbody, readMembers]
  simp only [skipGap_cons (c := '"') (by decide), hkey, Option.bind_eq_bind, Option.bind_some,
    skipGap_cons (c := ':') (by decide), hvalue]
  rfl

theorem readMembers_more (k : String) {x : Json} (hx : ReadBack x) {n : Nat}
    (hsize : x.render.length ≤ n) {s rest : List Char} {ms : List (Option String × Json)}
    (hmore : readMembers n s = some (ms, rest)) :
    readMembers (n + 1) (renderText k ++ ':' :: (x.render ++ ',' :: s)) =
      some ((some k, x) :: ms, rest) := by
  obtain ⟨body, hbody, hkey⟩ := readText_renderText k (':' :: (x.render ++ ',' :: s))
  have hvalue := hx n (',' :: s) hsize (delimited_cons.2 (.inl rfl))
  rw [hbody, readMembers]
  simp only [skipGap_cons (c := '"') (by decide), hkey, Option.bind_eq_bind, Option.bind_some,
    skipGap_cons (c := ':') (by decide), hvalue, skipGap_cons (c := ',') (by decide), hmore]
  rfl

/-- The members of an object are read up to its closing bracket. -/
theorem readMembers_render {k : String} {x : Json} {r : List (String × Json)} (hx : ReadBack x)
    (hr : ∀ m ∈ r, ReadBack m.2) {n : Nat}
    (hfuel : x.render.length + (renderMembers r).length ≤ n) (rest : List Char) :
    readMembers (n + 1) (renderText k ++ ':' :: (x.render ++ (renderMembers r ++ '\x7d' :: rest))) =
      some ((some k, x) :: r.map fun m => (some m.1, m.2), rest) := by
  induction r generalizing k x n with
  | nil => exact readMembers_last k hx (Nat.le_of_add_right_le hfuel) rest
  | cons m r ih =>
    simp only [renderMembers, List.length_append, List.length_cons] at hfuel
    cases n with
    | zero => omega
    | succ n =>
      have hm : ReadBack m.2 := hr m List.mem_cons_self
      have hmore := ih (k := m.1) hm (fun e he => hr e (List.mem_cons_of_mem m he)) (n := n)
        (by omega)
      have hmembers := readMembers_more k hx (n := n + 1) (by omega) hmore
      rw [renderMembers, List.map_cons]
      simpa only [List.cons_append, List.append_assoc] using hmembers

theorem objectOf_members (members : List (String × Json)) :
    objectOf (members.map fun m => (some m.1, m.2)) = .obj members := by
  have hkeys : (members.map fun m => (some m.1, m.2)).mapM
      (fun m : Option String × Json => m.1.map fun k => (k, m.2)) = some members := by
    induction members with
    | nil => rfl
    | cons m r ih =>
      rw [List.map_cons, List.mapM_cons, ih]
      rfl
  unfold objectOf
  rw [hkeys]

theorem readBack_obj {members : List (String × Json)} (hmembers : ∀ m ∈ members, ReadBack m.2) :
    ReadBack (.obj members) := by
  intro fuel rest hfuel hrest
  cases members with
  | nil =>
    obtain ⟨n, rfl⟩ : ∃ n, fuel = n + 1 := ⟨fuel - 1, by simp [render] at hfuel; omega⟩
    rfl
  | cons m r =>
    simp only [render, List.length_append, List.length_cons, List.length_nil] at hfuel
    obtain ⟨n, rfl⟩ : ∃ n, fuel = n + 2 := ⟨fuel - 2, by omega⟩
    have hread := readMembers_render (k := m.1) (hmembers m List.mem_cons_self)
      (fun e he => hmembers e (List.mem_cons_of_mem m he)) (n := n) (by omega) rest
    have htext : (Json.obj (m :: r)).render ++ rest =
        '\x7b' :: (renderText m.1 ++
          ':' :: (m.2.render ++ (renderMembers r ++ '\x7d' :: rest))) := by
      simp [render]
    obtain ⟨body, hbody, -⟩ := readText_renderText m.1
      (':' :: (m.2.render ++ (renderMembers r ++ '\x7d' :: rest)))
    rw [hbody] at hread htext
    rw [htext, readValue, skipGap_cons (by decide)]
    simp only [skipGap_cons (c := '"') (by decide)]
    split
    · next heq => exact absurd (List.cons.inj heq).1 (by decide)
    · rw [hread]
      change some (objectOf ((m :: r).map fun m => (some m.1, m.2)), rest) = _
      rw [objectOf_members]

/-! ### All values -/

/-- A plain value is read back from the front of its text. -/
theorem readBack_of_plain {j : Json} (h : Plain j) : ReadBack j := by
  induction h with
  | null =>
    intro n rest hfuel hrest
    cases n with
    | zero => cases hfuel
    | succ n => rfl
  | bool b =>
    intro n rest hfuel hrest
    cases n with
    | zero => cases b <;> cases hfuel
    | succ n => cases b <;> rfl
  | num n => exact readBack_num n
  | str s =>
    intro n rest hfuel hrest
    cases n with
    | zero => cases hfuel
    | succ n =>
      obtain ⟨body, hbody, hread⟩ := readText_renderText s rest
      rw [render, hbody, readValue, skipGap_cons (by decide)]
      simp only [hread, Option.bind_eq_bind, Option.bind_some]
      rfl
  | arr h ih => exact readBack_arr (.arr h) ih
  | obj h ih => exact readBack_obj ih

/-- Reading the compact text of a plain value gives the value. -/
theorem parse_compact {j : Json} (h : Plain j) : parse j.compact = some j := by
  have hread := readBack_of_plain h (2 * j.render.length + 2) [] (by omega) (by simp [Delimited])
  rw [List.append_nil] at hread
  unfold parse compact
  rw [String.toList_ofList]
  simp only [hread, Option.bind_eq_bind, Option.bind_some]
  rfl

theorem utf8_compact (j : Json) : utf8 j.compact = j.render.flatMap String.utf8EncodeChar :=
  utf8_ofList j.render

theorem compact_injective {j k : Json} (hj : Plain j) (hk : Plain k) (h : j.compact = k.compact) :
    j = k := by
  have hread := parse_compact hj
  rw [h, parse_compact hk] at hread
  exact (Option.some.inj hread).symm

end JointEscrow.Json
