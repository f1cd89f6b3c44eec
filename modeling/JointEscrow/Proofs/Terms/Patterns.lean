import JointEscrow.Proofs.Records

/-!
# What a pattern says

A pattern is written as the wildcard, or as its tokens with a bar between neighbours. What lies
between the bars of a text is said with no word of the walk that finds it (`Text.Cut`): the parts
give the whole back when they are put together, and no bar is left in any. A text has just one such
list of parts, so it is a pattern exactly when they are distinct tokens (`Pattern.reads_exactly`).
-/

namespace JointEscrow

/-! ## Cutting a text -/

namespace Text

/-- What lies between the separators of a text, in order. -/
structure Cut (sep : Char) (s : String) (ts : List String) : Prop where
  joined : (String.singleton sep).intercalate ts = s
  apart : ∀ t ∈ ts, sep ∉ t.toList
  nonempty : ts ≠ []

variable {sep : Char} {s : String} {ts : List String}

theorem join_eq_intercalate (sep : Char) (ps : List (List Char)) :
    join sep ps = [sep].intercalate ps := by
  induction ps with
  | nil => rfl
  | cons p rest ih =>
    cases rest with
    | nil => rw [join, List.intercalate_singleton]
    | cons q r =>
      rw [join, ih, List.intercalate_cons_cons, List.append_assoc, List.singleton_append]

theorem joinTexts_eq_intercalate (sep : Char) (ts : List String) :
    joinTexts sep ts = (String.singleton sep).intercalate ts := by
  apply String.toList_injective
  rw [joinTexts, String.toList_ofList, join_eq_intercalate, String.toList_intercalate,
    String.toList_singleton]

theorem not_mem_of_mem_pieces {l p : List Char} (h : p ∈ pieces sep l) : sep ∉ p := by
  induction l generalizing p with
  | nil =>
    rw [pieces, List.mem_singleton] at h
    simp [h]
  | cons c r ih =>
    rw [pieces] at h
    split at h
    · rcases List.mem_cons.1 h with rfl | h
      · simp
      · exact ih h
    · next hc =>
      cases hp : pieces sep r with
      | nil => exact absurd hp (pieces_ne_nil sep r)
      | cons q qs =>
        rw [hp] at h ih
        -- the character goes to the front of the first piece, and it is no separator
        rcases List.mem_cons.1 h with rfl | h
        · have hq : sep ∉ q := ih List.mem_cons_self
          simp [Ne.symm hc, hq]
        · exact ih (List.mem_cons_of_mem q h)

theorem cut_splitText (sep : Char) (s : String) : Cut sep s (splitText sep s) := by
  constructor
  · rw [← joinTexts_eq_intercalate, joinTexts_splitText]
  · intro t ht
    obtain ⟨p, hp, rfl⟩ := List.mem_map.1 ht
    rw [String.toList_ofList]
    exact not_mem_of_mem_pieces hp
  · exact mt List.map_eq_nil_iff.1 (pieces_ne_nil sep s.toList)

/-- A text is cut in one way. -/
theorem Cut.eq_splitText (h : Cut sep s ts) : ts = splitText sep s := by
  have hpieces : pieces sep s.toList = ts.map String.toList := by
    rw [← h.joined, ← joinTexts_eq_intercalate, joinTexts, String.toList_ofList]
    apply pieces_join
    · exact mt List.map_eq_nil_iff.1 h.nonempty
    · intro p hp
      obtain ⟨t, ht, rfl⟩ := List.mem_map.1 hp
      exact h.apart t ht
  rw [splitText, hpieces, List.map_map]
  simp [Function.comp_def]

theorem cut_iff : Cut sep s ts ↔ ts = splitText sep s := by
  constructor
  · exact Cut.eq_splitText
  · rintro rfl
    exact cut_splitText sep s

end Text

/-! ## Tokens -/

namespace Pattern

/-- A text that may stand as a token. -/
structure Token (t : String) : Prop where
  nonempty : t ≠ ""
  wildcard : '*' ∉ t.toList
  blank : ∀ c ∈ t.toList, Text.isBlank c = false

/-- The tokens that a text lists. -/
structure Lists (s : String) (ts : List String) : Prop where
  cut : Text.Cut '|' s ts
  distinct : ts.Nodup
  allowed : ∀ t ∈ ts, Token t

variable {s t : String} {ts : List String} {p : Pattern}

theorem isToken_iff : isToken t = true ↔ Token t := by
  simp only [isToken, Bool.and_eq_true, Bool.not_eq_true', List.all_eq_true, decide_eq_true_eq]
  constructor
  · rintro ⟨hne, hall⟩
    refine ⟨?_, fun hstar => (hall '*' hstar).1 rfl, fun c hc => (hall c hc).2⟩
    rintro rfl
    exact absurd hne (by decide)
  · rintro ⟨hne, hstar, hblank⟩
    refine ⟨?_, fun c hc => ⟨fun h => hstar (h ▸ hc), hblank c hc⟩⟩
    simpa [String.isEmpty_iff] using hne

/-- A text lists one thing at most, and whether it does is what the reader checks. -/
theorem lists_iff :
    Lists s ts ↔ ts = Text.splitText '|' s ∧ ts.all isToken = true ∧ ts.Nodup := by
  rw [List.all_eq_true]
  constructor
  · rintro ⟨hcut, hdistinct, hallowed⟩
    exact ⟨hcut.eq_splitText, fun t ht => isToken_iff.2 (hallowed t ht), hdistinct⟩
  · rintro ⟨hsplit, htokens, hdistinct⟩
    exact ⟨Text.cut_iff.2 hsplit, hdistinct, fun t ht => isToken_iff.1 (htokens t ht)⟩

/-- The wildcard would be a token with a wildcard in it. -/
theorem Lists.ne_any (h : Lists s ts) : s ≠ "*" := by
  rintro rfl
  have hts : ts = ["*"] := h.cut.eq_splitText
  exact (h.allowed "*" (by simp [hts])).wildcard (by decide)

theorem ofText_eq_ok_iff :
    ofText s = .ok p ↔ s = "*" ∧ p = any ∨ ∃ ts, Lists s ts ∧ p = tokens ts := by
  unfold ofText
  split
  · next hany =>
    constructor
    · intro h
      cases h
      exact .inl ⟨hany, rfl⟩
    · rintro (⟨-, rfl⟩ | ⟨ts, hts, -⟩)
      · rfl
      · exact absurd hany hts.ne_any
  · next hany =>
    dsimp only
    split
    · next hgood =>
      constructor
      · intro h
        cases h
        exact .inr ⟨_, lists_iff.2 ⟨rfl, hgood⟩, rfl⟩
      · rintro (⟨h, -⟩ | ⟨ts, hts, rfl⟩)
        · exact absurd h hany
        · rw [(lists_iff.1 hts).1]
    · next hbad =>
      constructor
      · intro h
        cases h
      · rintro (⟨h, -⟩ | ⟨ts, hts, -⟩)
        · exact absurd h hany
        · obtain ⟨rfl, hgood⟩ := lists_iff.1 hts
          exact absurd hgood hbad

theorem exists_ofText_iff : (∃ p, ofText s = .ok p) ↔ s = "*" ∨ ∃ ts, Lists s ts := by
  constructor
  · rintro ⟨p, hp⟩
    rcases ofText_eq_ok_iff.1 hp with ⟨hany, -⟩ | ⟨ts, hts, -⟩
    · exact .inl hany
    · exact .inr ⟨ts, hts⟩
  · rintro (hany | ⟨ts, hts⟩)
    · exact ⟨any, ofText_eq_ok_iff.2 (.inl ⟨hany, rfl⟩)⟩
    · exact ⟨tokens ts, ofText_eq_ok_iff.2 (.inr ⟨ts, hts, rfl⟩)⟩

theorem admits_iff_of_ofText (h : ofText s = .ok p) :
    p.admits t = true ↔ s = "*" ∨ ∃ ts, Text.Cut '|' s ts ∧ t ∈ ts := by
  rcases ofText_eq_ok_iff.1 h with ⟨hany, rfl⟩ | ⟨ts, hts, rfl⟩
  · simp [admits, hany]
  · rw [admits, decide_eq_true_eq]
    constructor
    · intro ht
      exact .inr ⟨ts, hts.cut, ht⟩
    · rintro (hany | ⟨us, hus, ht⟩)
      · exact absurd hany hts.ne_any
      · rwa [hts.cut.eq_splitText, ← hus.eq_splitText]

/-- A text is a pattern exactly when it is the wildcard or lists tokens. The pattern is written as
that text again, it is read back from what it is written as, and it admits what the text lists. -/
theorem reads_exactly (s : String) :
    ((∃ p, ofText s = .ok p) ↔ s = "*" ∨ ∃ ts, Lists s ts) ∧
    ∀ p, ofText s = .ok p →
      p.text = s ∧ ofText p.text = .ok p ∧
      JsonForm.toJson p = .str s ∧ JsonForm.ofJson? (.str s) = some p ∧
      (∀ t, p.admits t = true ↔ s = "*" ∨ ∃ ts, Text.Cut '|' s ts ∧ t ∈ ts) ∧
      (s ≠ "*" → ∀ t, '|' ∈ t.toList → p.admits t = false) := by
  refine ⟨exists_ofText_iff, fun p hp => ?_⟩
  have htext : p.text = s := text_of_ofText hp
  refine ⟨htext, htext ▸ hp, congrArg Json.str htext, ?_, fun t => admits_iff_of_ofText hp, ?_⟩
  · show (ofText s).toOption = some p
    rw [hp]
    rfl
  · intro hany t hbar
    rw [Bool.eq_false_iff]
    intro hadmits
    rcases (admits_iff_of_ofText hp).1 hadmits with h | ⟨ts, hts, ht⟩
    · exact hany h
    · exact hts.apart t ht hbar

/-- Two sides of a coin: their order is kept, case matters, and the whole text is no token. -/
theorem sides_read :
    ∃ p, ofText "tails|heads" = .ok p ∧ p.text = "tails|heads" ∧ p.admits "heads" = true ∧
      p.admits "Heads" = false ∧ p.admits "tails|heads" = false := by
  obtain ⟨hreads, hsays⟩ := reads_exactly "tails|heads"
  have hcut : Text.Cut '|' "tails|heads" ["tails", "heads"] := Text.cut_iff.2 (by decide)
  have hlists : Lists "tails|heads" ["tails", "heads"] := lists_iff.2 (by decide)
  obtain ⟨p, hp⟩ := hreads.2 (.inr ⟨_, hlists⟩)
  obtain ⟨htext, -, -, -, hadmits, hbar⟩ := hsays p hp
  refine ⟨p, hp, htext, (hadmits "heads").2 (.inr ⟨_, hcut, by decide⟩), ?_,
    hbar (by decide) _ (by decide)⟩
  rw [Bool.eq_false_iff, Ne, hadmits]
  rintro (h | ⟨ts, hts, h⟩)
  · exact absurd h (by decide)
  · rw [hts.eq_splitText] at h
    exact absurd h (by decide)

end Pattern

end JointEscrow
