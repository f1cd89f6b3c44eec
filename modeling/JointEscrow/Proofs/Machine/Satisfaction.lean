import JointEscrow.Machine.Program
import JointEscrow.Proofs.Checks
import JointEscrow.Proofs.Sorted

/-!
# Which program is satisfied

A program authorizes an action for a set of keys when it speaks of the action and enough distinct
keys of the set are ones that it permits (`Authorizes`). The program that is found is the first to
do so in declared order. More keys find one as early or earlier, and in whatever order the programs
are declared one is found or none is (`first_authorizing`).
-/

namespace JointEscrow

/-- A program that passes its check lists distinct members, and no fewer than it asks for. -/
theorem ProgramTerms.members_of_validate {t : ProgramTerms} {labels : List String}
    (h : t.validate labels = .ok ()) :
    t.members.Nodup ∧ (t.members ≠ [] → t.threshold.toNat ≤ t.members.length) := by
  rw [validate, check_bind_eq_ok_iff, check_bind_eq_ok_iff] at h
  obtain ⟨-, -, hmembers⟩ := h
  split at hmembers
  · cases hmembers
  · next hrepeat =>
    simp only [ensure_eq_ok_iff, Bool.and_eq_true, Bool.or_eq_true, decide_eq_true_eq,
      List.isEmpty_iff] at hmembers
    exact ⟨firstRepeat?_eq_none_iff.1 hrepeat, hmembers.2.resolve_left⟩

namespace Program

variable {p : Program} {programs : List Program} {method : Method} {action : Action}
  {path : String} {keys more : SortedSet PublicKey} {i : Nat}

/-! ## What a program asks for -/

/-- The program is about the action on the path. -/
structure Speaks (p : Program) (method : Method) (action : Action) (path : String) : Prop where
  method : p.method = method
  action : p.actions = .any ∨ action.name ∈ p.actions.literals
  path : p.paths = .any ∨ path ∈ p.paths.literals

/-- Among the keys are as many as the threshold, all different and each a member, if the program has
any. -/
def MetBy (p : Program) (keys : SortedSet PublicKey) : Prop :=
  ∃ signers : List PublicKey, signers.Nodup ∧ signers.length = p.threshold.toNat ∧
    ∀ k ∈ signers, k ∈ keys ∧ (p.members = [] ∨ k ∈ p.members)

structure Authorizes (p : Program) (method : Method) (action : Action) (path : String)
    (keys : SortedSet PublicKey) : Prop where
  speaks : p.Speaks method action path
  met : p.MetBy keys

/-- The program stands at the position, it authorizes the action, and none declared before it does.
-/
structure FirstAt (programs : List Program) (method : Method) (action : Action) (path : String)
    (keys : SortedSet PublicKey) (i : Nat) (p : Program) : Prop where
  here : programs[i]? = some p
  authorizes : p.Authorizes method action path keys
  first : ∀ j < i, ∀ q, programs[j]? = some q → ¬ q.Authorizes method action path keys

theorem permits_iff {k : PublicKey} : p.permits k = true ↔ p.members = [] ∨ k ∈ p.members := by
  rw [permits, Bool.or_eq_true, List.isEmpty_iff, decide_eq_true_eq]

theorem grants_iff : p.grants method action path = true ↔ p.Speaks method action path := by
  rw [grants, Bool.and_eq_true, Bool.and_eq_true, decide_eq_true_eq, Pattern.admits_iff,
    Pattern.admits_iff]
  constructor
  · rintro ⟨⟨hmethod, haction⟩, hpath⟩
    exact ⟨hmethod, haction, hpath⟩
  · rintro ⟨hmethod, haction, hpath⟩
    exact ⟨⟨hmethod, haction⟩, hpath⟩

theorem satisfied_iff : p.satisfied keys = true ↔ p.MetBy keys := by
  have hpermitted : ∀ k, k ∈ keys.elements.filter p.permits ↔
      k ∈ keys ∧ (p.members = [] ∨ k ∈ p.members) := by
    intro k
    rw [List.mem_filter, SortedSet.mem_elements, permits_iff]
  rw [satisfied, countEndorsing, decide_eq_true_eq]
  constructor
  · intro henough
    -- of the permitted keys the first ones will do, as many as are asked for
    refine ⟨(keys.elements.filter p.permits).take p.threshold.toNat, ?_, ?_, ?_⟩
    · exact (keys.nodup_elements.filter _).sublist (List.take_sublist _ _)
    · exact List.length_take_of_le henough
    · intro k hk
      exact (hpermitted k).1 (List.mem_of_mem_take hk)
  · rintro ⟨signers, hnodup, hlength, hsigners⟩
    rw [← hlength]
    apply hnodup.length_le_of_subset
    intro k hk
    exact (hpermitted k).2 (hsigners k hk)

theorem authorizes_iff : (p.grants method action path && p.satisfied keys) = true ↔
    p.Authorizes method action path keys := by
  rw [Bool.and_eq_true, grants_iff, satisfied_iff]
  constructor
  · rintro ⟨hspeaks, hmet⟩
    exact ⟨hspeaks, hmet⟩
  · rintro ⟨hspeaks, hmet⟩
    exact ⟨hspeaks, hmet⟩

theorem MetBy.mono (hsub : ∀ k ∈ keys, k ∈ more) (h : p.MetBy keys) : p.MetBy more := by
  obtain ⟨signers, hnodup, hlength, hsigners⟩ := h
  exact ⟨signers, hnodup, hlength, fun k hk => (hsigners k hk).imp_left (hsub k)⟩

theorem Authorizes.mono (hsub : ∀ k ∈ keys, k ∈ more) (h : p.Authorizes method action path keys) :
    p.Authorizes method action path more :=
  ⟨h.speaks, h.met.mono hsub⟩

/-- More keys satisfy a program that fewer have satisfied. -/
theorem satisfied_mono (hsub : ∀ k ∈ keys, k ∈ more) (h : p.satisfied keys = true) :
    p.satisfied more = true :=
  satisfied_iff.2 ((satisfied_iff.1 h).mono hsub)

/-! ## The program that is found -/

theorem firstSatisfied_isSome_iff :
    (firstSatisfied programs method action path keys).isSome = true ↔
      ∃ p ∈ programs, p.grants method action path = true ∧ p.satisfied keys = true := by
  unfold firstSatisfied
  simp only [List.find?_isSome, Bool.and_eq_true]

theorem exists_firstSatisfied_iff :
    (∃ p, firstSatisfied programs method action path keys = some p) ↔
      ∃ p ∈ programs, p.Authorizes method action path keys := by
  rw [← Option.isSome_iff_exists, firstSatisfied_isSome_iff]
  simp only [← authorizes_iff, Bool.and_eq_true]

theorem firstSatisfied_eq_some_iff : firstSatisfied programs method action path keys = some p ↔
    ∃ i, FirstAt programs method action path keys i p := by
  rw [firstSatisfied, List.find?_eq_some_iff_getElem, authorizes_iff]
  constructor
  · rintro ⟨hauthorizes, i, hi, hhere, hfirst⟩
    refine ⟨i, ?_, hauthorizes, ?_⟩
    · rw [List.getElem?_eq_getElem hi, hhere]
    · intro j hj q hq hauthorized
      obtain ⟨hjlt, rfl⟩ := List.getElem?_eq_some_iff.1 hq
      have hnot := hfirst j hj
      rw [authorizes_iff.2 hauthorized] at hnot
      cases hnot
  · rintro ⟨i, hhere, hauthorizes, hfirst⟩
    obtain ⟨hi, hp⟩ := List.getElem?_eq_some_iff.1 hhere
    refine ⟨hauthorizes, i, hi, hp, fun j hj => ?_⟩
    rw [Bool.not_eq_true', Bool.eq_false_iff, Ne, authorizes_iff]
    exact hfirst j hj _ (List.getElem?_eq_getElem (Nat.lt_trans hj hi))

/-- With more keys a program is found, no later than before. -/
theorem FirstAt.mono (hsub : ∀ k ∈ keys, k ∈ more)
    (h : FirstAt programs method action path keys i p) :
    ∃ j ≤ i, ∃ q, FirstAt programs method action path more j q := by
  have hmore : p.Authorizes method action path more := h.authorizes.mono hsub
  obtain ⟨q, hq⟩ := exists_firstSatisfied_iff.2 ⟨p, List.mem_of_getElem? h.here, hmore⟩
  obtain ⟨j, hfirst⟩ := firstSatisfied_eq_some_iff.1 hq
  refine ⟨j, ?_, q, hfirst⟩
  -- the program found before still authorizes, so a later one would not be the first
  by_contra hlate
  exact hfirst.first i (Nat.lt_of_not_le hlate) p h.here hmore

/-! ## Programs that passed their check -/

/-- Distinct members are counted one by one. -/
theorem countEndorsing_eq (hnodup : p.members.Nodup) (hlisted : p.members ≠ []) :
    p.countEndorsing keys = p.members.countP (· ∈ keys) := by
  rw [countEndorsing, List.countP_eq_length_filter]
  apply List.Perm.length_eq
  rw [List.perm_ext_iff_of_nodup (keys.nodup_elements.filter _) (hnodup.filter _)]
  intro k
  rw [List.mem_filter, List.mem_filter, SortedSet.mem_elements, permits_iff, decide_eq_true_eq,
    and_comm]
  exact and_congr_left' (or_iff_right hlisted)

theorem satisfied_iff_of_validate {t : ProgramTerms} {labels : List String}
    (h : t.validate labels = .ok ()) (hlisted : t.members ≠ []) :
    (ofTerms t).satisfied keys = true ↔ t.threshold.toNat ≤ t.members.countP (· ∈ keys) := by
  obtain ⟨hnodup, -⟩ := ProgramTerms.members_of_validate h
  rw [satisfied, decide_eq_true_eq, countEndorsing_eq (p := ofTerms t) hnodup hlisted]
  rfl

/-- The program that is found is the first in declared order that authorizes the action. More keys
find one no later, the order of the programs does not matter for whether one is found, and a program
that passed its check is satisfied by all its members and by no fewer than its threshold. -/
theorem first_authorizing (programs : List Program) (method : Method) (action : Action)
    (path : String) (keys : SortedSet PublicKey) :
    ((∃ p, firstSatisfied programs method action path keys = some p) ↔
      ∃ p ∈ programs, p.Authorizes method action path keys) ∧
    (∀ p, firstSatisfied programs method action path keys = some p ↔
      ∃ i, FirstAt programs method action path keys i p) ∧
    (∀ more : SortedSet PublicKey, (∀ k ∈ keys, k ∈ more) →
      ∀ i p, FirstAt programs method action path keys i p →
        ∃ j ≤ i, ∃ q, FirstAt programs method action path more j q ∧
          firstSatisfied programs method action path more = some q) ∧
    (∀ others : List Program, programs.Perm others →
      ((∃ p, firstSatisfied programs method action path keys = some p) ↔
        ∃ p, firstSatisfied others method action path keys = some p)) ∧
    ∀ (t : ProgramTerms) (labels : List String), t.validate labels = .ok () → t.members ≠ [] →
      (ofTerms t).satisfied (.ofList t.members) = true ∧
      ∀ few : SortedSet PublicKey, t.members.countP (· ∈ few) < t.threshold.toNat →
        (ofTerms t).satisfied few = false := by
  refine ⟨exists_firstSatisfied_iff, fun p => firstSatisfied_eq_some_iff, ?_, ?_, ?_⟩
  · intro more hsub i p hfirst
    obtain ⟨j, hj, q, hq⟩ := hfirst.mono hsub
    exact ⟨j, hj, q, hq, firstSatisfied_eq_some_iff.2 ⟨j, hq⟩⟩
  · intro others hperm
    rw [exists_firstSatisfied_iff, exists_firstSatisfied_iff]
    simp only [hperm.mem_iff]
  · intro t labels hvalid hlisted
    constructor
    · have hall : t.members.countP (· ∈ SortedSet.ofList t.members) = t.members.length :=
        List.countP_eq_length.2 fun k hk => decide_eq_true (SortedSet.mem_ofList.2 hk)
      rw [satisfied_iff_of_validate hvalid hlisted, hall]
      exact (ProgramTerms.members_of_validate hvalid).2 hlisted
    · intro few hfew
      rw [Bool.eq_false_iff, Ne, satisfied_iff_of_validate hvalid hlisted]
      exact Nat.not_le_of_lt hfew

def numberedKey (n : UInt8) : PublicKey := ⟨Vector.replicate 32 n⟩

/-- Two of three members may close the heads. -/
def headsByTwo : ProgramTerms where
  method := .endorse
  actions := .tokens ["close"]
  paths := .tokens ["heads"]
  threshold := 2
  members := [numberedKey 1, numberedKey 2, numberedKey 3]

/-- Any key may do anything. -/
def anyByOne : ProgramTerms where
  method := .endorse
  actions := .any
  paths := .any
  threshold := 1
  members := []

def tossPrograms : List Program := [ofTerms headsByTwo, ofTerms anyByOne]

/-- One member and a stranger satisfy the open program only. With a second member the program found
stands no later. The two can be declared in either order, and the first one needs two members. -/
theorem tossPrograms_authorize :
    firstSatisfied tossPrograms .endorse .close "heads"
        (.ofList [numberedKey 9, numberedKey 1]) = some (ofTerms anyByOne) ∧
    (∃ j ≤ 1, ∃ q, firstSatisfied tossPrograms .endorse .close "heads"
        (.ofList [numberedKey 9, numberedKey 1, numberedKey 2]) = some q ∧
      tossPrograms[j]? = some q) ∧
    (∃ p, firstSatisfied tossPrograms.reverse .endorse .close "heads"
        (.ofList [numberedKey 9, numberedKey 1]) = some p) ∧
    (ofTerms headsByTwo).satisfied (.ofList headsByTwo.members) = true ∧
    (ofTerms headsByTwo).satisfied (.ofList [numberedKey 9, numberedKey 1]) = false := by
  obtain ⟨-, hfound, hmore, hperm, hchecked⟩ := first_authorizing tossPrograms .endorse .close
    "heads" (.ofList [numberedKey 9, numberedKey 1])
  have hopen : FirstAt tossPrograms .endorse .close "heads"
      (.ofList [numberedKey 9, numberedKey 1]) 1 (ofTerms anyByOne) := by
    refine ⟨rfl, authorizes_iff.1 (by decide), fun j hj q hq => ?_⟩
    obtain rfl : j = 0 := by omega
    obtain rfl : ofTerms headsByTwo = q := Option.some.inj hq
    rw [← authorizes_iff]
    decide
  have hany := (hfound _).2 ⟨1, hopen⟩
  have hvalid : headsByTwo.validate ["heads", "tails"] = .ok () := by decide
  obtain ⟨hall, hfew⟩ := hchecked headsByTwo ["heads", "tails"] hvalid (by decide)
  refine ⟨hany, ?_, (hperm _ (List.reverse_perm _).symm).1 ⟨_, hany⟩, hall, hfew _ (by decide)⟩
  obtain ⟨j, hj, q, hq, hqfound⟩ := hmore (.ofList [numberedKey 9, numberedKey 1, numberedKey 2])
    (by decide) 1 _ hopen
  exact ⟨j, hj, q, hqfound, hq.here⟩

end Program

end JointEscrow
