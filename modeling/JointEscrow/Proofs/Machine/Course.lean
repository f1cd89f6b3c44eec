import JointEscrow.Proofs.Machine.Replay

/-!
# Courses of a host

A host commits witnesses and advances its clock in between as it likes. `Course` is all that it does
from one state to its last, `Ahead` what it does between two witnesses: at most one advance of the
clock, since two are one to the later time (`run_run`).
-/

namespace JointEscrow.Machine

variable {m n b b₁ b₂ : Machine} {limit : List Witness → UInt64} {bound t : UInt64} {w : Witness}
  {ws : List Witness} {ms : List Machine}

/-- A host's course from a machine to its last state: it commits the witnesses in order and advances
its clock in between at will, as far as the limit for the witnesses still to come, and to the limit
in the end. The machines listed are those that the witnesses met. -/
inductive Course (limit : List Witness → UInt64) :
    Machine → List Witness → List Machine → Machine → Prop where
  | done {m n : Machine} (hrun : m.run (limit []) = some n) : Course limit m [] [] n
  | clock {m s n : Machine} {ws : List Witness} {ms : List Machine} {t : UInt64}
      (ht : t ≤ limit ws) (hrun : m.run t = some s) (rest : Course limit s ws ms n) :
      Course limit m ws ms n
  | witness {m s n : Machine} {w : Witness} {ws : List Witness} {ms : List Machine}
      (hcommits : m.Commits w s) (rest : Course limit s ws ms n) :
      Course limit m (w :: ws) (m :: ms) n

/-! ## Between two witnesses -/

/-- The machine is the other one with its clock advanced, if at all, no further than a time. -/
def Ahead (bound : UInt64) (m b : Machine) : Prop := b = m ∨ ∃ t, t ≤ bound ∧ m.run t = some b

theorem Ahead.of_run (ht : t ≤ bound) (hrun : m.run t = some b₁) (h : Ahead bound b₁ b₂) :
    Ahead bound m b₂ := by
  right
  rcases h with rfl | ⟨u, hu, hrun'⟩
  · exact ⟨t, ht, hrun⟩
  · exact ⟨max t u, later_le ht hu, by rw [← run_run, hrun, Option.bind_some, hrun']⟩

/-- Of two hosts between the same two witnesses one is ahead. -/
theorem ahead_total (h₁ : Ahead bound m b₁) (h₂ : Ahead bound m b₂) :
    Ahead bound b₁ b₂ ∨ Ahead bound b₂ b₁ := by
  rcases h₁ with rfl | ⟨s, hs, hrun₁⟩
  · exact .inl h₂
  rcases h₂ with rfl | ⟨t, ht, hrun₂⟩
  · exact .inr (.inr ⟨s, hs, hrun₁⟩)
  rcases UInt64.le_total s t with hle | hle
  · left
    right
    refine ⟨t, ht, ?_⟩
    have hrun := run_run m s t
    rwa [hrun₁, Option.bind_some, later_eq_right hle, hrun₂] at hrun
  · right
    right
    refine ⟨s, hs, ?_⟩
    have hrun := run_run m t s
    rwa [hrun₂, Option.bind_some, later_eq_right hle, hrun₁] at hrun

/-! ## Up to the first witness, and without one -/

theorem Course.last (h : Course limit m [] ms n) : ms = [] ∧ m.run (limit []) = some n := by
  generalize hws : ([] : List Witness) = ws at h
  induction h with
  | done hrun => exact ⟨rfl, hrun⟩
  | @clock m s n ws ms t ht hrun rest ih =>
    subst hws
    obtain ⟨hms, hlast⟩ := ih rfl
    refine ⟨hms, ?_⟩
    -- this advance and the final run are one run to the limit
    have htwo := run_run m t (limit [])
    rw [hrun, Option.bind_some, later_eq_right ht, hlast] at htwo
    exact htwo.symm
  | witness hcommits rest ih => cases hws

theorem Course.first (h : Course limit m (w :: ws) ms n) :
    ∃ b s r, Ahead (limit (w :: ws)) m b ∧ b.Commits w s ∧ ms = b :: r ∧
      Course limit s ws r n := by
  generalize hall : w :: ws = all at h
  induction h with
  | done hrun => cases hall
  | clock ht hrun rest ih =>
    obtain ⟨b, s, r, hahead, hcommits, hms, hcourse⟩ := ih hall
    exact ⟨b, s, r, hahead.of_run ht hrun, hcommits, hms, hcourse⟩
  | witness hcommits rest ih =>
    cases hall
    exact ⟨_, _, _, .inl rfl, hcommits, rfl, rest⟩

theorem Course.length_eq (h : Course limit m ws ms n) : ms.length = ws.length := by
  induction h with
  | done hrun => rfl
  | clock ht hrun rest ih => exact ih
  | witness hcommits rest ih => rw [List.length_cons, List.length_cons, ih]

end JointEscrow.Machine
