import Mathlib.Tactic.Lemma
import Totality.Host.Directory
import Totality.Proofs.Except

/-!
# Files that are written

A file that is written at a path is found there with its bytes.
-/

namespace Totality.Directory

variable {d : Directory} {ps above : List (List Char)}

/-! ### Ways that stay in the working directory -/

lemma foldlM_step_elsewhere_ne_here (d : Directory) (ps : List (List Char)) :
    ps.foldlM d.step .elsewhere ≠ .ok .here := by
  induction ps with
  | nil => nofun
  | cons p ps ih =>
    intro h
    rw [List.foldlM_cons] at h
    obtain ⟨place, hplace, h⟩ := bind_eq_ok.mp h
    cases hp : component p with
    | same | parent =>
      simp only [step, hp, Except.ok.injEq] at hplace
      exact ih (hplace ▸ h)
    | named name =>
      simp only [step, hp] at hplace
      split_ifs at hplace with hlong hhere
      exact absurd hhere.1 nofun

lemma foldlM_step_file_ne_here (d : Directory) (name : String) (ps : List (List Char)) :
    ps.foldlM d.step (.file name) ≠ .ok .here := by
  cases ps with
  | nil => nofun
  | cons p ps => nofun

/-- Only components that stay where they are end in the working directory. -/
lemma component_of_foldlM_step_eq_here (h : ps.foldlM d.step .here = .ok .here) :
    ∀ p ∈ ps, component p = .same := by
  induction ps with
  | nil => exact List.forall_mem_nil _
  | cons p ps ih =>
    rw [List.foldlM_cons] at h
    obtain ⟨place, hplace, h⟩ := bind_eq_ok.mp h
    cases hp : component p with
    | same =>
      simp only [step, hp, Except.ok.injEq] at hplace
      exact List.forall_mem_cons.mpr ⟨hp, ih (hplace ▸ h)⟩
    | parent =>
      simp only [step, hp, Except.ok.injEq] at hplace
      exact absurd (hplace ▸ h) (foldlM_step_elsewhere_ne_here d ps)
    | named name =>
      simp only [step, hp] at hplace
      split_ifs at hplace
      cases hplace
      exact absurd h (foldlM_step_file_ne_here d name ps)

lemma foldlM_step_here (d : Directory) (h : ∀ p ∈ ps, component p = .same) :
    ps.foldlM d.step .here = .ok .here := by
  induction ps with
  | nil => rfl
  | cons p ps ih =>
    obtain ⟨hp, hps⟩ := List.forall_mem_cons.mp h
    have hstep : d.step .here p = .ok .here := by simp only [step, hp]
    rw [List.foldlM_cons, hstep]
    exact ih hps

lemma follow_of_head?_ne (d : Directory) (h : ps.head? ≠ some []) : d.follow ps = ps.foldlM d.step .here := by
  cases ps with
  | nil => rfl
  | cons p ps =>
    cases p with
    | nil => exact absurd rfl h
    | cons c cs => rfl

/-- A way that ends in the working directory never leaves it, and has no slash in front. -/
lemma same_of_follow_eq_here (h : d.follow (above ++ [[]]) = .ok .here) (habove : above ≠ []) :
    above.head? ≠ some [] ∧ ∀ p ∈ above, component p = .same := by
  have hhead : above.head? ≠ some [] := by
    intro hhead
    obtain ⟨above, rfl⟩ := List.head?_eq_some_iff.mp hhead
    cases above with
    | nil => exact foldlM_step_elsewhere_ne_here d [[], []] h
    | cons p above => exact foldlM_step_elsewhere_ne_here d ([] :: p :: above ++ [[]]) h
  refine ⟨hhead, fun p hp => ?_⟩
  rw [follow_of_head?_ne d (by rwa [List.head?_append_of_ne_nil _ habove])] at h
  exact component_of_foldlM_step_eq_here h p (List.mem_append_left _ hp)

/-! ### Writing -/

lemma eq_append_of_creation {name : String} (h : creation ps = (above, some name)) :
    ∃ last, ps = above ++ [last] ∧ component last = .named name := by
  rw [creation] at h
  split at h
  · cases h
  · next last hne hlast =>
    split at h
    · next hname =>
      cases h
      exact ⟨last, (List.dropLast_append_getLast? last hlast).symm, hname⟩
    · cases h
  · cases h

/-- Only files of the working directory itself can be written. -/
lemma exists_of_write {path : String} {bytes : List UInt8} {d' : Directory} (h : d.write path bytes = .ok d') :
    ∃ above last name, parts path = .ok (above ++ [last]) ∧ component last = .named name ∧
      (above = [] ∨ d.follow (above ++ [[]]) = .ok .here) ∧
      (Utf8.encode name).length ≤ nameLimit ∧ d' = d.put name bytes := by
  rw [write] at h
  obtain ⟨ps, hps, h⟩ := bind_eq_ok.mp h
  cases hcreation : creation ps with
  | mk above name? =>
    simp only [hcreation] at h
    cases name? with
    | none =>
      split at h
      · cases h
      · obtain ⟨place, -, h⟩ := bind_eq_ok.mp h
        cases h
    | some name =>
      obtain ⟨last, rfl, hlast⟩ := eq_append_of_creation hcreation
      refine ⟨above, last, name, hps, hlast, ?_⟩
      split at h
      · next habove =>
        obtain ⟨place, -, h⟩ := bind_eq_ok.mp h
        dsimp only at h
        split_ifs at h with hlong hhere
        cases h
        exact ⟨Or.inl (List.isEmpty_iff.mp habove), Nat.not_lt.mp hlong, rfl⟩
      · obtain ⟨place, hplace, h⟩ := bind_eq_ok.mp h
        dsimp only at h
        split_ifs at h with hlong hhere
        cases h
        exact ⟨Or.inr (hhere ▸ hplace), Nat.not_lt.mp hlong, rfl⟩

lemma find?_put (d : Directory) (name : String) (bytes : List UInt8) : (d.put name bytes).find? name = some bytes := by
  simp [find?, put]

lemma read_put {path name : String} {last : List Char} (bytes : List UInt8)
    (hparts : parts path = .ok (above ++ [last])) (hlast : component last = .named name)
    (hhead : above.head? ≠ some []) (habove : ∀ p ∈ above, component p = .same)
    (hlimit : (Utf8.encode name).length ≤ nameLimit) : (d.put name bytes).read path = .ok bytes := by
  have hne : last ≠ [] := by
    rintro rfl
    cases hlast
  have hhead' : (above ++ [last]).head? ≠ some [] := by
    cases above with
    | nil => simpa using hne
    | cons p above => exact hhead
  have hfile : (d.put name bytes).step .here last = .ok (.file name) := by
    simp [step, hlast, Nat.not_lt.mpr hlimit, find?_put]
  have hlocate : (d.put name bytes).locate path = .ok (.file name) := by
    rw [locate, hparts]
    change (d.put name bytes).follow (above ++ [last]) = _
    rw [follow_of_head?_ne _ hhead', List.foldlM_append, foldlM_step_here _ habove]
    change [last].foldlM (d.put name bytes).step .here = _
    rw [List.foldlM_cons, hfile]
    rfl
  rw [read, hlocate]
  simp [readAt, bind, Except.bind, find?_put]

/-- What is written is read. -/
lemma read_of_write {path : String} {bytes : List UInt8} {d' : Directory} (h : d.write path bytes = .ok d') :
    d'.read path = .ok bytes := by
  obtain ⟨above, last, name, hparts, hlast, habove, hlimit, rfl⟩ := exists_of_write h
  by_cases hnil : above = []
  · subst hnil
    exact read_put bytes hparts hlast nofun (List.forall_mem_nil _) hlimit
  · obtain ⟨hhead, hsame⟩ := same_of_follow_eq_here (habove.resolve_left hnil) hnil
    exact read_put bytes hparts hlast hhead hsame hlimit

end Totality.Directory
