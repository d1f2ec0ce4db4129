import Mathlib.Data.List.Forall2
import Mathlib.Tactic.Lemma

/-!
# Results that may be refused

A chain of steps has a result if each step has one. Two chains agree if their steps do, one by one.
-/

namespace Totality

lemma bind_eq_ok {ε α β : Type} {x : Except ε α} {f : α → Except ε β} {b : β} :
    x >>= f = .ok b ↔ ∃ a, x = .ok a ∧ f a = .ok b := by
  cases x with
  | error e => exact ⟨nofun, nofun⟩
  | ok a => exact ⟨fun h => ⟨a, rfl, h⟩, fun ⟨_, ha, h⟩ => Except.ok.inj ha ▸ h⟩

lemma bind_eq_error {ε α β : Type} {x : Except ε α} {f : α → Except ε β} {e : ε} :
    x >>= f = .error e ↔ x = .error e ∨ ∃ a, x = .ok a ∧ f a = .error e := by
  cases x with
  | error e' =>
    constructor
    · exact fun h => Or.inl (congrArg _ (Except.error.inj h))
    · rintro (h | ⟨_, ha, _⟩)
      · exact congrArg _ (Except.error.inj h)
      · cases ha
  | ok a =>
    constructor
    · exact fun h => Or.inr ⟨a, rfl, h⟩
    · rintro (h | ⟨_, ha, h⟩)
      · cases h
      · cases ha
        exact h

lemma bind_ne_error {ε α β : Type} {x : Except ε α} {f : α → Except ε β} {e : ε} (hx : x ≠ .error e)
    (hf : ∀ a, f a ≠ .error e) : x >>= f ≠ .error e := by
  rw [Ne, bind_eq_error]
  rintro (h | ⟨a, -, h⟩)
  · exact hx h
  · exact hf a h

lemma map_eq_ok {ε α β : Type} {x : Except ε α} {f : α → β} {b : β} :
    x.map f = .ok b ↔ ∃ a, x = .ok a ∧ f a = b := by
  cases x with
  | error e => exact ⟨nofun, nofun⟩
  | ok a => exact ⟨fun h => ⟨a, rfl, Except.ok.inj h⟩, fun ⟨_, ha, h⟩ => Except.ok.inj ha ▸ congrArg Except.ok h⟩

lemma map_eq_error {ε α β : Type} {x : Except ε α} {f : α → β} {e : ε} : x.map f = .error e ↔ x = .error e := by
  cases x with
  | error e' => exact ⟨fun h => congrArg _ (Except.error.inj h), fun h => congrArg _ (Except.error.inj h)⟩
  | ok a => exact ⟨nofun, nofun⟩

lemma map_bind {ε α β γ : Type} (x : Except ε α) (f : α → β) (g : β → Except ε γ) :
    x.map f >>= g = x >>= fun a => g (f a) := by
  cases x with
  | error e => rfl
  | ok a => rfl

lemma bind_map {ε α β γ : Type} (x : Except ε α) (f : α → Except ε β) (g : β → γ) :
    (x >>= f).map g = x >>= fun a => (f a).map g := by
  cases x with
  | error e => rfl
  | ok a => rfl

lemma mapError_eq_ok {ε ε' α : Type} {x : Except ε α} {f : ε → ε'} {a : α} : x.mapError f = .ok a ↔ x = .ok a := by
  cases x with
  | error e => exact ⟨nofun, nofun⟩
  | ok a' => exact ⟨fun h => congrArg _ (Except.ok.inj h), fun h => congrArg _ (Except.ok.inj h)⟩

lemma mapError_eq_error {ε ε' α : Type} {x : Except ε α} {f : ε → ε'} {e' : ε'} :
    x.mapError f = .error e' ↔ ∃ e, x = .error e ∧ f e = e' := by
  cases x with
  | error e => exact ⟨fun h => ⟨e, rfl, Except.error.inj h⟩, fun ⟨_, he, h⟩ => Except.error.inj he ▸ congrArg _ h⟩
  | ok a => exact ⟨nofun, nofun⟩

/-- What the steps of a loop preserve holds after the loop. -/
lemma foldlM_preserves {ε α β : Type} {f : β → α → Except ε β} {as : List α} {P : β → Prop}
    (hstep : ∀ a ∈ as, ∀ b b', P b → f b a = .ok b' → P b') {b b' : β} (hb : P b) (h : as.foldlM f b = .ok b') :
    P b' := by
  induction as generalizing b with
  | nil =>
    cases h
    exact hb
  | cons a as ih =>
    rw [List.foldlM_cons, bind_eq_ok] at h
    obtain ⟨mid, hmid, hrest⟩ := h
    exact ih (fun a' ha' => hstep a' (List.mem_cons_of_mem _ ha')) (hstep a List.mem_cons_self b mid hb hmid) hrest

section MapM

variable {ε α β : Type} {f : α → Except ε β} {as : List α}

lemma mapM_eq_ok_iff {bs : List β} : as.mapM f = .ok bs ↔ List.Forall₂ (fun a b => f a = .ok b) as bs := by
  induction as generalizing bs with
  | nil =>
    rw [List.forall₂_nil_left_iff]
    exact ⟨fun h => (Except.ok.inj h).symm, fun h => congrArg Except.ok h.symm⟩
  | cons a as ih =>
    simp only [List.mapM_cons, bind_eq_ok, List.forall₂_cons_left_iff, ih]
    constructor
    · rintro ⟨b, hb, rest, hrest, h⟩
      exact ⟨b, rest, hb, hrest, (Except.ok.inj h).symm⟩
    · rintro ⟨b, rest, hb, hrest, rfl⟩
      exact ⟨b, hb, rest, hrest, rfl⟩

lemma mapM_eq_ok_length {bs : List β} (h : as.mapM f = .ok bs) : bs.length = as.length :=
  (mapM_eq_ok_iff.mp h).length_eq.symm

lemma exists_mapM_eq_ok_iff : (∃ bs, as.mapM f = .ok bs) ↔ ∀ a ∈ as, ∃ b, f a = .ok b := by
  induction as with
  | nil => exact ⟨fun _ => List.forall_mem_nil _, fun _ => ⟨[], rfl⟩⟩
  | cons a as ih =>
    simp only [List.mapM_cons, bind_eq_ok, List.forall_mem_cons, ← ih]
    constructor
    · rintro ⟨_, b, hb, rest, hrest, -⟩
      exact ⟨⟨b, hb⟩, rest, hrest⟩
    · rintro ⟨⟨b, hb⟩, rest, hrest⟩
      exact ⟨b :: rest, b, hb, rest, hrest, rfl⟩

/-- The first step that is refused refuses them all. -/
lemma mapM_eq_error_iff {e : ε} :
    as.mapM f = .error e ↔
      ∃ before a after, as = before ++ a :: after ∧ (∀ b ∈ before, ∃ c, f b = .ok c) ∧ f a = .error e := by
  constructor
  · intro h
    induction as with
    | nil => cases h
    | cons a as ih =>
      rw [List.mapM_cons, bind_eq_error] at h
      rcases h with h | ⟨b, hb, h⟩
      · exact ⟨[], a, as, rfl, List.forall_mem_nil _, h⟩
      · rw [bind_eq_error] at h
        rcases h with h | ⟨_, -, h⟩
        · obtain ⟨before, a', after, rfl, hbefore, ha'⟩ := ih h
          exact ⟨a :: before, a', after, rfl, List.forall_mem_cons.mpr ⟨⟨b, hb⟩, hbefore⟩, ha'⟩
        · cases h
  · rintro ⟨before, a, after, rfl, hbefore, ha⟩
    obtain ⟨bs, hbs⟩ := exists_mapM_eq_ok_iff.mpr hbefore
    rw [List.mapM_append, hbs, List.mapM_cons, ha]
    rfl

lemma mapM_flatMap {γ : Type} (g : γ → List α) (cs : List γ) :
    (cs.flatMap g).mapM f = (cs.mapM fun c => (g c).mapM f).map List.flatten := by
  induction cs with
  | nil => rfl
  | cons c cs ih =>
    rw [List.flatMap_cons, List.mapM_append, List.mapM_cons, ih]
    cases (g c).mapM f with
    | error e => rfl
    | ok bs =>
      cases cs.mapM fun c => (g c).mapM f with
      | error e => rfl
      | ok rest => rfl

lemma mapM_mapError {ε' : Type} (g : ε → ε') (as : List α) :
    (as.mapM fun a => (f a).mapError g) = (as.mapM f).mapError g := by
  induction as with
  | nil => rfl
  | cons a as ih =>
    simp only [List.mapM_cons, ih]
    cases f a with
    | error e => rfl
    | ok b =>
      cases as.mapM f with
      | error e => rfl
      | ok bs => rfl

/-- Steps that give the images of what other steps give, give a list of images. -/
lemma mapM_eq_map {γ : Type} {f' : α → Except ε γ} {g : β → γ} (h : ∀ a, f' a = (f a).map g) (as : List α) :
    as.mapM f' = (as.mapM f).map (List.map g) := by
  induction as with
  | nil => rfl
  | cons a as ih =>
    rw [List.mapM_cons, List.mapM_cons, h, ih]
    cases f a with
    | error e => rfl
    | ok b =>
      cases as.mapM f with
      | error e => rfl
      | ok bs => rfl

/-- A list of optional values has a value if each of them has one. -/
lemma mapM_eq_some_iff {g : α → Option β} {bs : List β} :
    as.mapM g = some bs ↔ List.Forall₂ (fun a b => g a = some b) as bs := by
  induction as generalizing bs with
  | nil =>
    rw [List.forall₂_nil_left_iff]
    exact ⟨fun h => (Option.some.inj h).symm, fun h => congrArg some h.symm⟩
  | cons a as ih =>
    simp only [List.mapM_cons, Option.bind_eq_bind, Option.bind_eq_some_iff, List.forall₂_cons_left_iff, ih]
    constructor
    · rintro ⟨b, hb, rest, hrest, h⟩
      exact ⟨b, rest, hb, hrest, (Option.some.inj h).symm⟩
    · rintro ⟨b, rest, hb, hrest, rfl⟩
      exact ⟨b, hb, rest, hrest, rfl⟩

end MapM

/-! ### Results that agree -/

/-- Two results of one kind: a value each, in a relation, or the same error. -/
inductive Agree {ε α β : Type} (R : α → β → Prop) : Except ε α → Except ε β → Prop where
  | ok {a : α} {b : β} (h : R a b) : Agree R (.ok a) (.ok b)
  | error (e : ε) : Agree R (.error e) (.error e)

namespace Agree

variable {ε α β γ δ : Type} {R : α → β → Prop} {S : γ → δ → Prop} {x : Except ε α} {y : Except ε β}

lemma iff : Agree R x y ↔ (∃ a b, x = .ok a ∧ y = .ok b ∧ R a b) ∨ ∃ e, x = .error e ∧ y = .error e := by
  constructor
  · intro h
    cases h with
    | ok h => exact Or.inl ⟨_, _, rfl, rfl, h⟩
    | error e => exact Or.inr ⟨e, rfl, rfl⟩
  · rintro (⟨a, b, rfl, rfl, h⟩ | ⟨e, rfl, rfl⟩)
    · exact .ok h
    · exact .error e

lemma bind {f : α → Except ε γ} {g : β → Except ε δ} (h : Agree R x y)
    (hfg : ∀ a b, x = .ok a → y = .ok b → R a b → Agree S (f a) (g b)) : Agree S (x >>= f) (y >>= g) := by
  cases h with
  | ok h => exact hfg _ _ rfl rfl h
  | error e => exact .error e

lemma map {f : α → γ} {g : β → δ} (h : Agree R x y) (hfg : ∀ a b, R a b → S (f a) (g b)) :
    Agree S (x.map f) (y.map g) := by
  cases h with
  | ok h => exact .ok (hfg _ _ h)
  | error e => exact .error e

lemma mapError {ε' : Type} (g : ε → ε') (h : Agree R x y) : Agree R (x.mapError g) (y.mapError g) := by
  cases h with
  | ok h => exact .ok h
  | error e => exact .error _

end Agree

end Totality
