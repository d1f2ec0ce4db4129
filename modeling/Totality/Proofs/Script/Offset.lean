import Mathlib.Tactic.Lemma
import Totality.Proofs.Calendar.Instant
import Totality.Proofs.Except
import Totality.Proofs.Number.Nonnegative
import Totality.Script.Field

/-!
# The sign of an offset

The sign field of an offset says which way the offset goes, as long as its parts are not negative themselves: the parts
are added up with their own signs, and only then the sign field turns the sum round. The main statement is
`obeysSign_iff`.
-/

namespace Totality.Offset

open Text Binary64

/-- An offset goes back if the sign field is a minus, and otherwise ahead, if it is any offset at all. -/
def ObeysSign (sign : List Char) (d : Duration) : Prop :=
  if trim sign = ['-'] then d.nanos ≤ 0 else 0 ≤ d.nanos

variable {sign cs : List Char} {d : Duration}

/-! ### What the sign field does -/

/-- The offset that the parts make on their own. -/
def unsigned? (cs : List Char) : Option Duration := read? [] cs

lemma unsigned?_eq_some_iff : unsigned? cs = some d ↔
    ∃ s, seconds? cs = some s ∧ s.isFinite ∧
      d = Duration.ofMicros ((s * .ofInt 1000000).roundTo wordMin wordMax) := by
  have hempty : trim [] ≠ ['-'] := by decide
  rw [unsigned?, read?]
  cases seconds? cs with
  | none => simp
  | some s =>
    dsimp only
    rw [if_neg hempty]
    by_cases hs : s.isFinite
    · rw [if_pos hs]
      constructor
      · exact fun h => ⟨s, rfl, hs, (Option.some.inj h).symm⟩
      · rintro ⟨_, ⟨⟩, -, rfl⟩
        rfl
    · simp [hs]

/-- The sign field turns the offset round or leaves it as it is. -/
lemma read?_eq (sign cs : List Char) :
    read? sign cs = (unsigned? cs).map fun d => if trim sign = ['-'] then -d else d := by
  have hempty : trim [] ≠ ['-'] := by decide
  rw [unsigned?, read?, read?]
  cases seconds? cs with
  | none => rfl
  | some s =>
    by_cases hs : s.isFinite
    · simp [hs, hempty]
    · simp [hs]

/-- Whether an offset obeys its sign field does not depend on the field. -/
lemma obeysSign_iff_nonneg (sign : List Char) (d : Duration) :
    ObeysSign sign (if trim sign = ['-'] then -d else d) ↔ 0 ≤ d.nanos := by
  rw [ObeysSign]
  split
  · rw [Duration.nanos_neg]
    omega
  · rfl

lemma forall_obeysSign_iff (cs : List Char) :
    (∀ sign d, read? sign cs = some d → ObeysSign sign d) ↔ ∀ d, unsigned? cs = some d → 0 ≤ d.nanos := by
  constructor
  · intro h d hd
    exact (obeysSign_iff_nonneg [] d).mp (h [] _ (by rw [read?_eq, hd, Option.map_some]))
  · intro h sign d hread
    rw [read?_eq] at hread
    obtain ⟨e, he, rfl⟩ := Option.map_eq_some_iff.mp hread
    exact (obeysSign_iff_nonneg sign e).mpr (h e he)

/-- An offset goes back if its seconds are at most minus half a microsecond. -/
lemma forall_nonneg_iff (cs : List Char) : (∀ d, unsigned? cs = some d → 0 ≤ d.nanos) ↔
    ∀ s, seconds? cs = some s → s.isFinite → ¬(s * .ofInt 1000000).le (-half) := by
  constructor
  · intro h s hs hfinite
    have hd := h _ (unsigned?_eq_some_iff.mpr ⟨s, hs, hfinite, rfl⟩)
    rw [Duration.nanos_ofMicros] at hd
    rw [← roundTo_lt_zero_iff]
    omega
  · intro h d hd
    obtain ⟨s, hs, hfinite, rfl⟩ := unsigned?_eq_some_iff.mp hd
    have hround := h s hs hfinite
    rw [← roundTo_lt_zero_iff] at hround
    rw [Duration.nanos_ofMicros]
    omega

/-! ### Parts without a minus -/

lemma notNegative_of_readNumbers? {sep : Char} {ns : List Binary64} (h : readNumbers? sep cs = some ns)
    (hparts : ∀ piece ∈ splitAt sep cs, (trim piece).head? ≠ some '-') : ∀ n ∈ ns, n.NotNegative := by
  rw [readNumbers?, mapM_eq_some_iff] at h
  generalize splitAt sep cs = pieces at *
  induction h with
  | nil => exact List.forall_mem_nil _
  | cons hn _ ih =>
    obtain ⟨hpiece, hpieces⟩ := List.forall_mem_cons.mp hparts
    exact List.forall_mem_cons.mpr ⟨notNegative_of_read? hpiece hn, ih hpieces⟩

/-- Hours, minutes and seconds without a minus do not add up to less than nothing. -/
lemma notNegative_of_seconds? {s : Binary64} (h : seconds? cs = some s)
    (hparts : ∀ piece ∈ splitAt ':' cs, (trim piece).head? ≠ some '-') : s.NotNegative := by
  have hhour : (ofInt 3600).NotNegative := Or.inr (by decide +kernel)
  have hminute : (ofInt 60).NotNegative := Or.inr (by decide +kernel)
  rw [seconds?] at h
  split at h
  · next hour minute second hns =>
    have hns := notNegative_of_readNumbers? hns hparts
    simp only [List.forall_mem_cons] at hns
    obtain ⟨h1, h2, h3, -⟩ := hns
    exact Option.some.inj h ▸ ((h1.mul hhour).add (h2.mul hminute)).add h3
  · next minute second hns =>
    have hns := notNegative_of_readNumbers? hns hparts
    simp only [List.forall_mem_cons] at hns
    obtain ⟨h1, h2, -⟩ := hns
    exact Option.some.inj h ▸ (h1.mul hminute).add h2
  · cases h

lemma not_le_neg_half_of_parts (hparts : ∀ piece ∈ splitAt ':' cs, (trim piece).head? ≠ some '-') {s : Binary64}
    (h : seconds? cs = some s) : ¬(s * .ofInt 1000000).le (-half) := by
  have hmillion : (ofInt 1000000).NotNegative := Or.inr (by decide +kernel)
  have hround := ((notNegative_of_seconds? h hparts).mul hmillion).zero_le_roundTo
  rw [← roundTo_lt_zero_iff]
  omega

/-- The sign field does not decide which texts are offsets, and a minus in it makes the offset the opposite of what any
other sign field makes of the text. The offset obeys the sign field, whatever this is, if and only if the sum of the
parts is not as low as minus half a microsecond, and so in any case if no part is written with a minus. -/
theorem obeysSign_iff (cs : List Char) :
    (∀ sign sign', (read? sign cs).isSome = (read? sign' cs).isSome) ∧
      (∀ sign sign', trim sign = ['-'] → trim sign' ≠ ['-'] → read? sign cs = (read? sign' cs).map fun d => -d) ∧
      ((∀ sign d, read? sign cs = some d → ObeysSign sign d) ↔
        ∀ s, seconds? cs = some s → s.isFinite → ¬(s * .ofInt 1000000).le (-half)) ∧
      ((∀ piece ∈ splitAt ':' cs, (trim piece).head? ≠ some '-') →
        ∀ sign d, read? sign cs = some d → ObeysSign sign d) := by
  have hobeys := (forall_obeysSign_iff cs).trans (forall_nonneg_iff cs)
  refine ⟨fun sign sign' => ?_, fun sign sign' hminus hplus => ?_, hobeys, fun hparts => ?_⟩
  · rw [read?_eq, read?_eq, Option.isSome_map, Option.isSome_map]
  · rw [read?_eq, read?_eq, Option.map_map]
    congr 1
    funext d
    rw [Function.comp_apply, if_pos hminus, if_neg hplus]
  · exact hobeys.mpr fun s hs _ => not_le_neg_half_of_parts hparts hs

/-- A minute with a minus goes back by a minute behind a plus, and ahead by a minute behind a minus. -/
theorem minusMinute_disobeys :
    read? "+".toList "-1:00".toList = some (Duration.ofMicros (-60000000)) ∧
      ¬ObeysSign "+".toList (Duration.ofMicros (-60000000)) ∧
      read? "-".toList "-1:00".toList = some (Duration.ofMicros 60000000) ∧
      ¬ObeysSign "-".toList (Duration.ofMicros 60000000) := by
  have hplus : trim "+".toList ≠ ['-'] := by decide
  have hminus : trim "-".toList = ['-'] := by decide
  refine ⟨by decide +kernel, ?_, by decide +kernel, ?_⟩
  · rw [ObeysSign, if_neg hplus]
    decide
  · rw [ObeysSign, if_pos hminus]
    decide

end Totality.Offset
