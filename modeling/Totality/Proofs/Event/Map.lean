import Mathlib.Tactic.Lemma
import Totality.Event.Table

/-!
# Event tables over other points of time

The points of time in an event table can be replaced by others, one by one. The magnitudes stay, and so do the readings
that bracket a magnitude.
-/

namespace Totality

variable {σ τ : Type} (f : σ → τ)

namespace Reading

/-- The reading at another point of time. -/
def map (r : Reading σ) : Reading τ := ⟨r.magnitude, f r.time⟩

@[simp] lemma magnitude_map (r : Reading σ) : (r.map f).magnitude = r.magnitude := rfl

@[simp] lemma time_map (r : Reading σ) : (r.map f).time = f r.time := rfl

end Reading

namespace Curve

@[simp] lemma bounds?_map (curve : List (Reading σ)) (target : Binary64) :
    bounds? (curve.map (.map f)) target = bounds? curve target := by
  simp only [bounds?, ← List.map_reverse, List.takeWhile_map, List.length_map, Function.comp_def,
    Reading.magnitude_map]

end Curve

namespace EventTable

/-- The table with all its instants and readings at other points of time. -/
def map (table : EventTable σ) : EventTable τ where
  instants := table.instants.map fun p => (p.1, f p.2)
  pre := table.pre.map (.map f)
  post := table.post.map (.map f)
  maxMagnitude := table.maxMagnitude
  pre_ascending := List.pairwise_map.mpr table.pre_ascending
  post_ascending := List.pairwise_map.mpr table.post_ascending

variable (table : EventTable σ)

@[simp] lemma maxMagnitude_map : (table.map f).maxMagnitude = table.maxMagnitude := rfl

@[simp] lemma curve_map (limb : Limb) : (table.map f).curve limb = (table.curve limb).map (.map f) := by
  cases limb <;> rfl

@[simp] lemma instant?_map (name : String) : (table.map f).instant? name = (table.instant? name).map f := by
  simp [instant?, map, List.find?_map, Function.comp_def]

end EventTable

end Totality
