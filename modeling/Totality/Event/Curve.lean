import Totality.Calendar.TimeScale
import Totality.Number.Binary64
/-!
# Magnitude curves

One limb of an eclipse is a list of readings with rising magnitude. The time at which it reaches a given
magnitude lies between the two readings that bracket it, in linear proportion.
-/

namespace Totality

/-- A magnitude and the time at which it was predicted. -/
structure Reading (τ : Type) where
  magnitude : Binary64
  time : τ
  deriving DecidableEq

/-- The side of maximum eclipse. -/
inductive Limb where
  | pre
  | post
  deriving DecidableEq, Repr

def Limb.name : Limb → String
  | .pre => "pre"
  | .post => "post"

variable {τ : Type}

namespace Curve

/-- No magnitude is below one before it; of two readings or more none is not-a-number. -/
def Ascending (curve : List (Reading τ)) : Prop :=
  curve.Pairwise fun a b => a.magnitude.le b.magnitude = true

/-- The first place at which a curve does not ascend: the index of the later reading, and both magnitudes. -/
def firstDrop? (index : Nat) : List (Reading τ) → Option (Nat × Binary64 × Binary64)
  | a :: b :: rest =>
    if a.magnitude.le b.magnitude then firstDrop? (index + 1) (b :: rest)
    else some (index, a.magnitude, b.magnitude)
  | _ => none

theorem ascending_of_firstDrop? {curve : List (Reading τ)} {index : Nat}
    (h : firstDrop? index curve = none) : Ascending curve := by
  induction curve generalizing index with
  | nil => exact .nil
  | cons a rest ih =>
    cases rest with
    | nil => exact List.pairwise_singleton _ a
    | cons b rest =>
      simp only [firstDrop?] at h
      split at h
      · next hab =>
        have hrest := ih h
        refine .cons (fun c hc => ?_) hrest
        rcases List.mem_cons.1 hc with rfl | hc
        · exact hab
        · exact Binary64.le_trans hab (List.rel_of_pairwise_cons hrest hc)
      · simp at h

/-- The readings that bracket a target, by index: the last of those at the front that do not exceed it, and
the first of those at the back that do not fall short of it. -/
def bounds? (curve : List (Reading τ)) (target : Binary64) : Option (Nat × Nat) :=
  let front := (curve.takeWhile fun r => r.magnitude.le target).length
  let back := (curve.reverse.takeWhile fun r => target.le r.magnitude).length
  if front = 0 ∨ back = 0 then none else some (front - 1, curve.length - back)

end Curve

namespace Duration

/-- The whole microseconds as a 64-bit word; where they do not fit, whole milliseconds are taken and the
range is cut. -/
def wordMicros (d : Duration) : Int :=
  let micros := d.nanos.tdiv 1000
  if wordMin ≤ micros ∧ micros ≤ wordMax then micros
  else clampInt wordMin wordMax (d.nanos.tdiv 1000000 * 1000)

/-- A multiple of a duration, rounded to microseconds. -/
def scale (d : Duration) (factor : Binary64) : Duration :=
  ofMicros ((Binary64.ofInt d.wordMicros * factor).roundTo wordMin wordMax)

end Duration

/-- Where a curve reaches a magnitude. -/
inductive Crossing (τ : Type) where
  /-- The magnitude lies outside the curve. -/
  | outside
  | reached (time : τ)
  /-- Rounding carries the time out of the calendar. -/
  | overflow
  deriving DecidableEq

namespace Curve

variable [TimeScale τ]

/-- The time between two readings at which the magnitude is in proportion. -/
def between (low high : Reading τ) (target : Binary64) : Crossing τ :=
  let fraction := (target - low.magnitude) / (high.magnitude - low.magnitude)
  match TimeScale.add? low.time ((TimeScale.since high.time low.time).scale fraction) with
  | some t => .reached t
  | none => .overflow

/-- Where the curve reaches a target: on a reading, on the earliest of a run of equal readings, or between
two of them. -/
def crossing (curve : List (Reading τ)) (target : Binary64) : Crossing τ :=
  match bounds? curve target with
  | none => .outside
  | some (lo, hi) =>
    match curve[lo]?, curve[hi]? with
    | some low, some high =>
      if lo = hi then .reached low.time
      else if (high.magnitude - low.magnitude).eqv (.zero false) then
        .reached (if lo < hi then low.time else high.time)
      else between low high target
    | _, _ => .outside

end Curve

end Totality
