import Mathlib.Data.List.Chain
import Mathlib.Tactic.Lemma
import Totality.Program

/-!
# Turns of a camera

The turns of a camera follow one another: a capture begins when it was handed over, or when the one before it is over if
that is later. What a camera is asked to do for a capture depends on this capture alone.
-/

namespace Totality

/-- What a camera is asked to do for a capture that it acts on like this. -/
def captureCalls (e : Exposure) (a : Attempt) : List CameraCall :=
  [.stage e, .apply] ++ if a.applyError.isNone then [.trigger] else []

namespace Turn

/-- The calls of a turn with the stretches of time that they take. -/
def spans (t : Turn) : List (CameraCall × Nat × Nat) :=
  [(.stage t.submission.exposure, t.start, t.start), (.apply, t.start, t.applied)] ++
    if t.attempt.applyError.isNone then [(.trigger, t.applied, t.finish)] else []

variable (t : Turn)

lemma calls_eq_map_spans : t.calls = t.spans.map fun span => (span.2.1, span.1) := by
  rw [calls, spans]
  split_ifs <;> rfl

@[simp] lemma map_snd_calls : t.calls.map Prod.snd = captureCalls t.submission.exposure t.attempt := by
  rw [calls, captureCalls]
  split_ifs <;> rfl

lemma start_le_applied : t.start ≤ t.applied := Nat.le_add_right _ _

lemma applied_le_finish : t.applied ≤ t.finish := by
  rw [finish]
  split_ifs
  · exact Nat.le_add_right _ _
  · exact Nat.le_refl _

lemma start_le_finish : t.start ≤ t.finish := t.start_le_applied.trans t.applied_le_finish

/-- The calls of a turn are made between its start and its end. -/
lemma mem_spans {span : CameraCall × Nat × Nat} (h : span ∈ t.spans) : t.start ≤ span.2.1 ∧ span.2.2 ≤ t.finish := by
  rcases List.mem_append.mp h with h | h
  · rcases List.mem_pair.mp h with rfl | rfl
    · exact ⟨Nat.le_refl _, t.start_le_finish⟩
    · exact ⟨Nat.le_refl _, t.applied_le_finish⟩
  · split_ifs at h
    · rw [List.mem_singleton.mp h]
      exact ⟨t.start_le_applied, Nat.le_refl _⟩
    · cases h

/-- No call of a turn is made before the one in front of it is over. -/
lemma pairwise_spans : t.spans.Pairwise fun a b => a.2.2 ≤ b.2.1 := by
  rw [spans]
  split_ifs
  · simp [start_le_applied]
  · simp

end Turn

section

variable (camera : Nat → Exposure → Attempt) (n free : Nat) (subs : List Submission)

/-- Every capture has its turn, in which the camera acts on it. -/
lemma map_turns :
    ((turns camera n free subs).map fun t => (t.submission, t.attempt)) =
      (subs.zipIdx n).map fun p => (p.1, camera p.2 p.1.exposure) := by
  induction subs generalizing n free with
  | nil => rfl
  | cons s subs ih => rw [turns, List.map_cons, ih, List.zipIdx_cons, List.map_cons]

lemma map_submission_turns : (turns camera n free subs).map Turn.submission = subs := by
  have h := congrArg (List.map Prod.fst) (map_turns camera n free subs)
  rw [List.map_map, List.map_map] at h
  exact h.trans (List.zipIdx_map_fst n subs)

/-- The calls of a turn are those for its capture, whatever comes of the other captures. -/
lemma map_calls_turns :
    ((turns camera n free subs).map fun t => t.calls.map Prod.snd) =
      (subs.zipIdx n).map fun p => captureCalls p.1.exposure (camera p.2 p.1.exposure) := by
  have h := congrArg (List.map fun q => captureCalls q.1.exposure q.2) (map_turns camera n free subs)
  rw [List.map_map, List.map_map] at h
  simp only [Turn.map_snd_calls]
  exact h

lemma start_of_mem_head?_turns {t : Turn} (h : t ∈ (turns camera n free subs).head?) :
    t.start = max t.submission.ms free := by
  cases subs with
  | nil => cases h
  | cons s subs =>
    cases h
    rfl

lemma isChain_turns : (turns camera n free subs).IsChain fun t t' => t'.start = max t'.submission.ms t.finish := by
  induction subs generalizing n free with
  | nil => exact .nil
  | cons s subs ih =>
    rw [turns]
    exact List.isChain_cons.mpr ⟨fun t ht => start_of_mem_head?_turns _ _ _ _ ht, ih _ _⟩

/-- No turn starts before the camera is free. -/
lemma le_start_of_mem_turns {t : Turn} (h : t ∈ turns camera n free subs) : free ≤ t.start := by
  induction subs generalizing n free with
  | nil => cases h
  | cons s subs ih =>
    rcases List.mem_cons.mp h with rfl | h
    · exact Nat.le_max_right _ _
    · calc
        free ≤ max s.ms free := Nat.le_max_right _ _
        _ ≤ _ := Turn.start_le_finish ⟨s, max s.ms free, camera n s.exposure⟩
        _ ≤ t.start := ih _ _ h

/-- No call is made before the one in front of it is over. -/
lemma pairwise_spans_turns : ((turns camera n free subs).flatMap Turn.spans).Pairwise fun a b => a.2.2 ≤ b.2.1 := by
  induction subs generalizing n free with
  | nil => exact .nil
  | cons s subs ih =>
    rw [turns, List.flatMap_cons, List.pairwise_append]
    refine ⟨Turn.pairwise_spans _, ih _ _, fun a ha b hb => ?_⟩
    obtain ⟨t, ht, hb⟩ := List.mem_flatMap.mp hb
    calc
      a.2.2 ≤ _ := (Turn.mem_spans _ ha).2
      _ ≤ t.start := le_start_of_mem_turns _ _ _ _ ht
      _ ≤ b.2.1 := (t.mem_spans hb).1

end

/-- Turns in which one camera serves captures. -/
structure Serial (camera : Nat → Exposure → Attempt) (subs : List Submission) (ts : List Turn) : Prop where
  /-- Every capture has its turn, once and in order. -/
  submissions : ts.map Turn.submission = subs
  attempts : ts.map Turn.attempt = (subs.zipIdx 1).map fun p => camera p.2 p.1.exposure
  /-- The calls for a capture are those with its own exposure, and depend on nothing but what becomes of it. -/
  calls : (ts.map fun t => t.calls.map Prod.snd) =
    (subs.zipIdx 1).map fun p => captureCalls p.1.exposure (camera p.2 p.1.exposure)
  first : ∀ t ∈ ts.head?, t.start = t.submission.ms
  next : ts.IsChain fun t t' => t'.start = max t'.submission.ms t.finish
  /-- The calls are those whose stretches of time are known. -/
  spans : ts.flatMap Turn.calls = (ts.flatMap Turn.spans).map fun span => (span.2.1, span.1)
  /-- No call is made before the one in front of it is over. -/
  apart : (ts.flatMap Turn.spans).Pairwise fun a b => a.2.2 ≤ b.2.1

lemma serial_turns (camera : Nat → Exposure → Attempt) (subs : List Submission) :
    Serial camera subs (turns camera 1 0 subs) where
  submissions := map_submission_turns camera 1 0 subs
  attempts := by
    have h := congrArg (List.map Prod.snd) (map_turns camera 1 0 subs)
    rwa [List.map_map, List.map_map] at h
  calls := map_calls_turns camera 1 0 subs
  first t ht := by rw [start_of_mem_head?_turns camera 1 0 subs ht, Nat.max_zero]
  next := isChain_turns camera 1 0 subs
  spans := by rw [List.map_flatMap, ← funext Turn.calls_eq_map_spans]
  apart := pairwise_spans_turns camera 1 0 subs

/-- A camera that acts alike on one capture is asked for the same calls for it, however it acts on the others. -/
lemma Serial.calls_congr {camera camera' : Nat → Exposure → Attempt} {subs : List Submission} {ts ts' : List Turn}
    (h : Serial camera subs ts) (h' : Serial camera' subs ts') {i : Nat} (hi : camera (i + 1) = camera' (i + 1)) :
    (ts.map fun t => t.calls.map Prod.snd)[i]? = (ts'.map fun t => t.calls.map Prod.snd)[i]? := by
  rw [h.calls, h'.calls, List.getElem?_map, List.getElem?_map, List.getElem?_zipIdx]
  cases subs[i]? with
  | none => rfl
  | some s =>
    simp only [Option.map_some, Nat.add_comm 1 i, hi]

/-! ### One more turn -/

section

variable (camera : Nat → Exposure → Attempt)

/-- When a camera is free again that has taken these captures. -/
def freeAfter (past : List Submission) : Nat := ((turns camera 1 0 past).getLast?.map Turn.finish).getD 0

/-- The turn of a capture behind others. -/
def nextTurn (past : List Submission) (s : Submission) : Turn :=
  ⟨s, max s.ms (freeAfter camera past), camera (past.length + 1) s.exposure⟩

lemma turns_append_singleton (n free : Nat) (past : List Submission) (s : Submission) :
    turns camera n free (past ++ [s]) = turns camera n free past ++
      [⟨s, max s.ms (((turns camera n free past).getLast?.map Turn.finish).getD free),
        camera (past.length + n) s.exposure⟩] := by
  induction past generalizing n free with
  | nil => simp [turns]
  | cons first past ih =>
    rw [List.cons_append, turns, turns, ih, List.cons_append, List.getLast?_cons, List.length_cons, Option.map_some,
      Option.getD_some, Option.getD_map, Nat.add_right_comm, Nat.add_assoc]

lemma turns_prefix (n free : Nat) (past more : List Submission) :
    turns camera n free past <+: turns camera n free (past ++ more) := by
  induction past generalizing n free with
  | nil => exact List.nil_prefix
  | cons s past ih =>
    rw [List.cons_append, turns, turns]
    exact (List.prefix_cons_inj _).mpr (ih _ _)

lemma turns_append_nextTurn (past : List Submission) (s : Submission) :
    turns camera 1 0 (past ++ [s]) = turns camera 1 0 past ++ [nextTurn camera past s] :=
  turns_append_singleton camera 1 0 past s

lemma freeAfter_append (past : List Submission) (s : Submission) :
    freeAfter camera (past ++ [s]) = (nextTurn camera past s).finish := by
  rw [freeAfter, turns_append_nextTurn, List.getLast?_concat]
  rfl

end

/-! ### Stations -/

/-- What is handed over to the camera with a task of some millisecond. -/
def Submission.ofTask? : Nat × Task → Option Submission
  | (ms, .capture exposure) => some ⟨ms, exposure⟩
  | (_, .play _) => none

namespace Station

variable {st : Station} {camera : Nat → Exposure → Attempt}

lemma dispatch_capture (h : st.camera = some camera) (ms : Nat) (task : Task) :
    (st.dispatch ms task).camera = some camera ∧
      (st.dispatch ms task).submissions = st.submissions ++ (Submission.ofTask? (ms, task)).toList := by
  cases task with
  | capture exposure =>
    simp only [dispatch, h]
    exact ⟨trivial, rfl⟩
  | play file =>
    rw [Submission.ofTask?, Option.toList_none, List.append_nil]
    cases hplayer : st.player with
    | none =>
      simp only [dispatch, hplayer]
      exact ⟨h, trivial⟩
    | some player =>
      simp only [dispatch, hplayer]
      exact ⟨h, trivial⟩

/-- The camera of a station takes the captures in the order in which they are dispatched, whatever is dispatched between
them. -/
theorem cameraTurns_foldl_dispatch (h : st.camera = some camera) (tasks : List (Nat × Task)) :
    (tasks.foldl (fun st p => st.dispatch p.1 p.2) st).cameraTurns =
      turns camera 1 0 (st.submissions ++ tasks.filterMap Submission.ofTask?) := by
  induction tasks generalizing st with
  | nil =>
    rw [List.foldl_nil, List.filterMap_nil, List.append_nil, cameraTurns, h]
  | cons p tasks ih =>
    obtain ⟨hcamera, hsubs⟩ := dispatch_capture h p.1 p.2
    rw [List.foldl_cons, ih hcamera, hsubs, List.append_assoc]
    cases hp : Submission.ofTask? p with
    | none => rw [List.filterMap_cons_none hp, Option.toList_none, List.nil_append]
    | some s => rw [List.filterMap_cons_some hp, Option.toList_some, List.singleton_append]

end Station

/-! ### Staging -/

namespace Camera

/-- The program that a call starts, if it starts one, and the camera after the call. -/
def obey (c : Camera) : CameraCall → Option Call × Camera
  | .stage e => (none, c.stage e)
  | .apply => (c.apply.1.map (⟨c.program, ·⟩), c.apply.2)
  | .trigger => (some ⟨c.program, c.arguments triggering⟩, c)

/-- The programs that calls start, one after another. -/
def started (c : Camera) : List CameraCall → List Call
  | [] => []
  | call :: calls => (c.obey call).1.toList ++ (c.obey call).2.started calls

/-- Whatever was staged before, the turns of a camera start programs with the exposures of their own captures. -/
theorem started_turns (c : Camera) (ts : List Turn) :
    c.started (ts.flatMap fun t => t.calls.map Prod.snd) =
      ts.flatMap fun t => t.calls.filterMap fun p => c.call? t.submission.exposure p.2 := by
  induction ts generalizing c with
  | nil => rfl
  | cons t ts ih =>
    have hrest := ih { c with staged := none }
    rw [List.flatMap_cons, List.flatMap_cons, Turn.calls]
    split_ifs
    · exact congrArg (_ :: _ :: ·) hrest
    · exact congrArg (_ :: ·) hrest

end Camera

end Totality
