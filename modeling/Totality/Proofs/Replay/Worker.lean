import Totality.Proofs.Replay.Turns

/-!
# The worker of a camera

The camera belongs to one worker, which takes captures from a queue. Captures are handed over at any time while the
queue is open, whatever the worker is doing then. The worker does at once what it can do, and time passes only while it
waits: for a capture, for settings to be applied, or for a picture to be taken. What it asks the camera for are the calls
of the camera's turns.
-/

namespace Totality

/-- What a worker waits for. -/
inductive Phase where
  | idle
  /-- The settings are being applied. -/
  | applying (deadline : Nat) (attempt : Attempt)
  /-- The picture is being taken. -/
  | triggering (deadline : Nat)
  | stopped

/-- A worker at a millisecond, with the calls that it has made. -/
structure Worker where
  now : Nat := 0
  isOpen : Bool := true
  queue : List Submission := []
  /-- The number of captures that were begun. -/
  taken : Nat := 0
  phase : Phase := .idle
  calls : List (Nat × CameraCall) := []

namespace Worker

inductive Event where
  /-- A capture is handed over. -/
  | submit (exposure : Exposure)
  | shutDown
  /-- The worker goes on. -/
  | work
  /-- A millisecond passes. -/
  | wait

/-- What the worker does if it need not wait. -/
def work? (camera : Nat → Exposure → Attempt) (w : Worker) : Option Worker :=
  match w.phase with
  | .idle =>
    match w.queue with
    | s :: rest =>
      let attempt := camera (w.taken + 1) s.exposure
      some { w with
        queue := rest
        taken := w.taken + 1
        phase := .applying (w.now + attempt.applyMs) attempt
        calls := w.calls ++ [(w.now, .stage s.exposure), (w.now, .apply)] }
    | [] => if w.isOpen then none else some { w with phase := .stopped }
  | .applying deadline attempt =>
    if w.now < deadline then none
    else if attempt.applyError.isNone then
      some { w with phase := .triggering (w.now + attempt.triggerMs), calls := w.calls ++ [(w.now, .trigger)] }
    else some { w with phase := .idle }
  | .triggering deadline => if w.now < deadline then none else some { w with phase := .idle }
  | .stopped => none

/-- Nothing is handed over to a queue that is closed. -/
def step (camera : Nat → Exposure → Attempt) (w : Worker) : Event → Option Worker
  | .submit exposure => if w.isOpen then some { w with queue := w.queue ++ [⟨w.now, exposure⟩] } else none
  | .shutDown => if w.isOpen then some { w with isOpen := false } else none
  | .work => w.work? camera
  | .wait => if (w.work? camera).isNone then some { w with now := w.now + 1 } else none

/-- The worker after some events, if they can happen. -/
def run (camera : Nat → Exposure → Attempt) (w : Worker) (events : List Event) : Option Worker :=
  events.foldlM (step camera) w

/-- The captures that are handed over in the course of some events, the first of which happens `now`. -/
def submissions (now : Nat) : List Event → List Submission
  | [] => []
  | .submit exposure :: events => ⟨now, exposure⟩ :: submissions now events
  | .wait :: events => submissions (now + 1) events
  | .shutDown :: events | .work :: events => submissions now events

variable {camera : Nat → Exposure → Attempt} {w w' : Worker} {subs past : List Submission} {event : Event}

/-! ### What a worker does -/

/-- What a worker does that need not wait. -/
inductive Works (camera : Nat → Exposure → Attempt) (w : Worker) : Worker → Prop where
  | take (s : Submission) (rest : List Submission) (hphase : w.phase = .idle) (hqueue : w.queue = s :: rest) :
      Works camera w { w with
        queue := rest
        taken := w.taken + 1
        phase := .applying (w.now + (camera (w.taken + 1) s.exposure).applyMs) (camera (w.taken + 1) s.exposure)
        calls := w.calls ++ [(w.now, .stage s.exposure), (w.now, .apply)] }
  | stop (hphase : w.phase = .idle) (hqueue : w.queue = []) (hclosed : w.isOpen = false) :
      Works camera w { w with phase := .stopped }
  | trigger (deadline : Nat) (attempt : Attempt) (hphase : w.phase = .applying deadline attempt)
      (hdue : deadline ≤ w.now) (happlied : attempt.applyError.isNone) :
      Works camera w
        { w with phase := .triggering (w.now + attempt.triggerMs), calls := w.calls ++ [(w.now, .trigger)] }
  /-- The settings could not be applied. -/
  | skip (deadline : Nat) (attempt : Attempt) (hphase : w.phase = .applying deadline attempt)
      (hdue : deadline ≤ w.now) (hfailed : ¬attempt.applyError.isNone) : Works camera w { w with phase := .idle }
  | release (deadline : Nat) (hphase : w.phase = .triggering deadline) (hdue : deadline ≤ w.now) :
      Works camera w { w with phase := .idle }

/-- Why a worker waits. -/
inductive Waits (w : Worker) : Prop where
  | queue (hphase : w.phase = .idle) (hqueue : w.queue = []) (hopen : w.isOpen)
  | settings (deadline : Nat) (attempt : Attempt) (hphase : w.phase = .applying deadline attempt)
      (hlt : w.now < deadline)
  | picture (deadline : Nat) (hphase : w.phase = .triggering deadline) (hlt : w.now < deadline)
  | stopped (hphase : w.phase = .stopped)

lemma works_of_work? (hwork : w.work? camera = some w') : Works camera w w' := by
  cases hphase : w.phase with
  | idle =>
    simp only [work?, hphase] at hwork
    split at hwork
    case h_1 s rest hqueue =>
      cases hwork
      exact .take s rest hphase hqueue
    case h_2 hqueue =>
      split_ifs at hwork with hopen
      cases hwork
      exact .stop hphase hqueue (Bool.eq_false_iff.mpr hopen)
  | applying deadline attempt =>
    simp only [work?, hphase] at hwork
    split_ifs at hwork with hlt happlied
    · cases hwork
      exact .trigger deadline attempt hphase (Nat.not_lt.mp hlt) happlied
    · cases hwork
      exact .skip deadline attempt hphase (Nat.not_lt.mp hlt) happlied
  | triggering deadline =>
    simp only [work?, hphase] at hwork
    split_ifs at hwork with hlt
    cases hwork
    exact .release deadline hphase (Nat.not_lt.mp hlt)
  | stopped =>
    simp only [work?, hphase] at hwork
    cases hwork

lemma waits_of_work?_eq_none (hwork : w.work? camera = none) : Waits w := by
  cases hphase : w.phase with
  | idle =>
    simp only [work?, hphase] at hwork
    split at hwork
    case h_1 => cases hwork
    case h_2 hqueue =>
      split_ifs at hwork with hopen
      exact .queue hphase hqueue hopen
  | applying deadline attempt =>
    simp only [work?, hphase] at hwork
    split_ifs at hwork with hlt
    exact .settings deadline attempt hphase hlt
  | triggering deadline =>
    simp only [work?, hphase] at hwork
    split_ifs at hwork with hlt
    exact .picture deadline hphase hlt
  | stopped => exact .stopped hphase

/-! ### What a worker has done -/

/-- The calls for captures that are over. -/
def callsOf (camera : Nat → Exposure → Attempt) (past : List Submission) : List (Nat × CameraCall) :=
  (turns camera 1 0 past).flatMap Turn.calls

lemma callsOf_append (camera : Nat → Exposure → Attempt) (past : List Submission) (s : Submission) :
    callsOf camera (past ++ [s]) = callsOf camera past ++ (nextTurn camera past s).calls := by
  rw [callsOf, turns_append_nextTurn, List.flatMap_append, List.flatMap_singleton, callsOf]

/-- The worker is where the turns of the captures that were handed over have it: some of the captures are over, one may
be going on, and the others are in the queue. -/
inductive Follows (camera : Nat → Exposure → Attempt) (subs : List Submission) (w : Worker) : Prop where
  | idle (past : List Submission) (hphase : w.phase = .idle) (hsubs : subs = past ++ w.queue)
      (htaken : w.taken = past.length) (hcalls : w.calls = callsOf camera past) (hqueue : ∀ s ∈ w.queue, s.ms ≤ w.now)
      (hfree : freeAfter camera past ≤ w.now) (hhead : ∀ s ∈ w.queue.head?, max s.ms (freeAfter camera past) = w.now)
  | applying (past : List Submission) (s : Submission)
      (hphase : w.phase = .applying (nextTurn camera past s).applied (nextTurn camera past s).attempt)
      (hsubs : subs = past ++ s :: w.queue) (htaken : w.taken = past.length + 1)
      (hcalls : w.calls = callsOf camera past ++
        [((nextTurn camera past s).start, .stage s.exposure), ((nextTurn camera past s).start, .apply)])
      (hqueue : ∀ s ∈ w.queue, s.ms ≤ w.now) (hnow : w.now ≤ (nextTurn camera past s).applied)
  | triggering (past : List Submission) (s : Submission)
      (hphase : w.phase = .triggering (nextTurn camera past s).finish) (hsubs : subs = past ++ s :: w.queue)
      (htaken : w.taken = past.length + 1) (hcalls : w.calls = callsOf camera (past ++ [s]))
      (hqueue : ∀ s ∈ w.queue, s.ms ≤ w.now) (hnow : w.now ≤ (nextTurn camera past s).finish)
  | stopped (hphase : w.phase = .stopped) (hcalls : w.calls = callsOf camera subs) (hopen : w.isOpen = false)
      (hqueue : w.queue = [])

lemma follows_nil : Follows camera [] {} :=
  .idle [] rfl rfl rfl rfl (List.forall_mem_nil _) (Nat.le_refl _) fun _ hs => by cases hs

lemma Follows.submit (h : Follows camera subs w) (exposure : Exposure) (hopen : w.isOpen) :
    Follows camera (subs ++ [⟨w.now, exposure⟩]) { w with queue := w.queue ++ [⟨w.now, exposure⟩] } := by
  have hlast : ∀ queue : List Submission, (∀ s ∈ queue, s.ms ≤ w.now) →
      ∀ s ∈ queue ++ [⟨w.now, exposure⟩], s.ms ≤ w.now := by
    intro queue hqueue s hs
    rcases List.mem_append.mp hs with hs | hs
    · exact hqueue s hs
    · rw [List.mem_singleton.mp hs]
  cases h with
  | idle past hphase hsubs htaken hcalls hqueue hfree hhead =>
    refine .idle past hphase ?_ htaken hcalls (hlast _ hqueue) hfree ?_
    · rw [hsubs, List.append_assoc]
    · intro s hs
      by_cases hnil : w.queue = []
      · simp only [hnil, List.nil_append, List.head?_cons, Option.mem_some_iff] at hs
        subst hs
        exact Nat.max_eq_left hfree
      · rw [List.head?_append_of_ne_nil _ hnil] at hs
        exact hhead s hs
  | applying past s hphase hsubs htaken hcalls hqueue hnow =>
    refine .applying past s hphase ?_ htaken hcalls (hlast _ hqueue) hnow
    rw [hsubs, List.append_assoc, List.cons_append]
  | triggering past s hphase hsubs htaken hcalls hqueue hnow =>
    refine .triggering past s hphase ?_ htaken hcalls (hlast _ hqueue) hnow
    rw [hsubs, List.append_assoc, List.cons_append]
  | stopped hphase hcalls hclosed hqueue => cases hopen.symm.trans hclosed

lemma Follows.shutDown (h : Follows camera subs w) : Follows camera subs { w with isOpen := false } := by
  cases h with
  | idle past hphase hsubs htaken hcalls hqueue hfree hhead =>
    exact .idle past hphase hsubs htaken hcalls hqueue hfree hhead
  | applying past s hphase hsubs htaken hcalls hqueue hnow =>
    exact .applying past s hphase hsubs htaken hcalls hqueue hnow
  | triggering past s hphase hsubs htaken hcalls hqueue hnow =>
    exact .triggering past s hphase hsubs htaken hcalls hqueue hnow
  | stopped hphase hcalls hclosed hqueue => exact .stopped hphase hcalls rfl hqueue

/-- A turn that is over leaves the worker at the queue. -/
lemma Follows.release {s : Submission} (hsubs : subs = past ++ s :: w.queue)
    (htaken : w.taken = past.length + 1) (hcalls : w.calls = callsOf camera (past ++ [s]))
    (hqueue : ∀ s ∈ w.queue, s.ms ≤ w.now) (hnow : w.now = (nextTurn camera past s).finish) :
    Follows camera subs { w with phase := .idle } := by
  have hfree : freeAfter camera (past ++ [s]) = w.now := by rw [freeAfter_append, hnow]
  refine .idle (past ++ [s]) rfl ?_ ?_ hcalls hqueue (Nat.le_of_eq hfree) ?_
  · rw [hsubs, List.append_assoc, List.cons_append, List.nil_append]
  · rw [htaken, List.length_append, List.length_singleton]
  · intro s' hs'
    rw [hfree]
    exact Nat.max_eq_right (hqueue s' (List.mem_of_mem_head? hs'))

lemma Follows.work (h : Follows camera subs w) (hworks : Works camera w w') : Follows camera subs w' := by
  cases h with
  | idle past hphase hsubs htaken hcalls hqueue hfree hhead =>
    cases hworks with
    | take s rest _ hq =>
      have hstart : (nextTurn camera past s).start = w.now := hhead s (by rw [hq]; rfl)
      have hattempt : (nextTurn camera past s).attempt = camera (w.taken + 1) s.exposure := by rw [htaken, nextTurn]
      have happlied : (nextTurn camera past s).applied = w.now + (camera (w.taken + 1) s.exposure).applyMs := by
        rw [Turn.applied, hstart, hattempt]
      refine .applying past s ?_ (hq ▸ hsubs) (congrArg (· + 1) htaken) ?_ ?_ ?_
      · rw [happlied, hattempt]
      · rw [hcalls, hstart]
      · exact fun s' hs' => hqueue s' (hq ▸ List.mem_cons_of_mem _ hs')
      · rw [happlied]
        exact Nat.le_add_right _ _
    | stop _ hq hclosed =>
      rw [hq, List.append_nil] at hsubs
      exact .stopped rfl (hsubs ▸ hcalls) hclosed hq
    | trigger _ _ hphase' | skip _ _ hphase' | release _ hphase' => cases hphase.symm.trans hphase'
  | applying past s hphase hsubs htaken hcalls hqueue hnow =>
    cases hworks with
    | trigger deadline attempt hphase' hdue happlied =>
      cases hphase.symm.trans hphase'
      have hnow' : w.now = (nextTurn camera past s).applied := Nat.le_antisymm hnow hdue
      have hfinish : (nextTurn camera past s).finish = w.now + (nextTurn camera past s).attempt.triggerMs := by
        rw [Turn.finish, if_pos happlied, hnow']
      refine .triggering past s ?_ hsubs htaken ?_ hqueue ?_
      · rw [hfinish]
      · rw [callsOf_append, hcalls, Turn.calls, if_pos happlied, hnow', List.append_assoc]
        rfl
      · rw [hfinish]
        exact Nat.le_add_right _ _
    | skip deadline attempt hphase' hdue hfailed =>
      cases hphase.symm.trans hphase'
      refine .release hsubs htaken ?_ hqueue ?_
      · rw [callsOf_append, hcalls, Turn.calls, if_neg hfailed, List.append_nil]
        rfl
      · rw [Turn.finish, if_neg hfailed]
        exact Nat.le_antisymm hnow hdue
    | take _ _ hphase' | stop hphase' | release _ hphase' => cases hphase.symm.trans hphase'
  | triggering past s hphase hsubs htaken hcalls hqueue hnow =>
    cases hworks with
    | release deadline hphase' hdue =>
      cases hphase.symm.trans hphase'
      exact .release hsubs htaken hcalls hqueue (Nat.le_antisymm hnow hdue)
    | take _ _ hphase' | stop hphase' | trigger _ _ hphase' | skip _ _ hphase' => cases hphase.symm.trans hphase'
  | stopped hphase =>
    cases hworks with
    | take _ _ hphase' | stop hphase' | trigger _ _ hphase' | skip _ _ hphase' | release _ hphase' =>
      cases hphase.symm.trans hphase'

/-- Time passes only while the worker waits, so that it misses nothing. -/
lemma Follows.wait (h : Follows camera subs w) (hwaits : Waits w) :
    Follows camera subs { w with now := w.now + 1 } := by
  have hlater : ∀ s ∈ w.queue, s.ms ≤ w.now → s.ms ≤ w.now + 1 := fun _ _ => Nat.le_succ_of_le
  cases h with
  | idle past hphase hsubs htaken hcalls hqueue hfree hhead =>
    cases hwaits with
    | queue _ hnil =>
      refine .idle past hphase hsubs htaken hcalls (fun s hs => hlater s hs (hqueue s hs)) (Nat.le_succ_of_le hfree) ?_
      rw [hnil]
      exact fun _ hs => by cases hs
    | settings _ _ hphase' | picture _ hphase' | stopped hphase' => cases hphase.symm.trans hphase'
  | applying past s hphase hsubs htaken hcalls hqueue hnow =>
    cases hwaits with
    | settings deadline attempt hphase' hlt =>
      cases hphase.symm.trans hphase'
      exact .applying past s hphase hsubs htaken hcalls (fun s hs => hlater s hs (hqueue s hs)) hlt
    | queue hphase' | picture _ hphase' | stopped hphase' => cases hphase.symm.trans hphase'
  | triggering past s hphase hsubs htaken hcalls hqueue hnow =>
    cases hwaits with
    | picture deadline hphase' hlt =>
      cases hphase.symm.trans hphase'
      exact .triggering past s hphase hsubs htaken hcalls (fun s hs => hlater s hs (hqueue s hs)) hlt
    | queue hphase' | settings _ _ hphase' | stopped hphase' => cases hphase.symm.trans hphase'
  | stopped hphase hcalls hclosed hqueue => exact .stopped hphase hcalls hclosed hqueue

/-- The calls so far are the first ones of the turns. -/
lemma Follows.prefix_calls (h : Follows camera subs w) : w.calls <+: callsOf camera subs := by
  have hmore : ∀ past more : List Submission, callsOf camera past <+: callsOf camera (past ++ more) := by
    intro past more
    obtain ⟨ts, hts⟩ := turns_prefix camera 1 0 past more
    rw [callsOf, callsOf, ← hts, List.flatMap_append]
    exact List.prefix_append _ _
  cases h with
  | idle past hphase hsubs htaken hcalls =>
    rw [hcalls, hsubs]
    exact hmore past w.queue
  | applying past s hphase hsubs htaken hcalls =>
    have hturn : w.calls <+: callsOf camera (past ++ [s]) := by
      rw [hcalls, callsOf_append, List.prefix_append_right_inj, Turn.calls]
      exact List.prefix_append _ _
    rw [hsubs, List.append_cons]
    exact hturn.trans (hmore _ _)
  | triggering past s hphase hsubs htaken hcalls =>
    rw [hsubs, List.append_cons, hcalls]
    exact hmore _ _
  | stopped hphase hcalls => exact hcalls ▸ List.prefix_rfl

/-- A worker stops with a closed queue, when all calls are made. -/
lemma Follows.of_stopped (h : Follows camera subs w) (hphase : w.phase = .stopped) :
    w.calls = callsOf camera subs ∧ w.isOpen = false := by
  cases h with
  | stopped _ hcalls hclosed => exact ⟨hcalls, hclosed⟩
  | idle _ hphase' | applying _ _ hphase' | triggering _ _ hphase' => cases hphase.symm.trans hphase'

/-! ### Runs -/

/-- Its own work takes a worker no time and leaves the queue open or closed. -/
lemma frame_work (hwork : w.work? camera = some w') : w'.now = w.now ∧ w'.isOpen = w.isOpen := by
  cases works_of_work? hwork with
  | take | stop | trigger | skip | release => exact ⟨rfl, rfl⟩

/-- Whatever happens, the worker keeps in step with the captures that are handed over. -/
lemma Follows.step (h : Follows camera subs w) (hstep : w.step camera event = some w') :
    Follows camera (subs ++ submissions w.now [event]) w' := by
  cases event with
  | submit exposure =>
    simp only [Worker.step] at hstep
    split_ifs at hstep with hopen
    cases hstep
    exact h.submit exposure hopen
  | shutDown =>
    simp only [Worker.step] at hstep
    split_ifs at hstep
    cases hstep
    rw [submissions, submissions, List.append_nil]
    exact h.shutDown
  | work =>
    rw [submissions, submissions, List.append_nil]
    exact h.work (works_of_work? hstep)
  | wait =>
    simp only [Worker.step] at hstep
    split_ifs at hstep with hwork
    cases hstep
    rw [submissions, submissions, List.append_nil]
    exact h.wait (waits_of_work?_eq_none (Option.isNone_iff_eq_none.mp hwork))

lemma submissions_cons (hstep : w.step camera event = some w') (events : List Event) :
    submissions w.now (event :: events) = submissions w.now [event] ++ submissions w'.now events := by
  cases event with
  | submit exposure =>
    simp only [Worker.step] at hstep
    split_ifs at hstep
    cases hstep
    rfl
  | shutDown =>
    simp only [Worker.step] at hstep
    split_ifs at hstep
    cases hstep
    rfl
  | work =>
    rw [(frame_work hstep).1]
    rfl
  | wait =>
    simp only [Worker.step] at hstep
    split_ifs at hstep
    cases hstep
    rfl

lemma run_cons_eq_some {events : List Event} :
    w.run camera (event :: events) = some w' ↔ ∃ v, w.step camera event = some v ∧ v.run camera events = some w' := by
  rw [Worker.run, List.foldlM_cons]
  exact Option.bind_eq_some_iff

lemma Follows.run {events : List Event} (h : Follows camera subs w) (hrun : w.run camera events = some w') :
    Follows camera (subs ++ submissions w.now events) w' := by
  induction events generalizing subs w with
  | nil =>
    cases hrun
    rwa [submissions, List.append_nil]
  | cons event events ih =>
    obtain ⟨v, hstep, hrest⟩ := run_cons_eq_some.mp hrun
    rw [submissions_cons hstep, ← List.append_assoc]
    exact ih (h.step hstep) hrest

/-! ### Coming to an end -/

/-- A worker can always go on or wait. -/
lemma exists_step (camera : Nat → Exposure → Attempt) (w : Worker) :
    (w.step camera .work).isSome ∨ (w.step camera .wait).isSome := by
  cases hwork : w.work? camera with
  | none =>
    right
    simp [step, hwork]
  | some w' =>
    left
    simp [step, hwork]

/-- The steps that captures in the queue take, the first of which is the `n`-th. -/
def workload (camera : Nat → Exposure → Attempt) : Nat → List Submission → Nat
  | _, [] => 0
  | n, s :: rest =>
    (camera n s.exposure).applyMs + (camera n s.exposure).triggerMs + 3 + workload camera (n + 1) rest

/-- The steps that are left to a worker with a queue that is closed. -/
def left (camera : Nat → Exposure → Attempt) (w : Worker) : Nat :=
  match w.phase with
  | .idle => 1 + workload camera (w.taken + 1) w.queue
  | .applying deadline attempt =>
    (deadline - w.now) + attempt.triggerMs + 3 + workload camera (w.taken + 1) w.queue
  | .triggering deadline => (deadline - w.now) + 2 + workload camera (w.taken + 1) w.queue
  | .stopped => 0

lemma stopped_of_left_eq_zero (h : w.left camera = 0) : w.phase = .stopped := by
  rw [left] at h
  split at h
  · omega
  · omega
  · omega
  · assumption

lemma left_work (hwork : w.work? camera = some w') : w'.left camera < w.left camera := by
  cases works_of_work? hwork with
  | take s rest hphase hqueue =>
    simp only [left, hphase, hqueue, workload]
    omega
  | stop hphase | trigger _ _ hphase | skip _ _ hphase | release _ hphase =>
    simp only [left, hphase]
    omega

/-- With a closed queue, every step brings the worker closer to its end. -/
lemma left_step (hclosed : w.isOpen = false) (hstep : w.step camera event = some w') :
    w'.isOpen = false ∧ w'.left camera ≤ w.left camera - 1 := by
  cases event with
  | submit exposure => simp [step, hclosed] at hstep
  | shutDown => simp [step, hclosed] at hstep
  | work => exact ⟨(frame_work hstep).2.trans hclosed, Nat.le_pred_of_lt (left_work hstep)⟩
  | wait =>
    simp only [step] at hstep
    split_ifs at hstep with hwork
    cases hstep
    refine ⟨hclosed, ?_⟩
    cases waits_of_work?_eq_none (Option.isNone_iff_eq_none.mp hwork) with
    | queue _ _ hopen => exact absurd hopen (Bool.eq_false_iff.mp hclosed)
    | settings _ _ hphase hlt | picture _ hphase hlt =>
      simp only [left, hphase]
      omega
    | stopped hphase =>
      simp only [left, hphase]
      omega

lemma submissions_of_closed {events : List Event} (hclosed : w.isOpen = false) (hrun : w.run camera events = some w') :
    submissions w.now events = [] := by
  induction events generalizing w with
  | nil => rfl
  | cons event events ih =>
    obtain ⟨v, hstep, hrest⟩ := run_cons_eq_some.mp hrun
    rw [submissions_cons hstep, ih (left_step hclosed hstep).1 hrest, List.append_nil]
    cases event with
    | submit exposure => simp [step, hclosed] at hstep
    | _ => rfl

/-- A worker with a closed queue comes to its end, however it gets there. -/
lemma stopped_of_left_le {events : List Event} (hclosed : w.isOpen = false) (hrun : w.run camera events = some w')
    (hleft : w.left camera ≤ events.length) : w'.phase = .stopped := by
  induction events generalizing w with
  | nil =>
    cases hrun
    exact stopped_of_left_eq_zero (Nat.le_zero.mp hleft)
  | cons event events ih =>
    obtain ⟨v, hstep, hrest⟩ := run_cons_eq_some.mp hrun
    obtain ⟨hv, hless⟩ := left_step hclosed hstep
    exact ih hv hrest (hless.trans (Nat.sub_le_of_le_add hleft))

/-! ### All times of submission -/

lemma run_append {events events' : List Event} {v : Worker} (h : w.run camera events = some v)
    (h' : v.run camera events' = some w') : w.run camera (events ++ events') = some w' := by
  rw [run, List.foldlM_append]
  exact Option.bind_eq_some_iff.mpr ⟨v, h, h'⟩

lemma submissions_append {events : List Event} (events' : List Event) (h : w.run camera events = some w') :
    submissions w.now (events ++ events') = submissions w.now events ++ submissions w'.now events' := by
  induction events generalizing w with
  | nil =>
    cases h
    rfl
  | cons event events ih =>
    obtain ⟨v, hstep, hrest⟩ := run_cons_eq_some.mp h
    rw [List.cons_append, submissions_cons hstep (events ++ events'), submissions_cons hstep events, ih hrest,
      List.append_assoc]

/-- A worker comes to rest without the passing of time. -/
lemma exists_rest (camera : Nat → Exposure → Attempt) (w : Worker) :
    ∃ events w', w.run camera events = some w' ∧ w'.work? camera = none ∧ w'.now = w.now ∧ w'.isOpen = w.isOpen ∧
      submissions w.now events = [] := by
  induction hn : w.left camera using Nat.strongRecOn generalizing w with
  | ind n ih =>
    cases hwork : w.work? camera with
    | none => exact ⟨[], w, rfl, hwork, rfl, rfl, rfl⟩
    | some v =>
      obtain ⟨events, w', hrun, hrest, hnow, hopen, hsubs⟩ := ih _ (hn ▸ left_work hwork) v rfl
      refine ⟨.work :: events, w', run_cons_eq_some.mpr ⟨v, hwork, hrun⟩, hrest, ?_, ?_, ?_⟩
      · rw [hnow, (frame_work hwork).1]
      · rw [hopen, (frame_work hwork).2]
      · rwa [submissions, ← (frame_work hwork).1]

/-- Time passes, whatever the worker is doing. -/
lemma exists_run_until (camera : Nat → Exposure → Attempt) (w : Worker) {ms : Nat} (h : w.now ≤ ms) :
    ∃ events w', w.run camera events = some w' ∧ w'.now = ms ∧ w'.isOpen = w.isOpen ∧
      submissions w.now events = [] := by
  induction ms, h using Nat.le_induction with
  | base => exact ⟨[], w, rfl, rfl, rfl, rfl⟩
  | succ ms _ ih =>
    obtain ⟨events, v, hrun, hnow, hopen, hsubs⟩ := ih
    obtain ⟨events', v', hrun', hrest, hnow', hopen', hsubs'⟩ := exists_rest camera v
    have hwait : v'.run camera [.wait] = some { v' with now := v'.now + 1 } := by
      simp [run, step, hrest]
    refine ⟨events ++ (events' ++ [.wait]), _, run_append hrun (run_append hrun' hwait), ?_, ?_, ?_⟩
    · rw [hnow', hnow]
    · rw [hopen', hopen]
    · rw [submissions_append _ hrun, submissions_append _ hrun', hsubs, hsubs']
      rfl

/-- Captures can be handed over at any times, to a camera that acts in any way. -/
theorem exists_run_submissions (camera : Nat → Exposure → Attempt) (subs : List Submission)
    (h : subs.Pairwise fun s s' => s.ms ≤ s'.ms) :
    ∃ events w, run camera {} events = some w ∧ submissions 0 events = subs ∧ w.isOpen = true := by
  have hgeneral : ∀ w : Worker, w.isOpen → (∀ s ∈ subs, w.now ≤ s.ms) →
      ∃ events w', w.run camera events = some w' ∧ submissions w.now events = subs ∧ w'.isOpen = true := by
    induction h with
    | nil => exact fun w hopen _ => ⟨[], w, rfl, rfl, hopen⟩
    | @cons s subs hs _ ih =>
      intro w hopen hnow
      obtain ⟨events, v, hrun, hms, hv, hsubs⟩ := exists_run_until camera w (hnow s List.mem_cons_self)
      have hsubmit : v.run camera [.submit s.exposure] = some { v with queue := v.queue ++ [⟨v.now, s.exposure⟩] } := by
        simp [run, step, hv, hopen]
      obtain ⟨events', w', hrun', hsubs', hopen'⟩ := ih { v with queue := v.queue ++ [⟨v.now, s.exposure⟩] }
        (hv.trans hopen) (fun s' hs' => hms ▸ hs s' hs')
      refine ⟨events ++ ([.submit s.exposure] ++ events'), w', run_append hrun (run_append hsubmit hrun'), ?_, hopen'⟩
      rw [submissions_append _ hrun, hsubs, submissions_append _ hsubmit, hsubs']
      rw [submissions, submissions, hms]
      rfl
  exact hgeneral {} rfl fun _ _ => Nat.zero_le _

/-- The calls of a worker are those of the camera's turns, so far as it has come. The turns serve the captures that were
handed over one after another: every one once and in order, with calls that bear its own exposure, no sooner than the
one before it is over. What becomes of one capture has no bearing on the calls for another. After the queue is closed,
the worker makes all calls and comes to its end. -/
theorem calls_run {events : List Event} (h : run camera {} events = some w) :
    Serial camera (submissions 0 events) (turns camera 1 0 (submissions 0 events)) ∧
    w.calls <+: (turns camera 1 0 (submissions 0 events)).flatMap Turn.calls ∧
    (w.phase = .stopped → w.calls = (turns camera 1 0 (submissions 0 events)).flatMap Turn.calls) ∧
    (w.isOpen = false → ∃ n, ∀ more w', w.run camera more = some w' → submissions w.now more = [] ∧
      ((w'.step camera .work).isSome ∨ (w'.step camera .wait).isSome) ∧
      (n ≤ more.length → w'.phase = .stopped)) ∧
    ∀ (camera' : Nat → Exposure → Attempt) (i : Nat), camera (i + 1) = camera' (i + 1) →
      ((turns camera 1 0 (submissions 0 events)).map fun t => t.calls.map Prod.snd)[i]? =
        ((turns camera' 1 0 (submissions 0 events)).map fun t => t.calls.map Prod.snd)[i]? := by
  have hfollows : Follows camera (submissions 0 events) w := follows_nil.run h
  refine ⟨serial_turns _ _, hfollows.prefix_calls, fun hphase => (hfollows.of_stopped hphase).1, ?_, ?_⟩
  · intro hclosed
    refine ⟨w.left camera, fun more w' hrun => ⟨submissions_of_closed hclosed hrun, exists_step camera w', ?_⟩⟩
    exact stopped_of_left_le hclosed hrun
  · intro camera' i hi
    exact (serial_turns camera _).calls_congr (serial_turns camera' _) hi

/-- A camera that fails to apply the settings of its first capture, and is not done with the second in time. -/
def balky : Nat → Exposure → Attempt
  | 1, _ => ⟨2, some (.commandFailed "busy"), 0, none⟩
  | _, _ => ⟨1, none, 3, some (.timeout 3)⟩

/-- Two captures, the second handed over while the first is going on. -/
def twoCaptures : List Event :=
  [.submit ⟨.one, .one, 100⟩, .work, .wait, .submit ⟨.one, .one, 200⟩, .shutDown, .wait, .work, .work, .wait, .work,
    .wait, .wait, .wait, .work, .work]

theorem calls_twoCaptures :
    ∃ w, run balky {} twoCaptures = some w ∧ w.phase = .stopped ∧ w.calls =
      [(0, .stage ⟨.one, .one, 100⟩), (0, .apply), (2, .stage ⟨.one, .one, 200⟩), (2, .apply), (3, .trigger)] := by
  refine ⟨_, rfl, rfl, ?_⟩
  exact (calls_run (rfl : run balky {} twoCaptures = some _)).2.2.1 rfl

end Worker

end Totality
