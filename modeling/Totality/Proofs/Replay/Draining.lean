import Mathlib.Data.List.Perm.Basic
import Totality.Proofs.Replay.Worker

/-!
# Draining a station

The camera of a station belongs to its worker, and every sound plays on its own. Draining closes the queue of the worker
and waits until it has stopped. Only then it waits for the sounds, one after another. All the while it gives up when its
time is over. Whatever can be done is done at once, in any order, and time passes only while everybody waits. Draining
ends at the millisecond that the station says, and cuts off exactly the sounds that would have ended later.
-/

namespace Totality

/-! ### When everything has ended -/

lemma foldl_max_le_iff {ns : List Nat} {n k : Nat} : ns.foldl max n ≤ k ↔ n ≤ k ∧ ∀ m ∈ ns, m ≤ k := by
  induction ns generalizing n with
  | nil => simp
  | cons m ns ih => rw [List.foldl_cons, ih, Nat.max_le, List.forall_mem_cons, and_assoc]

/-- A camera is free when the last of its turns is over, and so are all the others then. -/
lemma freeAfter_le_iff {camera : Nat → Exposure → Attempt} {subs : List Submission} {k : Nat} :
    freeAfter camera subs ≤ k ↔ ∀ t ∈ turns camera 1 0 subs, t.finish ≤ k := by
  induction subs using List.reverseRecOn generalizing k with
  | nil => exact iff_of_true (Nat.zero_le k) (List.forall_mem_nil _)
  | append_singleton past s ih =>
    rw [freeAfter_append, turns_append_nextTurn, List.forall_mem_append, List.forall_mem_singleton, ← ih]
    refine ⟨fun h => ⟨?_, h⟩, And.right⟩
    calc
      freeAfter camera past ≤ (nextTurn camera past s).start := Nat.le_max_right _ _
      _ ≤ (nextTurn camera past s).finish := Turn.start_le_finish _
      _ ≤ k := h

namespace Station

variable {st : Station}

/-- How the camera of a station acts; without a camera there is nothing to act on. -/
def attempts (st : Station) : Nat → Exposure → Attempt := st.camera.getD fun _ _ => ⟨0, none, 0, none⟩

/-- Captures are handed over only to a camera. -/
def Equipped (st : Station) : Prop := st.camera = none → st.submissions = []

lemma Equipped.cameraTurns_eq (h : st.Equipped) : st.cameraTurns = turns st.attempts 1 0 st.submissions := by
  rw [cameraTurns, attempts]
  cases hcamera : st.camera with
  | none =>
    rw [h hcamera]
    rfl
  | some camera => rfl

lemma finish_le_iff (h : st.Equipped) {now k : Nat} :
    st.finish now ≤ k ↔ now ≤ k ∧ freeAfter st.attempts st.submissions ≤ k ∧ ∀ s ∈ st.sounds, s.finish ≤ k := by
  rw [finish, foldl_max_le_iff, List.forall_mem_append, List.forall_mem_map, List.forall_mem_map, h.cameraTurns_eq,
    freeAfter_le_iff]

/-- What a dispatch adds to a station. -/
structure Adds (st : Station) (ms : Nat) (captures : List Submission) (plays : List Sound) (st' : Station) : Prop where
  camera : st'.camera = st.camera
  submissions : st'.submissions = st.submissions ++ captures
  sounds : st'.sounds = st.sounds ++ plays
  captured : captures = [] ∨ st.camera.isSome ∧ ∃ exposure, captures = [⟨ms, exposure⟩]
  played : ∀ s ∈ plays, s.ms = ms

lemma exists_adds (st : Station) (ms : Nat) (task : Task) :
    ∃ captures plays, st.Adds ms captures plays (st.dispatch ms task) := by
  cases task with
  | capture exposure =>
    cases hcamera : st.camera with
    | none =>
      refine ⟨[], [], ?_⟩
      constructor <;> simp [dispatch, hcamera]
    | some camera =>
      refine ⟨[⟨ms, exposure⟩], [], ?_⟩
      constructor <;> simp [dispatch, hcamera]
  | play file =>
    cases hplayer : st.player with
    | none =>
      refine ⟨[], [], ?_⟩
      constructor <;> simp [dispatch, hplayer]
    | some player =>
      let path := String.ofList (PathName.join player.directory.toList file.toList)
      let outcome := player.plays (st.sounds.length + 1) path
      refine ⟨[], [⟨ms, path, outcome.1, outcome.2⟩], ?_⟩
      constructor <;> simp [dispatch, hplayer, path, outcome]

/-- A station after tasks were handed over to it at their milliseconds. -/
def dispatches (st : Station) (tasks : List (Nat × Task)) : Station := tasks.foldl (fun st p => st.dispatch p.1 p.2) st

/-- Nothing ends exactly at a millisecond. -/
structure Clear (st : Station) (ms : Nat) : Prop where
  turns : ∀ t ∈ st.cameraTurns, t.finish ≠ ms
  sounds : ∀ s ∈ st.sounds, s.finish ≠ ms

end Station

namespace Worker

variable {camera : Nat → Exposure → Attempt} {subs : List Submission} {w w' : Worker}

/-- A worker stops when its camera is free. -/
lemma Follows.freeAfter_le_of_stops (h : Follows camera subs w) (hworks : Works camera w w')
    (hstopped : w'.phase = .stopped) : freeAfter camera subs ≤ w.now := by
  cases hworks with
  | stop hphase hqueue =>
    cases h with
    | idle past _ hsubs _ _ _ hfree =>
      rw [hqueue, List.append_nil] at hsubs
      exact hsubs ▸ hfree
    | applying _ _ hphase' | triggering _ _ hphase' | stopped hphase' => cases hphase.symm.trans hphase'
  | take | trigger | skip | release => cases hstopped

lemma nextTurn_mem_turns (past : List Submission) (s : Submission) (queue : List Submission) :
    nextTurn camera past s ∈ turns camera 1 0 (past ++ s :: queue) := by
  obtain ⟨more, hmore⟩ := turns_prefix camera 1 0 (past ++ [s]) queue
  rw [List.append_cons, ← hmore, turns_append_nextTurn]
  exact List.mem_append_left _ (List.mem_append_right _ (List.mem_singleton_self _))

/-- The turn that is going on ends no later than the camera is free. -/
lemma finish_nextTurn_le_freeAfter (past : List Submission) (s : Submission) (queue : List Submission) :
    (nextTurn camera past s).finish ≤ freeAfter camera (past ++ s :: queue) :=
  freeAfter_le_iff.mp (Nat.le_refl _) _ (nextTurn_mem_turns past s queue)

/-- With a closed queue the worker waits only for its camera. -/
lemma Follows.lt_freeAfter_of_waits (h : Follows camera subs w) (hclosed : w.isOpen = false)
    (hphase : w.phase ≠ .stopped) (hwaits : Waits w) : w.now < freeAfter camera subs := by
  cases hwaits with
  | queue _ _ hopen => exact absurd hopen (Bool.eq_false_iff.mp hclosed)
  | settings deadline attempt hphase' hlt =>
    cases h with
    | applying past s hphase'' hsubs =>
      cases hphase'.symm.trans hphase''
      calc
        w.now < (nextTurn camera past s).applied := hlt
        _ ≤ (nextTurn camera past s).finish := Turn.applied_le_finish _
        _ ≤ freeAfter camera subs := hsubs ▸ finish_nextTurn_le_freeAfter past s w.queue
    | idle _ hphase'' | triggering _ _ hphase'' | stopped hphase'' => cases hphase'.symm.trans hphase''
  | picture deadline hphase' hlt =>
    cases h with
    | triggering past s hphase'' hsubs =>
      cases hphase'.symm.trans hphase''
      calc
        w.now < (nextTurn camera past s).finish := hlt
        _ ≤ freeAfter camera subs := hsubs ▸ finish_nextTurn_le_freeAfter past s w.queue
    | idle _ hphase'' | applying _ _ hphase'' | stopped hphase'' => cases hphase'.symm.trans hphase''
  | stopped hphase' => exact absurd hphase' hphase

/-- When all turns have been over for a while, all calls are made. -/
lemma Follows.calls_of_past (h : Follows camera subs w) (hpast : ∀ t ∈ turns camera 1 0 subs, t.finish < w.now) :
    w.calls = callsOf camera subs := by
  cases h with
  | idle past hphase hsubs htaken hcalls hqueue hfree hhead =>
    cases hq : w.queue with
    | nil =>
      rw [hsubs, hq, List.append_nil]
      exact hcalls
    | cons s rest =>
      -- the turn of the capture would begin right now
      have hstart : (nextTurn camera past s).start = w.now := hhead s (by rw [hq]; rfl)
      have hle := Turn.start_le_finish (nextTurn camera past s)
      rw [hsubs, hq] at hpast
      have := hpast _ (nextTurn_mem_turns past s rest)
      omega
  | applying past s hphase hsubs htaken hcalls hqueue hnow =>
    have hle := Turn.applied_le_finish (nextTurn camera past s)
    rw [hsubs] at hpast
    have := hpast _ (nextTurn_mem_turns past s w.queue)
    omega
  | triggering past s hphase hsubs htaken hcalls hqueue hnow =>
    rw [hsubs] at hpast
    have := hpast _ (nextTurn_mem_turns past s w.queue)
    omega
  | stopped hphase hcalls => exact hcalls

end Worker

/-! ### The desk -/

/-- What the desk is about that hands over and drains. -/
inductive Stage where
  | handing
  /-- Draining that began at a millisecond and may take a grace waits for the camera. -/
  | forCamera (began grace : Nat)
  | forSounds (began grace : Nat)
  | finished (began grace : Nat)
  deriving DecidableEq

/-- When draining began that is going on, and the grace it may take. -/
def Stage.draining? : Stage → Option (Nat × Nat)
  | .forCamera began grace | .forSounds began grace => some (began, grace)
  | _ => none

lemma Stage.cases_of_draining? {stage : Stage} {began grace : Nat} (h : stage.draining? = some (began, grace)) :
    stage = .forCamera began grace ∨ stage = .forSounds began grace := by
  cases stage with
  | handing => cases h
  | forCamera began' grace' =>
    cases h
    exact Or.inl rfl
  | forSounds began' grace' =>
    cases h
    exact Or.inr rfl
  | finished began' grace' => cases h

/-- A station in the course of time. -/
structure Desk where
  station : Station
  worker : Worker := {}
  playing : List Sound := []
  /-- The sounds that have ended, with their milliseconds. -/
  ended : List (Nat × Sound) := []
  /-- How many of them nobody has noticed. -/
  unnoticed : Nat := 0
  stage : Stage := .handing

namespace Desk

inductive Event where
  /-- A task is handed over. -/
  | hand (task : Task)
  | drain (grace : Nat)
  /-- The worker goes on. -/
  | work
  /-- One of the sounds ends. -/
  | ring (i : Nat)
  /-- Draining goes on. -/
  | proceed
  | giveUp
  /-- A millisecond passes. -/
  | wait

variable {d d' : Desk} {event : Event}

def now (d : Desk) : Nat := d.worker.now

/-- Hand over a task: what the dispatch adds to the station goes to the queue of the worker and begins to play. The
sounds that have ended are noticed. -/
def hand (d : Desk) (task : Task) : Desk :=
  let station := d.station.dispatch d.now task
  { d with
    station
    worker := { d.worker with queue := d.worker.queue ++ station.submissions.drop d.station.submissions.length }
    playing := d.playing ++ station.sounds.drop d.station.sounds.length
    unnoticed := 0 }

/-- Begin to drain: the queue of the worker is closed. -/
def drain (d : Desk) (grace : Nat) : Desk :=
  { d with worker := { d.worker with isOpen := false }, stage := .forCamera d.now grace }

/-- The worker does what it can do. -/
def work? (d : Desk) : Option Desk := (d.worker.work? d.station.attempts).map fun worker => { d with worker }

/-- One of the sounds that play ends. -/
def fallSilent (d : Desk) (i : Nat) (s : Sound) : Desk :=
  { d with
    playing := d.playing.eraseIdx i
    ended := d.ended ++ [(d.now, s)]
    unnoticed := d.unnoticed + 1 }

def ring? (d : Desk) (i : Nat) : Option Desk :=
  match d.playing[i]? with
  | some s => if s.finish ≤ d.now then some (d.fallSilent i s) else none
  | none => none

/-- Draining goes on to the sounds when the worker has stopped. It notices one of those that have ended after another,
and is over when there are no more. -/
def proceed? (d : Desk) : Option Desk :=
  match d.stage with
  | .forCamera began grace =>
    match d.worker.phase with
    | .stopped => some { d with stage := .forSounds began grace }
    | _ => none
  | .forSounds began grace =>
    if 0 < d.unnoticed then some { d with unnoticed := d.unnoticed - 1 }
    else if d.playing.isEmpty then some { d with stage := .finished began grace }
    else none
  | _ => none

def giveUp? (d : Desk) : Option Desk :=
  match d.stage.draining? with
  | some (began, grace) => if began + grace ≤ d.now then some { d with stage := .finished began grace } else none
  | none => none

/-- Everybody waits. -/
def waits (d : Desk) : Bool :=
  d.work?.isNone && (d.playing.all fun s => decide (d.now < s.finish)) && d.proceed?.isNone && d.giveUp?.isNone

/-- A millisecond passes. -/
def tick (d : Desk) : Desk := { d with worker := { d.worker with now := d.worker.now + 1 } }

def isFinished (d : Desk) : Bool :=
  match d.stage with
  | .finished .. => true
  | _ => false

def step (d : Desk) (event : Event) : Option Desk :=
  if d.isFinished then none
  else match event with
    | .hand task => if d.stage = .handing then some (d.hand task) else none
    | .drain grace => if d.stage = .handing then some (d.drain grace) else none
    | .work => d.work?
    | .ring i => d.ring? i
    | .proceed => d.proceed?
    | .giveUp => d.giveUp?
    | .wait => if d.waits then some d.tick else none

/-- The desk after some events, if they can happen. -/
def run (d : Desk) (events : List Event) : Option Desk := events.foldlM step d

/-! ### What holds in the course of time -/

/-- Draining has begun and is within its time, and not everything had ended before this millisecond. -/
structure Drains (station : Station) (worker : Worker) (began grace : Nat) : Prop where
  closed : worker.isOpen = false
  began_le : began ≤ worker.now
  within : worker.now ≤ began + grace
  busy : worker.now ≤ station.finish began

/-- What the stage of a desk says: draining waits for the sounds only after the worker, and is over when there is nothing
to wait for or when its time is over. -/
def InStage (d : Desk) : Stage → Prop
  | .handing => d.worker.isOpen = true
  | .forCamera began grace => Drains d.station d.worker began grace
  | .forSounds began grace => Drains d.station d.worker began grace ∧ d.worker.phase = .stopped
  | .finished began grace =>
    Drains d.station d.worker began grace ∧ (d.worker.phase = .stopped ∧ d.playing = [] ∨ began + grace ≤ d.now)

/-- The worker follows the turns of the camera, and every sound plays from its beginning to its own end. -/
structure Keeps (d : Desk) : Prop where
  equipped : d.station.Equipped
  follows : Worker.Follows d.station.attempts d.station.submissions d.worker
  stopped : d.worker.phase = .stopped → freeAfter d.station.attempts d.station.submissions ≤ d.now
  sounds : (d.ended.map Prod.snd ++ d.playing).Perm d.station.sounds
  rung : ∀ p ∈ d.ended, p.1 = p.2.finish ∧ p.1 ≤ d.now
  due : ∀ s ∈ d.playing, d.now ≤ s.finish
  inStage : d.InStage d.stage

lemma waits_iff : d.waits ↔ d.worker.work? d.station.attempts = none ∧ (∀ s ∈ d.playing, d.now < s.finish) ∧
    d.proceed? = none ∧ d.giveUp? = none := by
  rw [waits, work?]
  simp only [Bool.and_eq_true, Option.isNone_iff_eq_none, Option.map_eq_none_iff, List.all_eq_true, decide_eq_true_eq,
    and_assoc]

lemma Keeps.of_stage (h : d.Keeps) {stage : Stage} (hstage : d.stage = stage) : d.InStage stage := hstage ▸ h.inStage

lemma Keeps.drains (h : d.Keeps) {began grace : Nat} (hdraining : d.stage.draining? = some (began, grace)) :
    Drains d.station d.worker began grace := by
  rcases Stage.cases_of_draining? hdraining with hstage | hstage
  · exact h.of_stage hstage
  · exact (h.of_stage hstage).1

lemma Keeps.now_le_finish (h : d.Keeps) : d.now ≤ d.station.finish d.now :=
  ((Station.finish_le_iff h.equipped).mp (Nat.le_refl _)).1

lemma Keeps.hand (h : d.Keeps) (hstage : d.stage = .handing) (task : Task) : (d.hand task).Keeps := by
  obtain ⟨captures, plays, hadds⟩ := d.station.exists_adds d.now task
  have hopen : d.worker.isOpen = true := h.of_stage hstage
  have hattempts : (d.station.dispatch d.now task).attempts = d.station.attempts := by
    rw [Station.attempts, Station.attempts, hadds.camera]
  have hqueue : (d.station.dispatch d.now task).submissions.drop d.station.submissions.length = captures := by
    rw [hadds.submissions, List.drop_left]
  have hplaying : (d.station.dispatch d.now task).sounds.drop d.station.sounds.length = plays := by
    rw [hadds.sounds, List.drop_left]
  simp only [Desk.hand, hqueue, hplaying]
  constructor
  · intro hcamera
    rw [hadds.camera] at hcamera
    rw [hadds.submissions, h.equipped hcamera]
    rcases hadds.captured with rfl | ⟨hsome, -⟩
    · rfl
    · rw [hcamera] at hsome
      cases hsome
  · rw [hattempts, hadds.submissions]
    rcases hadds.captured with rfl | ⟨-, exposure, rfl⟩
    · simpa using h.follows
    · exact h.follows.submit exposure hopen
  · intro hphase
    cases (h.follows.of_stopped hphase).2.symm.trans hopen
  · rw [hadds.sounds, ← List.append_assoc]
    exact h.sounds.append_right plays
  · exact h.rung
  · intro s hs
    rcases List.mem_append.mp hs with hs | hs
    · exact h.due s hs
    · change d.now ≤ s.ms + s.length
      have := hadds.played s hs
      omega
  · rw [hstage]
    exact hopen

lemma Keeps.drain (h : d.Keeps) (grace : Nat) : (d.drain grace).Keeps where
  equipped := h.equipped
  follows := h.follows.shutDown
  stopped := h.stopped
  sounds := h.sounds
  rung := h.rung
  due := h.due
  inStage := ⟨rfl, Nat.le_refl _, Nat.le_add_right _ _, h.now_le_finish⟩

lemma Keeps.work (h : d.Keeps) (hgoing : d.isFinished = false) (hwork : d.work? = some d') : d'.Keeps := by
  obtain ⟨worker, hworker, rfl⟩ := Option.map_eq_some_iff.mp hwork
  have hworks := Worker.works_of_work? hworker
  obtain ⟨hnow, hopen⟩ := Worker.frame_work hworker
  have hnow' : Desk.now { d with worker } = d.now := hnow
  refine ⟨h.equipped, h.follows.work hworks, fun hphase => ?_, h.sounds, ?_, ?_, ?_⟩
  · rw [hnow']
    exact h.follows.freeAfter_le_of_stops hworks hphase
  · rw [hnow']
    exact h.rung
  · rw [hnow']
    exact h.due
  · cases hstage : d.stage with
    | handing => exact hopen.trans (h.of_stage hstage)
    | forCamera began grace =>
      obtain ⟨hclosed, hbegan, hwithin, hbusy⟩ := h.of_stage hstage
      rw [← hnow] at hbegan hwithin hbusy
      exact ⟨hopen.trans hclosed, hbegan, hwithin, hbusy⟩
    | forSounds began grace =>
      -- a worker that has stopped does nothing
      simp only [Worker.work?, (h.of_stage hstage).2] at hworker
      cases hworker
    | finished began grace =>
      rw [isFinished, hstage] at hgoing
      cases hgoing

lemma ring?_eq_some_iff {i : Nat} :
    d.ring? i = some d' ↔ ∃ s, d.playing[i]? = some s ∧ s.finish ≤ d.now ∧ d.fallSilent i s = d' := by
  rw [ring?]
  constructor
  · intro h
    split at h
    · next s hs =>
      split_ifs at h with hfinish
      exact ⟨s, hs, hfinish, Option.some.inj h⟩
    · cases h
  · rintro ⟨s, hs, hfinish, rfl⟩
    rw [hs]
    exact if_pos hfinish

lemma Keeps.ring (h : d.Keeps) (hgoing : d.isFinished = false) {i : Nat} (hring : d.ring? i = some d') : d'.Keeps := by
  obtain ⟨s, hs, hfinish, rfl⟩ := ring?_eq_some_iff.mp hring
  have hdue := h.due s (List.mem_of_getElem? hs)
  obtain ⟨hi, hget⟩ := List.getElem?_eq_some_iff.mp hs
  refine ⟨h.equipped, h.follows, h.stopped, ?_, ?_, ?_, ?_⟩
  · have hrest : (s :: d.playing.eraseIdx i).Perm d.playing := by
      have hperm := List.getElem_cons_eraseIdx_perm hi
      rwa [hget] at hperm
    have hmoved : (d.ended ++ [(d.now, s)]).map Prod.snd ++ d.playing.eraseIdx i =
        d.ended.map Prod.snd ++ s :: d.playing.eraseIdx i := by simp
    exact hmoved ▸ (hrest.append_left _).trans h.sounds
  · intro p hp
    rcases List.mem_append.mp hp with hp | hp
    · exact h.rung p hp
    · rw [List.mem_singleton.mp hp]
      exact ⟨Nat.le_antisymm hdue hfinish, Nat.le_refl _⟩
  · exact fun s' hs' => h.due s' (List.mem_of_mem_eraseIdx hs')
  · change (d.fallSilent i s).InStage d.stage
    cases hstage : d.stage with
    | finished began grace =>
      rw [isFinished, hstage] at hgoing
      cases hgoing
    | _ => exact h.of_stage hstage

/-- How draining goes on. -/
inductive Proceeds (d : Desk) : Desk → Prop where
  | toSounds (began grace : Nat) (hstage : d.stage = .forCamera began grace) (hphase : d.worker.phase = .stopped) :
      Proceeds d { d with stage := .forSounds began grace }
  | notice (began grace : Nat) (hstage : d.stage = .forSounds began grace) (hunnoticed : 0 < d.unnoticed) :
      Proceeds d { d with unnoticed := d.unnoticed - 1 }
  | finish (began grace : Nat) (hstage : d.stage = .forSounds began grace) (hplaying : d.playing = []) :
      Proceeds d { d with stage := .finished began grace }

lemma proceeds_of_proceed? (hproceed : d.proceed? = some d') : Proceeds d d' := by
  rw [proceed?] at hproceed
  split at hproceed
  · next began grace hstage =>
    split at hproceed
    · next hphase =>
      cases hproceed
      exact .toSounds began grace hstage hphase
    · cases hproceed
  · next began grace hstage =>
    split_ifs at hproceed with hunnoticed hplaying
    · cases hproceed
      exact .notice began grace hstage hunnoticed
    · cases hproceed
      exact .finish began grace hstage (List.isEmpty_iff.mp hplaying)
  · cases hproceed

lemma Keeps.proceed (h : d.Keeps) (hproceeds : Proceeds d d') : d'.Keeps := by
  cases hproceeds with
  | toSounds began grace hstage hphase =>
    exact ⟨h.equipped, h.follows, h.stopped, h.sounds, h.rung, h.due, h.of_stage hstage, hphase⟩
  | notice => exact ⟨h.equipped, h.follows, h.stopped, h.sounds, h.rung, h.due, h.inStage⟩
  | finish began grace hstage hplaying =>
    obtain ⟨hdrains, hphase⟩ := h.of_stage hstage
    exact ⟨h.equipped, h.follows, h.stopped, h.sounds, h.rung, h.due, hdrains, Or.inl ⟨hphase, hplaying⟩⟩

lemma giveUp?_eq_some_iff : d.giveUp? = some d' ↔ ∃ began grace, d.stage.draining? = some (began, grace) ∧
    began + grace ≤ d.now ∧ d' = { d with stage := .finished began grace } := by
  rw [giveUp?]
  constructor
  · intro h
    split at h
    · next began grace hdraining =>
      split_ifs at h with htime
      exact ⟨began, grace, hdraining, htime, (Option.some.inj h).symm⟩
    · cases h
  · rintro ⟨began, grace, hdraining, htime, rfl⟩
    rw [hdraining]
    exact if_pos htime

lemma Keeps.giveUp (h : d.Keeps) (hgive : d.giveUp? = some d') : d'.Keeps := by
  obtain ⟨began, grace, hdraining, htime, rfl⟩ := giveUp?_eq_some_iff.mp hgive
  obtain ⟨hclosed, hbegan, hwithin, hbusy⟩ := h.drains hdraining
  exact ⟨h.equipped, h.follows, h.stopped, h.sounds, h.rung, h.due, ⟨hclosed, hbegan, hwithin, hbusy⟩, Or.inr htime⟩

/-- As long as draining waits there is something that has not ended. -/
lemma Keeps.lt_finish_of_waits (h : d.Keeps) (hwaits : d.waits) {began grace : Nat}
    (hdraining : d.stage.draining? = some (began, grace)) : d.now < d.station.finish began := by
  obtain ⟨hwork, hsounds, hproceed, -⟩ := waits_iff.mp hwaits
  obtain ⟨-, hcamera, hlast⟩ := (Station.finish_le_iff h.equipped).mp (Nat.le_refl (d.station.finish began))
  rcases Stage.cases_of_draining? hdraining with hstage | hstage
  · have hphase : d.worker.phase ≠ .stopped := by
      intro hphase
      simp only [proceed?, hstage, hphase] at hproceed
      cases hproceed
    have hwaits := Worker.waits_of_work?_eq_none hwork
    exact Nat.lt_of_lt_of_le (h.follows.lt_freeAfter_of_waits (h.drains hdraining).closed hphase hwaits) hcamera
  · have hplaying : d.playing ≠ [] := by
      intro hnil
      simp only [proceed?, hstage, hnil, List.isEmpty_nil] at hproceed
      split_ifs at hproceed
    obtain ⟨s, hs⟩ := List.exists_mem_of_ne_nil _ hplaying
    have hmem : s ∈ d.station.sounds := h.sounds.mem_iff.mp (List.mem_append_right _ hs)
    exact Nat.lt_of_lt_of_le (hsounds s hs) (hlast s hmem)

lemma lt_of_giveUp?_eq_none (hgive : d.giveUp? = none) {began grace : Nat}
    (hdraining : d.stage.draining? = some (began, grace)) : d.now < began + grace := by
  by_contra htime
  cases hgive.symm.trans (giveUp?_eq_some_iff.mpr ⟨began, grace, hdraining, Nat.not_lt.mp htime, rfl⟩)

lemma Keeps.wait (h : d.Keeps) (hgoing : d.isFinished = false) (hwaits : d.waits) : d.tick.Keeps := by
  obtain ⟨hwork, hsounds, -, hgive⟩ := waits_iff.mp hwaits
  have hdrains : ∀ {began grace}, d.stage.draining? = some (began, grace) →
      Drains d.station d.tick.worker began grace := fun hdraining =>
    ⟨(h.drains hdraining).closed, Nat.le_succ_of_le (h.drains hdraining).began_le,
      lt_of_giveUp?_eq_none hgive hdraining, h.lt_finish_of_waits hwaits hdraining⟩
  refine ⟨h.equipped, h.follows.wait (Worker.waits_of_work?_eq_none hwork),
    fun hphase => Nat.le_succ_of_le (h.stopped hphase), h.sounds, ?_, hsounds, ?_⟩
  · exact fun p hp => ⟨(h.rung p hp).1, Nat.le_succ_of_le (h.rung p hp).2⟩
  · have htick : d.tick.stage = d.stage := rfl
    cases hstage : d.stage with
    | handing =>
      rw [htick, hstage]
      exact h.of_stage hstage
    | forCamera began grace =>
      rw [htick, hstage]
      exact hdrains (by rw [hstage]; rfl)
    | forSounds began grace =>
      rw [htick, hstage]
      exact ⟨hdrains (by rw [hstage]; rfl), (h.of_stage hstage).2⟩
    | finished began grace =>
      rw [isFinished, hstage] at hgoing
      cases hgoing

/-! ### Runs -/

lemma keeps_empty {station : Station} (hsubs : station.submissions = []) (hsounds : station.sounds = []) :
    Keeps { station } where
  equipped _ := hsubs
  follows := by
    rw [hsubs]
    exact Worker.follows_nil
  stopped := nofun
  sounds := by rw [hsounds]; exact .nil
  rung := List.forall_mem_nil _
  due := List.forall_mem_nil _
  inStage := rfl

/-- What each event takes and does. -/
lemma step_eq_some_iff : d.step event = some d' ↔ d.isFinished = false ∧
    match event with
    | .hand task => d.stage = .handing ∧ d.hand task = d'
    | .drain grace => d.stage = .handing ∧ d.drain grace = d'
    | .work => d.work? = some d'
    | .ring i => d.ring? i = some d'
    | .proceed => d.proceed? = some d'
    | .giveUp => d.giveUp? = some d'
    | .wait => d.waits ∧ d.tick = d' := by
  unfold step
  cases d.isFinished with
  | true => simp
  | false => cases event <;> simp

lemma Keeps.step (h : d.Keeps) (hstep : d.step event = some d') : d'.Keeps := by
  obtain ⟨hgoing, hevent⟩ := step_eq_some_iff.mp hstep
  cases event with
  | hand task =>
    obtain ⟨hstage, rfl⟩ := hevent
    exact h.hand hstage task
  | drain grace =>
    obtain ⟨-, rfl⟩ := hevent
    exact h.drain grace
  | work => exact h.work hgoing hevent
  | ring i => exact h.ring hgoing hevent
  | proceed => exact h.proceed (proceeds_of_proceed? hevent)
  | giveUp => exact h.giveUp hevent
  | wait =>
    obtain ⟨hwaits, rfl⟩ := hevent
    exact h.wait hgoing hwaits

lemma run_cons_eq_some {events : List Event} :
    d.run (event :: events) = some d' ↔ ∃ e, d.step event = some e ∧ e.run events = some d' := by
  rw [run, List.foldlM_cons]
  exact Option.bind_eq_some_iff

lemma Keeps.run {events : List Event} (h : d.Keeps) (hrun : d.run events = some d') : d'.Keeps := by
  induction events generalizing d with
  | nil =>
    cases hrun
    exact h
  | cons event events ih =>
    obtain ⟨e, hstep, hrest⟩ := run_cons_eq_some.mp hrun
    exact ih (h.step hstep) hrest

/-! ### When draining is over -/

section Finished

variable {began grace : Nat}

/-- A worker that has stopped and a desk where nothing plays leave nothing to end. -/
lemma Keeps.finish_le_now (h : d.Keeps) (hbegan : began ≤ d.now) (hphase : d.worker.phase = .stopped)
    (hplaying : d.playing = []) : d.station.finish began ≤ d.now := by
  refine (Station.finish_le_iff h.equipped).mpr ⟨hbegan, h.stopped hphase, fun s hs => ?_⟩
  have hended := h.sounds.mem_iff.mpr hs
  rw [hplaying, List.append_nil, List.mem_map] at hended
  obtain ⟨p, hp, rfl⟩ := hended
  obtain ⟨heq, hle⟩ := h.rung p hp
  exact heq ▸ hle

/-- Draining ends when the station says. -/
lemma Keeps.now_eq_drained (h : d.Keeps) (hstage : d.stage = .finished began grace) :
    d.now = d.station.drained began grace := by
  obtain ⟨⟨-, hbegan, hwithin, hbusy⟩, ⟨hphase, hplaying⟩ | htime⟩ := h.of_stage hstage
  · have hfinish := h.finish_le_now hbegan hphase hplaying
    change d.now ≤ began + grace at hwithin
    change d.now ≤ d.station.finish began at hbusy
    rw [Station.drained]
    omega
  · change d.now ≤ began + grace at hwithin
    change d.now ≤ d.station.finish began at hbusy
    rw [Station.drained]
    omega

/-- The sounds that are cut off are those that would have ended when draining does not see it any more. -/
lemma Keeps.sees_iff (h : d.Keeps) (hstage : d.stage = .finished began grace)
    (hnone : ∀ s ∈ d.station.sounds, s.finish ≠ began + grace) :
    (∀ p ∈ d.ended, Station.sees began grace p.2.finish) ∧ ∀ s ∈ d.playing, ¬Station.sees began grace s.finish := by
  obtain ⟨⟨-, -, hwithin, -⟩, hcases⟩ := h.of_stage hstage
  change d.now ≤ began + grace at hwithin
  simp only [Station.sees, decide_eq_true_eq]
  constructor
  · intro p hp
    obtain ⟨heq, hle⟩ := h.rung p hp
    have hmem : p.2 ∈ d.station.sounds :=
      h.sounds.mem_iff.mp (List.mem_append_left _ (List.mem_map_of_mem hp))
    have := hnone _ hmem
    omega
  · intro s hs
    rcases hcases with ⟨-, hplaying⟩ | htime
    · rw [hplaying] at hs
      cases hs
    · have := h.due s hs
      omega

lemma filter_append_of_forall {α : Type} {p : α → Bool} {as bs : List α} (has : ∀ a ∈ as, p a) (hbs : ∀ b ∈ bs, ¬p b) :
    (as ++ bs).filter p = as ∧ ((as ++ bs).filter fun a => !p a) = bs := by
  have hnone : as.filter (fun a => !p a) = [] := List.filter_eq_nil_iff.mpr fun a ha => by simp [has a ha]
  have hall : bs.filter (fun b => !p b) = bs := List.filter_eq_self.mpr fun b hb => by simpa using hbs b hb
  rw [List.filter_append, List.filter_append, List.filter_eq_self.mpr has, List.filter_eq_nil_iff.mpr hbs, hnone, hall,
    List.append_nil, List.nil_append]
  exact ⟨rfl, rfl⟩

lemma Keeps.sounds_of_finished (h : d.Keeps) (hstage : d.stage = .finished began grace)
    (hnone : ∀ s ∈ d.station.sounds, s.finish ≠ began + grace) :
    (d.ended.map Prod.snd).Perm (d.station.sounds.filter fun s => Station.sees began grace s.finish) ∧
      d.playing.Perm (d.station.sounds.filter fun s => !Station.sees began grace s.finish) := by
  obtain ⟨hseen, hunseen⟩ := h.sees_iff hstage hnone
  obtain ⟨hended, hplaying⟩ := filter_append_of_forall (p := fun s : Sound => Station.sees began grace s.finish)
    (List.forall_mem_map.mpr hseen) hunseen
  have hfilter := h.sounds.filter fun s => Station.sees began grace s.finish
  have hfilter' := h.sounds.filter fun s => !Station.sees began grace s.finish
  rw [hended] at hfilter
  rw [hplaying] at hfilter'
  exact ⟨hfilter, hfilter'⟩

/-- If everything has ended within the grace, all captures were attempted. -/
lemma Keeps.calls_of_finished (h : d.Keeps) (hstage : d.stage = .finished began grace)
    (hended : ∀ t ∈ d.station.cameraTurns, t.finish < began + grace) :
    d.worker.calls = d.station.cameraTurns.flatMap Turn.calls := by
  rw [h.equipped.cameraTurns_eq] at *
  obtain ⟨-, ⟨hphase, -⟩ | htime⟩ := h.of_stage hstage
  · exact (h.follows.of_stopped hphase).1
  · exact h.follows.calls_of_past fun t ht => Nat.lt_of_lt_of_le (hended t ht) htime

end Finished

/-! ### Coming to an end -/

section Progress

variable {began grace : Nat}

/-- The steps that are left to draining. -/
def left (d : Desk) : Nat :=
  d.worker.left d.station.attempts + 2 * d.playing.length + d.unnoticed +
    match d.stage with
    | .forCamera began grace => began + grace - d.now + 2
    | .forSounds began grace => began + grace - d.now + 1
    | _ => 0

/-- The desk goes on to drain, or is done with it, over the same station. -/
structure GoesOn (began grace : Nat) (d d' : Desk) : Prop where
  station : d'.station = d.station
  stage : d'.stage.draining? = some (began, grace) ∨ d'.stage = .finished began grace

lemma left_proceed (h : d.stage.draining? = some (began, grace)) (hproceeds : Proceeds d d') :
    GoesOn began grace d d' ∧ d'.left < d.left := by
  cases hproceeds with
  | toSounds began' grace' hstage =>
    rw [hstage] at h
    cases h
    refine ⟨⟨rfl, Or.inl rfl⟩, ?_⟩
    simp only [left, hstage, now]
    omega
  | notice =>
    refine ⟨⟨rfl, Or.inl h⟩, ?_⟩
    simp only [left, now]
    omega
  | finish began' grace' hstage =>
    rw [hstage] at h
    cases h
    refine ⟨⟨rfl, Or.inr rfl⟩, ?_⟩
    simp only [left, hstage]
    omega

/-- Every step of draining brings it closer to its end. -/
lemma Keeps.left_step (h : d.Keeps) (hdraining : d.stage.draining? = some (began, grace))
    (hstep : d.step event = some d') : GoesOn began grace d d' ∧ d'.left < d.left := by
  have hhanding : d.stage ≠ .handing := by
    intro hstage
    rw [hstage] at hdraining
    cases hdraining
  obtain ⟨-, hevent⟩ := step_eq_some_iff.mp hstep
  cases event with
  | hand task => exact absurd hevent.1 hhanding
  | drain grace' => exact absurd hevent.1 hhanding
  | work =>
    obtain ⟨worker, hworker, rfl⟩ := Option.map_eq_some_iff.mp hevent
    have hless := Worker.left_work hworker
    refine ⟨⟨rfl, Or.inl hdraining⟩, ?_⟩
    simp only [left, now, (Worker.frame_work hworker).1]
    omega
  | ring i =>
    obtain ⟨s, hs, -, rfl⟩ := ring?_eq_some_iff.mp hevent
    have hi := (List.getElem?_eq_some_iff.mp hs).1
    refine ⟨⟨rfl, Or.inl hdraining⟩, ?_⟩
    simp only [left, fallSilent, now, List.length_eraseIdx_of_lt hi]
    omega
  | proceed => exact left_proceed hdraining (proceeds_of_proceed? hevent)
  | giveUp =>
    obtain ⟨began', grace', hdraining', -, rfl⟩ := giveUp?_eq_some_iff.mp hevent
    cases hdraining.symm.trans hdraining'
    refine ⟨⟨rfl, Or.inr rfl⟩, ?_⟩
    rcases Stage.cases_of_draining? hdraining with hstage | hstage
    · simp only [left, hstage]
      omega
    · simp only [left, hstage]
      omega
  | wait =>
    obtain ⟨hwaits, rfl⟩ := hevent
    obtain ⟨hwork, -, -, hgive⟩ := waits_iff.mp hwaits
    have htime := lt_of_giveUp?_eq_none hgive hdraining
    have hwait : d.worker.step d.station.attempts .wait = some { d.worker with now := d.worker.now + 1 } := by
      simp [Worker.step, hwork]
    have hless := (Worker.left_step (h.drains hdraining).closed hwait).2
    refine ⟨⟨rfl, Or.inl hdraining⟩, ?_⟩
    change d.worker.now < began + grace at htime
    rcases Stage.cases_of_draining? hdraining with hstage | hstage
    · simp +zetaDelta only [left, tick, hstage, now] at hless ⊢
      omega
    · simp +zetaDelta only [left, tick, hstage, now] at hless ⊢
      omega

/-- A sound that does not play on can end. -/
lemma exists_ring (hgoing : d.isFinished = false) (hsounds : ¬∀ s ∈ d.playing, d.now < s.finish) :
    ∃ i s, d.playing[i]? = some s ∧ d.step (.ring i) = some (d.fallSilent i s) := by
  simp only [not_forall, Nat.not_lt] at hsounds
  obtain ⟨s, hs, hfinish⟩ := hsounds
  obtain ⟨i, hi⟩ := List.getElem?_of_mem hs
  exact ⟨i, s, hi, step_eq_some_iff.mpr ⟨hgoing, ring?_eq_some_iff.mpr ⟨s, hi, hfinish, rfl⟩⟩⟩

/-- Something can always happen, be it that time passes. -/
lemma exists_step (hgoing : d.isFinished = false) : ∃ event, (d.step event).isSome := by
  simp only [Option.isSome_iff_exists]
  by_cases hwaits : d.waits
  · exact ⟨.wait, _, step_eq_some_iff.mpr ⟨hgoing, hwaits, rfl⟩⟩
  · rw [waits_iff, not_and_or, not_and_or, not_and_or] at hwaits
    rcases hwaits with hwork | hsounds | hproceed | hgive
    · obtain ⟨worker, hworker⟩ := Option.ne_none_iff_exists'.mp hwork
      exact ⟨.work, _, step_eq_some_iff.mpr ⟨hgoing, Option.map_eq_some_iff.mpr ⟨worker, hworker, rfl⟩⟩⟩
    · obtain ⟨i, s, -, hring⟩ := exists_ring hgoing hsounds
      exact ⟨.ring i, _, hring⟩
    · obtain ⟨e, he⟩ := Option.ne_none_iff_exists'.mp hproceed
      exact ⟨.proceed, e, step_eq_some_iff.mpr ⟨hgoing, he⟩⟩
    · obtain ⟨e, he⟩ := Option.ne_none_iff_exists'.mp hgive
      exact ⟨.giveUp, e, step_eq_some_iff.mpr ⟨hgoing, he⟩⟩

lemma Keeps.goesOn_run {events : List Event} (h : d.Keeps) (hdraining : d.stage.draining? = some (began, grace))
    (hrun : d.run events = some d') :
    GoesOn began grace d d' ∧ (d'.stage = .finished began grace ∨ d'.left + events.length ≤ d.left) := by
  induction events generalizing d with
  | nil =>
    cases hrun
    exact ⟨⟨rfl, Or.inl hdraining⟩, Or.inr (Nat.le_refl _)⟩
  | cons event events ih =>
    obtain ⟨e, hstep, hrest⟩ := run_cons_eq_some.mp hrun
    obtain ⟨⟨hstation, hstage⟩, hless⟩ := h.left_step hdraining hstep
    rcases hstage with hstage | hstage
    · obtain ⟨⟨hstation', hstage'⟩, hleft⟩ := ih (h.step hstep) hstage hrest
      refine ⟨⟨hstation'.trans hstation, hstage'⟩, hleft.imp_right fun hleft => ?_⟩
      rw [List.length_cons]
      omega
    · -- nothing happens any more
      cases events with
      | nil =>
        cases hrest
        exact ⟨⟨hstation, Or.inr hstage⟩, Or.inl hstage⟩
      | cons event' events =>
        obtain ⟨_, hstep', -⟩ := run_cons_eq_some.mp hrest
        obtain ⟨hgoing, -⟩ := step_eq_some_iff.mp hstep'
        rw [isFinished, hstage] at hgoing
        cases hgoing

end Progress

/-! ### All times of dispatch -/

section Handing

lemma run_append {events events' : List Event} {e : Desk} (h : d.run events = some e) (h' : e.run events' = some d') :
    d.run (events ++ events') = some d' := by
  rw [run, List.foldlM_append]
  exact Option.bind_eq_some_iff.mpr ⟨e, h, h'⟩

/-- The desk comes to rest without the passing of time. -/
lemma exists_rest (hstage : d.stage = .handing) :
    ∃ events e, d.run events = some e ∧ e.waits ∧ e.now = d.now ∧ e.station = d.station ∧ e.stage = .handing := by
  induction hn : d.worker.left d.station.attempts + d.playing.length using Nat.strongRecOn generalizing d with
  | ind n ih =>
    by_cases hwaits : d.waits
    · exact ⟨[], d, rfl, hwaits, rfl, rfl, hstage⟩
    · have hgoing : d.isFinished = false := by rw [isFinished, hstage]
      have hproceed : d.proceed? = none := by simp only [proceed?, hstage]
      have hgive : d.giveUp? = none := by simp only [giveUp?, hstage, Stage.draining?]
      simp only [waits_iff, hproceed, hgive, and_true, not_and_or] at hwaits
      rcases hwaits with hwork | hsounds
      · obtain ⟨worker, hworker⟩ := Option.ne_none_iff_exists'.mp hwork
        have hstep : d.step .work = some { d with worker } :=
          step_eq_some_iff.mpr ⟨hgoing, Option.map_eq_some_iff.mpr ⟨worker, hworker, rfl⟩⟩
        have hless := Worker.left_work hworker
        obtain ⟨events, e, hrun, hrest, hnow, hstation, hstage'⟩ :=
          ih _ (by rw [← hn]; exact Nat.add_lt_add_right hless _) (d := { d with worker }) hstage rfl
        exact ⟨.work :: events, e, run_cons_eq_some.mpr ⟨_, hstep, hrun⟩, hrest,
          hnow.trans (Worker.frame_work hworker).1, hstation, hstage'⟩
      · obtain ⟨i, s, hs, hring⟩ := exists_ring hgoing hsounds
        have hi := (List.getElem?_eq_some_iff.mp hs).1
        have hlength := List.length_eraseIdx_of_lt hi
        have hless : d.worker.left d.station.attempts + (d.playing.eraseIdx i).length < n := by
          rw [← hn, hlength]
          omega
        obtain ⟨events, e, hrun, hrest⟩ := ih _ hless (d := d.fallSilent i s) hstage rfl
        exact ⟨.ring i :: events, e, run_cons_eq_some.mpr ⟨_, hring, hrun⟩, hrest⟩

/-- Time passes, whatever is going on. -/
lemma exists_run_until (hstage : d.stage = .handing) {ms : Nat} (h : d.now ≤ ms) :
    ∃ events e, d.run events = some e ∧ e.now = ms ∧ e.station = d.station ∧ e.stage = .handing := by
  induction ms, h using Nat.le_induction with
  | base => exact ⟨[], d, rfl, rfl, rfl, hstage⟩
  | succ ms _ ih =>
    obtain ⟨events, e, hrun, hnow, hstation, hstage⟩ := ih
    obtain ⟨events', e', hrun', hwaits, hnow', hstation', hstage'⟩ := exists_rest hstage
    have hwait : e'.run [.wait] = some e'.tick :=
      run_cons_eq_some.mpr ⟨_, step_eq_some_iff.mpr ⟨by rw [isFinished, hstage'], hwaits, rfl⟩, rfl⟩
    refine ⟨events ++ (events' ++ [.wait]), e'.tick, run_append hrun (run_append hrun' hwait), ?_,
      hstation'.trans hstation, hstage'⟩
    exact congrArg (· + 1) (hnow'.trans hnow)

/-- Tasks can be handed over at any times, and draining can begin at any time after them with any grace. -/
lemma exists_run_drain (station : Station) {tasks : List (Nat × Task)} (htasks : tasks.Pairwise fun p q => p.1 ≤ q.1)
    {began : Nat} (hbegan : ∀ p ∈ tasks, p.1 ≤ began) (grace : Nat) :
    ∃ events d, run { station } events = some d ∧ d.station = station.dispatches tasks ∧
      d.stage = .forCamera began grace := by
  have hgeneral : ∀ d : Desk, d.stage = .handing → d.now ≤ began → (∀ p ∈ tasks, d.now ≤ p.1) →
      ∃ events e, d.run events = some e ∧ e.station = d.station.dispatches tasks ∧
        e.stage = .forCamera began grace := by
    induction htasks with
    | nil =>
      intro d hstage hnow _
      obtain ⟨events, e, hrun, hms, hstation, hstage'⟩ := exists_run_until hstage hnow
      have hdrain : e.run [.drain grace] = some (e.drain grace) :=
        run_cons_eq_some.mpr ⟨_, step_eq_some_iff.mpr ⟨by rw [isFinished, hstage'], hstage', rfl⟩, rfl⟩
      exact ⟨events ++ [.drain grace], e.drain grace, run_append hrun hdrain, hstation,
        congrArg (Stage.forCamera · grace) hms⟩
    | @cons p tasks hp _ ih =>
      intro d hstage hnow hfirst
      obtain ⟨events, e, hrun, hms, hstation, hstage'⟩ := exists_run_until hstage (hfirst p List.mem_cons_self)
      have hhand : e.run [.hand p.2] = some (e.hand p.2) :=
        run_cons_eq_some.mpr ⟨_, step_eq_some_iff.mpr ⟨by rw [isFinished, hstage'], hstage', rfl⟩, rfl⟩
      have hlast := List.forall_mem_cons.mp hbegan
      have hnow' : (e.hand p.2).now = p.1 := hms
      obtain ⟨events', e', hrun', hstation', hstage''⟩ := ih hlast.2 (e.hand p.2) hstage' (hnow' ▸ hlast.1)
        fun q hq => hnow' ▸ hp q hq
      refine ⟨events ++ ([.hand p.2] ++ events'), e', run_append hrun (run_append hhand hrun'), ?_, hstage''⟩
      rw [hstation', Station.dispatches, Station.dispatches, List.foldl_cons, ← hstation, ← hms]
      rfl
  exact hgeneral { station } rfl (Nat.zero_le _) fun _ _ => Nat.zero_le _

end Handing

/-! ### Draining -/

section Draining

variable {began grace : Nat} {station : Station}

/-- However the desk goes on, draining comes to its end over the same station: until then something can always happen,
but only so often. -/
def ComesToEnd (began grace : Nat) (d : Desk) : Prop :=
  ∃ n, ∀ events d', d.run events = some d' → d'.station = d.station ∧
    (d'.stage = .finished began grace ∨ (∃ event, (d'.step event).isSome) ∧ events.length ≤ n)

/-- How draining leaves a station. Sounds that end exactly with the grace may be cut off or not, and captures that do
may make their last call or not. -/
structure Drained (station : Station) (began grace : Nat) (d : Desk) : Prop where
  now : d.now = station.drained began grace
  /-- Sounds that have ended did so at their own ends. -/
  rung : ∀ p ∈ d.ended, p.1 = p.2.finish
  /-- Every sound has ended or is cut off, and that once. -/
  sounds : (d.ended.map Prod.snd ++ d.playing).Perm station.sounds
  cut : station.Clear (began + grace) →
    d.playing.Perm (station.sounds.filter fun s => !Station.sees began grace s.finish)
  all : station.Clear (began + grace) → station.finish began ≤ began + grace →
    d.worker.calls = station.cameraTurns.flatMap Turn.calls ∧ (d.ended.map Prod.snd).Perm station.sounds ∧ d.playing = []

lemma Keeps.comesToEnd (h : d.Keeps) (hdraining : d.stage.draining? = some (began, grace)) :
    d.ComesToEnd began grace := by
  refine ⟨d.left, fun events d' hrun => ?_⟩
  obtain ⟨⟨hstation, hstage⟩, hleft⟩ := h.goesOn_run hdraining hrun
  refine ⟨hstation, ?_⟩
  rcases hstage with hstage | hstage
  · have hgoing : d'.isFinished = false := by
      rcases Stage.cases_of_draining? hstage with hstage | hstage
      · rw [isFinished, hstage]
      · rw [isFinished, hstage]
    refine hleft.imp_right fun hleft => ⟨exists_step hgoing, ?_⟩
    omega
  · exact Or.inl hstage

lemma Keeps.drained (h : d.Keeps) (hstage : d.stage = .finished began grace) : d.Drained d.station began grace where
  now := h.now_eq_drained hstage
  rung p hp := (h.rung p hp).1
  sounds := h.sounds
  cut hclear := (h.sounds_of_finished hstage hclear.sounds).2
  all hclear hwithin := by
    obtain ⟨-, hcamera, hlast⟩ := (Station.finish_le_iff h.equipped).mp hwithin
    have hcalls : d.worker.calls = d.station.cameraTurns.flatMap Turn.calls := by
      refine h.calls_of_finished hstage fun t ht => Nat.lt_of_le_of_ne ?_ (hclear.turns t ht)
      rw [h.equipped.cameraTurns_eq] at ht
      exact freeAfter_le_iff.mp hcamera t ht
    have hplaying : d.playing = [] := by
      refine List.eq_nil_iff_forall_not_mem.mpr fun s hs => ?_
      have hmem : s ∈ d.station.sounds := h.sounds.mem_iff.mp (List.mem_append_right _ hs)
      refine (h.sees_iff hstage hclear.sounds).2 s hs (decide_eq_true ?_)
      exact Nat.lt_of_le_of_ne (hlast s hmem) (hclear.sounds s hmem)
    have hsounds := h.sounds
    rw [hplaying, List.append_nil] at hsounds
    exact ⟨hcalls, hsounds, hplaying⟩

/-- Tasks can be handed over at any times and draining can begin at any time after them. Whatever happens, draining comes
to its end, over the same station. It ends when its grace is over, or when the last capture and the last sound have
ended if that is earlier. If nothing ends exactly with the grace, the sounds that would have ended after it are cut off,
and if everything has ended within it, all calls for captures were made and no sound is cut off. -/
theorem drain_comesToEnd (hsubs : station.submissions = []) (hsounds : station.sounds = []) {tasks : List (Nat × Task)}
    (htasks : tasks.Pairwise fun p q => p.1 ≤ q.1) (hbegan : ∀ p ∈ tasks, p.1 ≤ began) (grace : Nat) :
    (∃ events d, run { station } events = some d ∧ d.station = station.dispatches tasks ∧
      d.stage = .forCamera began grace) ∧
    ∀ events d, run { station } events = some d → d.station = station.dispatches tasks →
      (d.stage.draining? = some (began, grace) → d.ComesToEnd began grace) ∧
      (d.stage = .finished began grace → d.Drained (station.dispatches tasks) began grace) := by
  refine ⟨exists_run_drain station htasks hbegan grace, fun events d hrun hstation => ?_⟩
  have hkeeps := (keeps_empty hsubs hsounds).run hrun
  exact ⟨hkeeps.comesToEnd, fun hstage => hstation ▸ hkeeps.drained hstage⟩

/-- A camera that takes a picture in two milliseconds, and a player that fails the first time, after three milliseconds,
and plays on for nine the second time. -/
def smallStation : Station where
  camera := some fun _ _ => ⟨1, none, 1, none⟩
  player := some ⟨"", fun n _ => if n = 1 then (3, some (.commandFailed "busy")) else (9, none)⟩

/-- A picture, and the same sound twice. -/
def smallTasks : List (Nat × Task) := [(0, .capture ⟨.one, .one, 100⟩), (0, .play "horn"), (0, .play "horn")]

/-- The tasks are handed over, draining begins at one millisecond and gives up after five. -/
def smallEvents : List Event :=
  smallTasks.map (fun p => .hand p.2) ++ [.work, .wait, .drain 5, .work, .wait, .work, .work, .proceed, .wait, .ring 0,
    .proceed, .wait, .wait, .wait, .giveUp]

/-- The picture and the first play of the sound end within the grace, and the second play is cut off. -/
theorem drain_small : ∃ d, run { station := smallStation } smallEvents = some d ∧
    d.Drained (smallStation.dispatches smallTasks) 1 5 ∧ d.now = 6 ∧ d.playing = [⟨0, "horn", 9, none⟩] := by
  let d := (run { station := smallStation } smallEvents).get (by decide +kernel)
  have hrun : run { station := smallStation } smallEvents = some d := (Option.some_get _).symm
  exact ⟨d, hrun, ((drain_comesToEnd rfl rfl (by decide) (by decide) 5).2 smallEvents d hrun rfl).2 rfl, rfl, rfl⟩

end Draining

end Desk

end Totality
